import WalletBudget.Wire.Payment

/-! Bodies of the admin interface: what is asked for, what is answered, and errors. -/

namespace WalletBudget.Api

open Json (Decoder)
open Record (build)

/-- The wanted limit: a budget in its text form, or its parts. -/
structure LimitRequest where
  enabled : Bool
  budget : Option String
  amount : Option Int
  currency : Option String
  frequency : Option Frequency
  deriving DecidableEq, Repr

namespace LimitRequest

def record : Record Json LimitRequest :=
  (build LimitRequest.mk)
    |>.field (.defaulted "enabled" Json.boolean true)
    |>.field (.omissible "budget" Json.string)
    |>.field (.omissible "amount" Json.int64)
    |>.field (.omissible "currency" Json.string)
    |>.field (.omissible "frequency" Frequency.fromJson)

def fromJson : Decoder LimitRequest := record.decode

/-- A currency by its code, if there is one. -/
def currencyOf : Option String → Except ValidationError (Option Currency)
  | none => .ok none
  | some code => some <$> Currency.ofCode code

/-- The text form wins over the parts. A limit that is not enabled has neither. -/
def update (r : LimitRequest) : Except ValidationError LimitUpdate :=
  if r.enabled = false then .ok .disable
  else match r.budget with
    | some text => .enable <$> Budget.read text
    | none => do return ⟨true, r.amount, ← currencyOf r.currency, r.frequency⟩

end LimitRequest

structure ConnectionRequest where
  budgetCurrency : Option String
  accessToken : Option String
  limit : Option LimitRequest
  deriving DecidableEq, Repr

namespace ConnectionRequest

def record : Record Json ConnectionRequest :=
  (build ConnectionRequest.mk)
    |>.field (.omissible "budget_currency" Json.string)
    |>.field (.omissible "vasp_access_token" Json.string)
    |>.field (.omissible "limit" LimitRequest.fromJson)

def fromJson : Decoder ConnectionRequest := record.decode

end ConnectionRequest

/-- Parts that a change does not have are left out. -/
def changeJson (c : LimitChange) : Json :=
  .obj ([("change", .str c.name)] ++ Json.entry? "limit" Limit.toJson c.limit
    ++ Json.entry? "previous" Limit.toJson c.previous)

/-- The body of an answer that refuses. -/
structure ErrorBody where
  code : String
  message : String
  deriving DecidableEq, Repr

namespace ErrorBody

def record : Record Json ErrorBody :=
  (build ErrorBody.mk)
    |>.field (.required "code" Json.string)
    |>.field (.required "msg" Json.string)

def fromJson : Decoder ErrorBody := record.decode

def toJson (b : ErrorBody) : Json := .obj [("code", .str b.code), ("msg", .str b.message)]

end ErrorBody

inductive Error where
  | budget (error : BudgetError)
  | badRequest (reason : String)
  deriving DecidableEq

namespace Error

def message : Error → String
  | .budget e => e.message
  | .badRequest reason => "Bad request: " ++ reason

def code : Error → String
  | .budget e => e.code
  | .badRequest _ => "OTHER"

/-- The status of an answer that refuses. -/
def budgetStatus : BudgetError → Nat
  | .validation _ => 400
  | .insufficientBudget _ _ => 402
  | .connectionNotFound _ => 404
  | .limitNotFound _ => 404
  | .cycleNotFound _ => 404
  | .paymentNotFound _ => 404
  | .alreadyFinal _ _ => 409
  | .conversion _ => 502
  | .execution _ => 502
  | .store _ => 500

def status : Error → Nat
  | .budget e => budgetStatus e
  | .badRequest _ => 400

def body (e : Error) : ErrorBody := ⟨e.code, e.message⟩

end Error

end WalletBudget.Api
