import WalletBudget.Instant.Read
import WalletBudget.Decimal.Basic

/-!
What is wrong with a value that a caller gave. Every cause names the field at fault and has one
text.
-/

namespace WalletBudget

/-- Faults of a budget in its text form that are not those of its currency or frequency. -/
inductive BudgetTextFault where
  | frequencyMissing
  | currencyMissing
  | amountMissing
  | amountNotInteger
  | amountNotPositive
  deriving DecidableEq, Repr

def BudgetTextFault.text : BudgetTextFault → String
  | .frequencyMissing => "missing frequency after '/'"
  | .currencyMissing => "missing currency after '.'"
  | .amountMissing => "missing amount"
  | .amountNotInteger => "amount must be an integer"
  | .amountNotPositive => "amount must be positive"

/-- The constructor `other` holds faults that only a peer's report names. -/
inductive ValidationError where
  | currencyCode (code : String)
  | frequency (name : String)
  | timestamp (text : String) (fault : Instant.ReadFault)
  | budgetText (text : String) (fault : BudgetTextFault)
  | limitAmount (amount : Int)
  | limitAmountMissing
  | sendingAmount (amount : Int)
  | settledAmount (amount : Int)
  | paymentStatus (text : String)
  | receiverType (text : String)
  | multiplier (value : Decimal)
  | holdOverflow (estimate : Int)
  | other (field reason : String)
  deriving DecidableEq

namespace ValidationError

def field : ValidationError → String
  | .currencyCode _ => "currency"
  | .frequency _ => "frequency"
  | .timestamp _ _ => "timestamp"
  | .budgetText _ _ => "budget"
  | .limitAmount _ => "amount"
  | .limitAmountMissing => "amount"
  | .sendingAmount _ => "sending_amount"
  | .settledAmount _ => "settled_budget_amount"
  | .paymentStatus _ => "status"
  | .receiverType _ => "receiver_type"
  | .multiplier _ => "buffer_multiplier"
  | .holdOverflow _ => "amount"
  | .other field _ => field

def reason : ValidationError → String
  | .currencyCode code => "'" ++ code ++ "' is not a three letter currency code"
  | .frequency name => "unknown frequency '" ++ name ++ "'"
  | .timestamp text fault => "'" ++ text ++ "' is not timezone-aware RFC 3339: " ++ fault.text
  | .budgetText text fault => "'" ++ text ++ "': " ++ fault.text
  | .limitAmount amount => "spending limit amount must be positive, got " ++ Digits.signed amount
  | .limitAmountMissing => "required when the limit is enabled"
  | .sendingAmount amount => "must be positive, got " ++ Digits.signed amount
  | .settledAmount amount => "must not be negative, got " ++ Digits.signed amount
  | .paymentStatus text => "unknown payment status '" ++ text ++ "'"
  | .receiverType text => "unknown receiver type '" ++ text ++ "'"
  | .multiplier value => "must be at least 1, got " ++ value.text
  | .holdOverflow estimate => "hold for " ++ Digits.signed estimate ++ " overflows"
  | .other _ reason => reason

def message (e : ValidationError) : String := "Invalid " ++ e.field ++ ": " ++ e.reason

end ValidationError

/-- An instant in the strict form. -/
def Instant.read (s : String) : Except ValidationError Instant :=
  match Instant.readStrict s with
  | .ok t => .ok t
  | .error fault => .error (.timestamp s fault)

end WalletBudget
