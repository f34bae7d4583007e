import WalletBudget.Peer

/-!
Refusals: the errors that an operation answers with, their words and their codes.
-/

namespace WalletBudget

inductive StoreError where
  | uniqueViolation (what : String)
  | notFound (what : String)
  | backend (reason : String)
  deriving DecidableEq, Repr

def StoreError.message : StoreError → String
  | .uniqueViolation what => "Unique constraint violated: " ++ what
  | .notFound what => "Not found: " ++ what
  | .backend reason => "Backend error: " ++ reason

/-- The constructor `insufficientBudget` names the hold that did not fit, if it came to one. -/
inductive BudgetError where
  | validation (error : ValidationError)
  | insufficientBudget (requested : Option Int) (available : Int)
  | conversion (error : PeerError)
  | execution (error : PeerError)
  | store (error : StoreError)
  | alreadyFinal (payment : PaymentId) (status : PaymentStatus)
  | connectionNotFound (id : ConnectionId)
  | limitNotFound (id : LimitId)
  | cycleNotFound (id : CycleId)
  | paymentNotFound (id : PaymentId)
  deriving DecidableEq

namespace BudgetError

def message : BudgetError → String
  | .validation e => e.message
  | .insufficientBudget _ available =>
    "Insufficient budget: " ++ Digits.signed available ++ " available in the current cycle"
  | .conversion e => e.message
  | .execution e => e.message
  | .store e => "Storage error: " ++ e.message
  | .alreadyFinal payment status => "Payment " ++ payment.text ++ " is already " ++ status.name
  | .connectionNotFound id => "Connection " ++ id.text ++ " not found"
  | .limitNotFound id => "Spending limit " ++ id.text ++ " not found"
  | .cycleNotFound id => "Spending cycle " ++ id.text ++ " not found"
  | .paymentNotFound id => "Payment " ++ id.text ++ " not found"

/-- The code of the wallet protocol for an error. -/
def code : BudgetError → String
  | .validation _ => "OTHER"
  | .insufficientBudget _ _ => "QUOTA_EXCEEDED"
  | .conversion _ => "OTHER"
  | .execution _ => "PAYMENT_FAILED"
  | .store _ => "INTERNAL"
  | .alreadyFinal _ _ => "INTERNAL"
  | .connectionNotFound _ => "UNAUTHORIZED"
  | .limitNotFound _ => "NOT_FOUND"
  | .cycleNotFound _ => "NOT_FOUND"
  | .paymentNotFound _ => "NOT_FOUND"

/-- The caller is at fault, and not its input or a peer. -/
def isContractViolation : BudgetError → Bool
  | .alreadyFinal _ _ => true
  | _ => false

end BudgetError

end WalletBudget
