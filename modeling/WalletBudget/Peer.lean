import WalletBudget.Request

/-!
Peers of the service: the converter, which prices an amount in another currency, and the executor,
which makes the real payment. Only their questions and answers are known here.
-/

namespace WalletBudget

/-- How many units of the target currency an amount to be sent costs. -/
structure Conversion where
  sending : Currency
  amount : Int
  target : Currency
  deriving DecidableEq

/-- A payment to make. The cost is wanted in the budget currency, if there is a budget. -/
structure Execution where
  request : PaymentRequest
  budgetCurrency : Option Currency
  deriving DecidableEq

structure PaymentOutcome where
  preimage : Option String
  settled : Option Int
  deriving DecidableEq

inductive PeerError where
  | status (service : String) (code : Nat) (message : String)
  | unavailable (service message : String)
  | invalidResponse (service message : String)
  deriving DecidableEq, Repr

namespace PeerError

def service : PeerError → String
  | .status service _ _ => service
  | .unavailable service _ => service
  | .invalidResponse service _ => service

def message : PeerError → String
  | .status service code message =>
    service ++ " returned " ++ Digits.text code ++ ": " ++ message
  | .unavailable service message => service ++ " unavailable: " ++ message
  | .invalidResponse service message => "Invalid response from " ++ service ++ ": " ++ message

end PeerError

end WalletBudget
