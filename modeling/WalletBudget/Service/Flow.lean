import WalletBudget.Service.Finalize
import WalletBudget.Service.Reserve

/-!
One payment request from its reservation to its end. Every reservation is finalized once: settled
when the executor paid, released when it did not.
-/

namespace WalletBudget

structure PaymentReceipt where
  payment : Payment
  preimage : Option String
  deriving DecidableEq

namespace Service

/-- Pays a request on behalf of a connection. The executor's cost is charged if it reports one. -/
def pay (policy : HoldPolicy) (c : Connection) (id : RequestId) (request : PaymentRequest) :
    Task PaymentReceipt := do
  let intent ← Task.valid request.intent
  let payment ← reserve policy c id intent
  match ← Task.execute ⟨request, payment.budgetCurrency⟩ with
  | .ok outcome =>
    let settled := outcome.settled.getD payment.fallbackCost.1
    let payment ← finalizeSuccess payment settled
    return ⟨payment, outcome.preimage⟩
  | .error e =>
    let _ ← finalizeFailure payment
    Task.refuse (.execution e)

end Service

end WalletBudget
