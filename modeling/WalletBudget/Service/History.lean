import WalletBudget.Service.CurrentCycle

/-! What a connection has had: its limits and its payments, newest first. -/

namespace WalletBudget.Service

def limitHistory (id : ConnectionId) : Task (List Limit) := do
  let c ← connection id
  let scan ← Task.scan
  Task.ask .limitsOfConnection [] (·.limitsOf scan c.id)

def payments (id : ConnectionId) (most : Nat) : Task (List Payment) := do
  let c ← connection id
  let scan ← Task.scan
  Task.ask .paymentsOfConnection [] (·.paymentsOf scan c.id most)

end WalletBudget.Service
