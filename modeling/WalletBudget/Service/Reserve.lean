import WalletBudget.HoldPolicy
import WalletBudget.Service.CurrentCycle

/-!
Reserving budget for a payment.

The payment is priced first, with nothing locked or written, so that a slow or failed conversion
leaves no trace. Then the cycle is locked and read again: the hold has to fit what is left by then.
A cycle that ended meanwhile is looked for again, once, from the connection as it is stored.
-/

namespace WalletBudget.Service

def attempts : Nat := 2

/-- What a payment costs in the currency of a cycle. Only another currency has to be converted, and
no conversion may come out negative. -/
def price (cycle : Cycle) (intent : Intent) : Task Int := do
  if intent.currency.same cycle.currency then return intent.amount
  match ← Task.convert ⟨intent.currency, intent.amount, cycle.currency⟩ with
  | .error e => Task.refuse (.conversion e)
  | .ok estimate =>
    if estimate < 0 then
      Task.refuse (.conversion (.invalidResponse "currency converter"
        ("negative estimate " ++ Digits.signed estimate)))
    else return estimate

/-- A payment that no limit applies to. Nothing is reserved for it. -/
def recordUnbudgeted (connection : ConnectionId) (request : RequestId) (intent : Intent)
    (now : Instant) : Task Payment := do
  let payment := Payment.pending (← Task.newId .payment) request connection intent now
  Task.tell .insertPayment (·.insertPayment payment)
  return payment

/-- Places a hold on a cycle and records the payment, in one write. There is no answer when the
cycle has ended. -/
def placeHold (cycle : CycleId) (connection : ConnectionId) (request : RequestId) (intent : Intent)
    (estimate hold : Int) (now : Instant) : Task (Option Payment) := do
  let locked ← Task.locked cycle
  if locked.hasEnded (← Task.clock) then return none
  let left ← Task.sound locked.available
  if left < hold then Task.refuse (.insufficientBudget (some hold) (max left 0))
  else do
    let payment := Payment.pending (← Task.newId .payment) request connection intent now
    let payment := payment.reserved cycle locked.currency estimate hold
    let locked ← Task.sound (locked.placeHold hold)
    Task.tell .commit (fun s => .ok (s.commit locked (some payment)))
    return some payment

/-- One attempt. There is no answer when the cycle ended before the hold was placed. -/
def tryReserve (policy : HoldPolicy) (c : Connection) (request : RequestId) (intent : Intent) :
    Task (Option Payment) := do
  let now ← Task.clock
  match ← activeLimit c with
  | none => return some (← recordUnbudgeted c.id request intent now)
  | some l =>
    let cycle ← currentCycle l now
    let left ← Task.sound cycle.available
    if left ≤ 0 then Task.refuse (.insufficientBudget none (max left 0))
    else do
      let estimate ← price cycle intent
      let hold ← Task.valid (← Task.sound (policy.holdFor estimate))
      placeHold cycle.id c.id request intent estimate hold now

def reserveWithin (policy : HoldPolicy) (request : RequestId) (intent : Intent) :
    Nat → Connection → Task Payment
  | 0, _ => Task.refuse (.insufficientBudget none 0)
  | n + 1, c => do
    match ← tryReserve policy c request intent with
    | some payment => return payment
    | none => reserveWithin policy request intent n (← connection c.id)

/-- Reserves budget for a payment and records it as pending, on behalf of a connection as the caller
knows it. -/
def reserve (policy : HoldPolicy) (c : Connection) (request : RequestId) (intent : Intent) :
    Task Payment :=
  reserveWithin policy request intent attempts c

end WalletBudget.Service
