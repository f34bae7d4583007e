import WalletBudget.Service.Task

/-!
Ending a payment: its hold is settled into the cycle it was reserved on, or released.

The stored record decides, not the caller's copy: a payment that is final already is refused. A
payment without a cycle has no hold, and only its record is written.
-/

namespace WalletBudget.Service

/-- How a payment ended, with its cost if it succeeded. -/
inductive Ending where
  | success (settled : Int)
  | failure
  deriving DecidableEq, Repr

def Ending.mark (e : Ending) (p : Payment) (now : Instant) : Payment :=
  match e with
  | .success settled => p.succeed settled now
  | .failure => p.fail now

def Ending.apply (e : Ending) (c : Cycle) (hold : Int) : Except Defect Cycle :=
  match e with
  | .success settled => c.settle hold settled
  | .failure => c.releaseHold hold

def ensurePending (p : Payment) : Task Unit :=
  if p.status.isFinal then Task.refuse (.alreadyFinal p.id p.status) else pure ()

def storedPayment (id : PaymentId) : Task Payment := do
  Task.found (.paymentNotFound id) (← Task.ask .payment none (·.payment? id))

/-- Writes the caller's copy with its ending, and answers with what is stored then. A stored record
that is not pending is left alone. -/
def completeUnbudgeted (e : Ending) (p : Payment) (now : Instant) : Task Payment := do
  let written ← Task.stored
    (Task.call .completeUnbudgeted false (·.completeUnbudgeted (e.mark p now)))
  if !written then ensurePending (← storedPayment p.id)
  storedPayment p.id

/-- Reads the payment again inside the locked section, and writes it with its cycle. -/
def completeBudgeted (e : Ending) (cycle : CycleId) (p : PaymentId) (now : Instant) :
    Task Payment := do
  let locked ← Task.locked cycle
  let current ← Task.found (.paymentNotFound p) (← Task.ask .lockedPayment none (·.payment? p))
  ensurePending current
  let locked ← Task.sound (e.apply locked (current.hold.getD 0))
  let current := e.mark current now
  Task.tell .commit (fun s => .ok (s.commit locked (some current)))
  return current

def finalize (e : Ending) (p : Payment) : Task Payment := do
  let now ← Task.clock
  match p.cycle with
  | none => completeUnbudgeted e p now
  | some cycle => completeBudgeted e cycle p.id now

/-- Settles a payment with its actual cost, which may exceed the hold but is never negative. -/
def finalizeSuccess (p : Payment) (settled : Int) : Task Payment :=
  if settled < 0 then Task.refuse (.validation (.settledAmount settled))
  else finalize (.success settled) p

/-- Releases the hold of a payment. Nothing is charged. -/
def finalizeFailure (p : Payment) : Task Payment := finalize .failure p

end WalletBudget.Service
