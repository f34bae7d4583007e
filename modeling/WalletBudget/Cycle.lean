import WalletBudget.Amount
import WalletBudget.Currency
import WalletBudget.Defect

/-!
Spending cycles: one period of a limit each, with what was spent and what is held in it.

A cycle keeps the currency and the amount its limit had. A hold is placed before a payment is sent;
afterwards it is released, or settled into what was spent.
-/

namespace WalletBudget

structure Cycle where
  id : CycleId
  limit : LimitId
  currency : Currency
  limitAmount : Int
  start : Instant
  finish : Option Instant
  spent : Int
  held : Int
  deriving DecidableEq

/-- A sum or difference of amounts. -/
def checkedAmount (n : Int) : Except Defect Int :=
  if inRange n then .ok n else .error .amountRange

namespace Cycle

/-- A cycle in which nothing is spent or held. -/
def fresh (id : CycleId) (limit : LimitId) (currency : Currency) (amount : Int) (start : Instant)
    (finish : Option Instant) : Cycle :=
  ⟨id, limit, currency, amount, start, finish, 0, 0⟩

/-- What may still be held. It is negative when settlements or a lower limit overdrew the cycle. -/
def available (c : Cycle) : Except Defect Int := do
  let left ← checkedAmount (c.limitAmount - c.spent)
  checkedAmount (left - c.held)

def canHold (c : Cycle) (amount : Int) : Except Defect Bool :=
  (fun left => decide (amount ≤ left)) <$> c.available

/-- The end does not belong to the cycle. -/
def hasEnded (c : Cycle) (now : Instant) : Bool :=
  match c.finish with
  | some finish => finish ≤ now
  | none => false

def placeHold (c : Cycle) (amount : Int) : Except Defect Cycle := do
  return { c with held := ← checkedAmount (c.held + amount) }

/-- No more is released than is held. -/
def releaseHold (c : Cycle) (amount : Int) : Except Defect Cycle := do
  return { c with held := max (← checkedAmount (c.held - amount)) 0 }

/-- A hold becomes a spend, of whatever size the spend is. -/
def settle (c : Cycle) (hold settled : Int) : Except Defect Cycle := do
  let c ← c.releaseHold hold
  return { c with spent := ← checkedAmount (c.spent + settled) }

/-- The cycle ends at an instant if it would not end before it. It never ends before its start. -/
def endAt (c : Cycle) (time : Instant) : Cycle :=
  let stop := time.later c.start
  match c.finish with
  | some finish => if finish ≤ stop then c else { c with finish := some stop }
  | none => { c with finish := some stop }

end Cycle

end WalletBudget
