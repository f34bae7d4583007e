import WalletBudget.Amount
import WalletBudget.Decimal.Arithmetic
import WalletBudget.Defect
import WalletBudget.Error

/-!
How much is held for a payment whose cost is an estimate: the estimate times a safety factor,
rounded up to a whole amount.
-/

namespace WalletBudget

structure HoldPolicy where
  multiplier : Decimal
  deriving DecidableEq

namespace HoldPolicy

/-- Nothing is added to an estimate. -/
def exact : HoldPolicy := ⟨.one⟩

/-- A hold is never below its estimate. -/
def validate (p : HoldPolicy) : Except ValidationError Unit :=
  if p.multiplier.belowOne then .error (.multiplier p.multiplier) else .ok ()

def create (multiplier : Decimal) : Except ValidationError HoldPolicy := do
  let p : HoldPolicy := ⟨multiplier⟩
  p.validate
  return p

/-- The product as a decimal. It is a defect when it has too many digits before the point. -/
def product (p : HoldPolicy) (estimate : Int) : Except Defect Decimal :=
  orDefect .productRange (do (← Decimal.ofInt? estimate).times? p.multiplier)

/-- The hold for an estimate, or the refusal of a hold that is no amount. -/
def holdFor (p : HoldPolicy) (estimate : Int) : Except Defect (Except ValidationError Int) := do
  let hold := (← p.product estimate).ceil
  return if inRange hold then .ok hold else .error (.holdOverflow estimate)

end HoldPolicy

end WalletBudget
