import WalletBudget.HoldPolicy
import WalletBudget.Service.CurrentCycle

/-!
The budget of a connection for display, in thousandths of a sat.

A budget in another currency is priced by one conversion of its whole amount; what remains is shown
in proportion. The view is never used to decide on a payment.
-/

namespace WalletBudget

/-- The budget in its own currency. -/
structure CurrencyBudget where
  code : String
  symbol : String
  name : String
  decimals : UInt8
  total : Int
  remaining : Int
  deriving DecidableEq

/-- A connection without an active limit has none of the fields. -/
structure BudgetView where
  totalMsats : Option Int
  remainingMsats : Option Int
  renewsAt : Option Int
  currency : Option CurrencyBudget
  deriving DecidableEq

namespace BudgetView

def empty : BudgetView := ⟨none, none, none, none⟩

def isEmpty (v : BudgetView) : Bool := v.totalMsats.isNone

def msatsPerSat : Int := 1000

/-- Thousandths of a sat, at most as many as an amount can be. -/
def msats (sats : Int) : Int := saturate (sats * msatsPerSat)

/-- The share `remaining / total` of a number of sats, rounded half to even as a decimal quotient.
There is none where the decimals or the amounts run out of range. -/
def share? (sats remaining total : Int) : Option Int := do
  let product ← (← Decimal.ofInt? sats).times? (← Decimal.ofInt? remaining)
  let share := (← product.dividedBy? (← Decimal.ofInt? total)).round
  if inRange share then some share else none

def shareFault (sats : Int) : PeerError :=
  .invalidResponse "currency converter" ("estimate " ++ Digits.signed sats ++ " out of range")

end BudgetView

namespace Service

/-- The view of a connection as the caller knows it. -/
def budgetView (c : Connection) : Task BudgetView := do
  match ← activeLimit c with
  | none => return .empty
  | some l =>
    let cycle ← currentCycle l (← Task.clock)
    let remaining := max (← Task.sound cycle.available) 0
    let renewsAt := cycle.finish.map (·.secs)
    if l.currency.isSat then
      return ⟨some (BudgetView.msats l.amount), some (BudgetView.msats remaining), renewsAt, none⟩
    match ← Task.convert ⟨l.currency, l.amount, .sat⟩ with
    | .error e => Task.refuse (.conversion e)
    | .ok sats =>
      match BudgetView.share? sats remaining l.amount with
      | none => Task.refuse (.conversion (BudgetView.shareFault sats))
      | some remainingSats =>
        return ⟨some (BudgetView.msats sats), some (BudgetView.msats remainingSats), renewsAt,
          some ⟨l.currency.code, l.currency.symbol, l.currency.name, l.currency.decimals, l.amount,
            remaining⟩⟩

end Service

end WalletBudget
