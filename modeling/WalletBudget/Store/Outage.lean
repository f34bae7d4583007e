import WalletBudget.Error

/-!
Outages of the store: which of its calls are to fail, for a store that may be unreachable.

An outage names a method of the store, lets some calls pass, and then makes some calls fail with an
error or, without one, answer that nothing was found.
-/

namespace WalletBudget

inductive StoreMethod where
  | connection
  | saveConnection
  | insertLimit
  | updateLimit
  | limit
  | limitsOfConnection
  | latestCycle
  | cycleStartingAt
  | cycle
  | insertCycle
  | lockCycle
  | lockedPayment
  | commit
  | insertPayment
  | payment
  | completeUnbudgeted
  | paymentsOfConnection
  deriving DecidableEq, Repr

structure Outage where
  method : StoreMethod
  skip : Nat
  times : Nat
  error : Option StoreError
  deriving DecidableEq, Repr

namespace Outage

/-- How a call of a method fails, if it does, and the outages left. Of several outages of a method
the first that has not run out counts. -/
def strike (m : StoreMethod) : List Outage → Option (Option StoreError) × List Outage
  | [] => (none, [])
  | o :: rest =>
    if o.method = m ∧ 0 < o.times then
      if 0 < o.skip then (none, { o with skip := o.skip - 1 } :: rest)
      else (some o.error, { o with times := o.times - 1 } :: rest)
    else
      let (failure, rest) := strike m rest
      (failure, o :: rest)

end Outage

end WalletBudget
