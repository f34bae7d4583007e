import WalletBudget.Service.CurrentCycle

/-!
Setting up connections and changing their spending limits.

A change of the frequency or the currency replaces the limit and starts a fresh cycle. A change of
the amount alone rewrites the limit and its current cycle in place.
-/

namespace WalletBudget

/-- The wanted state of a connection's limit. -/
structure LimitUpdate where
  enabled : Bool
  amount : Option Int
  currency : Option Currency
  frequency : Option Frequency
  deriving DecidableEq

namespace LimitUpdate

def enable (b : Budget) : LimitUpdate := ⟨true, some b.amount, some b.currency, some b.frequency⟩

def disable : LimitUpdate := ⟨false, none, none, none⟩

/-- An enabled limit needs a positive amount. -/
def wantedAmount (u : LimitUpdate) : Except ValidationError Int := do
  match u.amount with
  | none => throw .limitAmountMissing
  | some amount =>
    checkLimitAmount amount
    return amount

end LimitUpdate

inductive LimitChange where
  | unchanged
  | created (limit : Limit)
  | replaced (previous current : Limit)
  | amountChanged (limit : Limit)
  | disabled (previous : Option Limit)
  deriving DecidableEq

namespace LimitChange

def name : LimitChange → String
  | .unchanged => "unchanged"
  | .created _ => "created"
  | .replaced _ _ => "replaced"
  | .amountChanged _ => "amount_changed"
  | .disabled _ => "disabled"

/-- The limit a change sets up or alters. -/
def limit : LimitChange → Option Limit
  | .created l => some l
  | .replaced _ current => some current
  | .amountChanged l => some l
  | .unchanged => none
  | .disabled _ => none

/-- The limit a change ends. -/
def previous : LimitChange → Option Limit
  | .replaced previous _ => some previous
  | .disabled previous => previous
  | _ => none

/-- The limit that is active after a change, as far as the change tells. -/
def activeLimit (c : LimitChange) : Option Limit := c.limit

end LimitChange

namespace Service

/-- Rewrites the latest cycle of a limit if it has not ended. -/
def rewriteLiveCycle (limit : LimitId) (now : Instant) (change : Cycle → Cycle) : Task Unit := do
  match ← Task.ask .latestCycle none (·.latestCycle? limit) with
  | none => return ()
  | some latest =>
    if latest.hasEnded now then return ()
    let locked ← Task.locked latest.id
    Task.tell .commit (fun s => .ok (s.commit (change locked) none))

/-- Writes a new limit and its first cycle, and points the connection to it. -/
def startLimit (c : Connection) (currency : Currency) (amount : Int) (frequency : Frequency)
    (now : Instant) : Task Limit := do
  let l ← Task.valid (Limit.create (← Task.newId .limit) c.id currency amount frequency now)
  Task.tell .insertLimit (·.insertLimit l)
  let _ ← currentCycle l now
  Task.tell .saveConnection (fun s => .ok (s.saveConnection { c with limit := some l.id }))
  return l

/-- Deactivates a limit and closes its current cycle. -/
def endLimit (l : Limit) (now : Instant) : Task Limit := do
  let l := l.deactivate now
  Task.tell .updateLimit (·.updateLimit l)
  rewriteLiveCycle l.id now (·.endAt now)
  return l

def disableLimit (c : Connection) (active : Option Limit) (now : Instant) : Task LimitChange := do
  match active with
  | none => return .disabled none
  | some l =>
    let ended ← endLimit l now
    Task.tell .saveConnection (fun s => .ok (s.saveConnection { c with limit := none }))
    return .disabled (some ended)

def changeAmount (l : Limit) (amount : Int) (now : Instant) : Task LimitChange := do
  if l.amount = amount then return .unchanged
  rewriteLiveCycle l.id now (fun c => { c with limitAmount := amount })
  let l := { l with amount }
  Task.tell .updateLimit (·.updateLimit l)
  return .amountChanged l

/-- Without a frequency the limit is not to renew. Without a currency it keeps the active limit's,
or takes the connection's. -/
def enableLimit (c : Connection) (active : Option Limit) (u : LimitUpdate) (now : Instant) :
    Task LimitChange := do
  let amount ← Task.valid u.wantedAmount
  let frequency := u.frequency.getD .never
  match active with
  | none =>
    return .created (← startLimit c (u.currency.getD c.budgetCurrency) amount frequency now)
  | some l =>
    let currency := u.currency.getD l.currency
    if l.frequency = frequency ∧ l.currency.same currency then changeAmount l amount now
    else
      let previous ← endLimit l now
      return .replaced previous (← startLimit c currency amount frequency now)

def updateLimit (id : ConnectionId) (u : LimitUpdate) (now : Instant) : Task LimitChange := do
  let c ← connection id
  let active ← activeLimit c
  if u.enabled then enableLimit c active u now else disableLimit c active now

/-- Writes a new connection, with a limit if the update asks for one. -/
def createConnection (currency : Currency) (token : Option String) (limit : Option LimitUpdate)
    (now : Instant) : Task Connection := do
  let c := Connection.create (← Task.newId .connection) currency token now
  Task.tell .saveConnection (fun s => .ok (s.saveConnection c))
  match limit with
  | some u =>
    if u.enabled then
      let _ ← updateLimit c.id u now
      connection c.id
    else return c
  | none => return c

end Service

end WalletBudget
