import WalletBudget.Service.Task

/-! Finding a connection, its active limit, and the cycle of a limit that an instant lies in. -/

namespace WalletBudget.Service

def connection (id : ConnectionId) : Task Connection := do
  let c ← Task.ask .connection none (·.connection? id)
  Task.found (.connectionNotFound id) c

/-- The active limit of a connection as the caller knows it. -/
def activeLimit (c : Connection) : Task (Option Limit) := do
  match c.limit with
  | none => return none
  | some id =>
    let l ← Task.found (.limitNotFound id) (← Task.ask .limit none (·.limit? id))
    return if l.isActive then some l else none

/-- A new cycle of a limit at a start. When another cycle with this start was written first, that
one is the answer. -/
def openCycle (l : Limit) (start : Instant) : Task Cycle := do
  let c ← Task.sound (l.createCycle (← Task.newId .cycle) start)
  match ← Task.call .insertCycle () (fun s => (fun s => ((), s)) <$> s.insertCycle c) with
  | .ok () => return c
  | .error (.uniqueViolation _) =>
    let other ← Task.ask .cycleStartingAt none (·.cycleStartingAt? l.id start)
    Task.found (.store (.notFound (Store.cycleStartName l.id start))) other
  | .error e => Task.refuse (.store e)

/-- The latest cycle of a limit, or a new one when that has ended. -/
def currentCycle (l : Limit) (now : Instant) : Task Cycle := do
  match ← Task.ask .latestCycle none (·.latestCycle? l.id) with
  | some latest =>
    if latest.hasEnded now then openCycle l (← Task.sound (l.periodStart now))
    else return latest
  | none => openCycle l (← Task.sound (l.periodStart now))

end WalletBudget.Service
