import WalletBudget.Budget
import WalletBudget.Cycle

/-!
Spending limits: how much a connection may spend in each period.

Periods are counted from the start of the limit. A limit is active until it has an end, and a limit
that has one stays as it is.
-/

namespace WalletBudget

structure Limit where
  id : LimitId
  connection : ConnectionId
  currency : Currency
  amount : Int
  frequency : Frequency
  start : Instant
  finish : Option Instant
  deriving DecidableEq

/-- A limit is of a positive amount. -/
def checkLimitAmount (amount : Int) : Except ValidationError Unit :=
  if amount ≤ 0 then .error (.limitAmount amount) else .ok ()

namespace Limit

def create (id : LimitId) (connection : ConnectionId) (currency : Currency) (amount : Int)
    (frequency : Frequency) (start : Instant) : Except ValidationError Limit := do
  checkLimitAmount amount
  return ⟨id, connection, currency, amount, frequency, start, none⟩

def ofBudget (id : LimitId) (connection : ConnectionId) (budget : Budget) (start : Instant) :
    Except ValidationError Limit :=
  create id connection budget.currency budget.amount budget.frequency start

def budget (l : Limit) : Budget := ⟨l.amount, l.currency, l.frequency⟩

def isActive (l : Limit) : Bool := l.finish.isNone

/-- The limit ends at an instant, but not before it starts. Its cycles are not touched. -/
def deactivate (l : Limit) (time : Instant) : Limit :=
  if l.isActive then { l with finish := some (time.later l.start) } else l

/-- Start of the period an instant lies in. Before the limit starts this is its first period, and a
limit that never renews has no other. -/
def periodStart (l : Limit) (now : Instant) : Except Defect Instant :=
  match l.frequency.period? with
  | some period =>
    if l.start < now then
      let periods := (Instant.wholeSeconds (now.since l.start)).tdiv period
      orDefect .instantRange (l.start.add? (Instant.seconds (periods * period)))
    else .ok l.start
  | none => .ok l.start

/-- End of the period an instant lies in. -/
def periodEnd (l : Limit) (now : Instant) : Except Defect (Option Instant) :=
  match l.frequency.period? with
  | some period => do
    let start ← l.periodStart now
    some <$> orDefect .instantRange (start.add? (Instant.seconds period))
  | none => .ok none

/-- An instant a whole number of periods after the start of the limit, to the nanosecond. -/
def isBoundary (l : Limit) (period : Int) (time : Instant) : Bool :=
  let offset := time.since l.start
  offset = Instant.seconds (Instant.wholeSeconds offset)
    && (Instant.wholeSeconds offset).tmod period = 0

/-- The empty cycle that starts at the start of a period. -/
def createCycle (l : Limit) (id : CycleId) (start : Instant) : Except Defect Cycle := do
  if start < l.start then throw (.cycleBeforeLimit start l.id l.start)
  let finish ← match l.frequency.period? with
    | some period =>
      if l.isBoundary period start then
        some <$> orDefect .instantRange (start.add? (Instant.seconds period))
      else throw (.cycleOffPeriod start l.id l.frequency l.start)
    | none => .ok none
  return .fresh id l.id l.currency l.amount start finish

end Limit

end WalletBudget
