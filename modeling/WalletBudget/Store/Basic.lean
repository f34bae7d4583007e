import WalletBudget.Connection
import WalletBudget.Error
import WalletBudget.Limit
import WalletBudget.Store.Table

/-!
The store of connections, limits, cycles and payments: flat tables that refer to each other by
identifier.

A second table finds a cycle by its limit and its start, and keeps a limit from having two cycles
with one start. Lists of a connection come newest first; rows of the same instant stay in the order
in which the tables happened to hand them out.
-/

namespace WalletBudget

/-- Where a cycle is found by its limit and start. -/
structure CycleStart where
  limit : LimitId
  start : Instant
  cycle : CycleId
  deriving DecidableEq

def CycleStart.key (s : CycleStart) : LimitId × Instant := (s.limit, s.start)

structure Store where
  connections : List Connection
  limits : List Limit
  cycles : List Cycle
  cycleStarts : List CycleStart
  payments : List Payment
  deriving DecidableEq

/-- The order in which the tables hand out all their rows. Nothing is promised about it, and another
row may change it throughout. -/
structure Scan where
  limits : List Limit → List Limit
  payments : List Payment → List Payment
  limits_perm : ∀ rows, (limits rows).Perm rows
  payments_perm : ∀ rows, (payments rows).Perm rows

/-- In the order in which the rows were first written. -/
def Scan.written : Scan := ⟨id, id, .refl, .refl⟩

namespace Store

def empty : Store := ⟨[], [], [], [], []⟩

def connection? (s : Store) (id : ConnectionId) : Option Connection :=
  Table.get? Connection.id id s.connections

/-- Writes a connection, new or not. -/
def saveConnection (s : Store) (c : Connection) : Store :=
  { s with connections := Table.put Connection.id c s.connections }

def limit? (s : Store) (id : LimitId) : Option Limit := Table.get? Limit.id id s.limits

/-- How messages name a limit's row. -/
def limitName (id : LimitId) : String := "spending limit " ++ id.text

def insertLimit (s : Store) (l : Limit) : Except StoreError Store :=
  if Table.has Limit.id l.id s.limits then .error (.uniqueViolation (limitName l.id))
  else .ok { s with limits := Table.put Limit.id l s.limits }

def updateLimit (s : Store) (l : Limit) : Except StoreError Store :=
  if Table.has Limit.id l.id s.limits then
    .ok { s with limits := Table.put Limit.id l s.limits }
  else .error (.notFound (limitName l.id))

/-- Every limit of a connection, newest first. -/
def limitsOf (s : Store) (scan : Scan) (id : ConnectionId) : List Limit :=
  ((scan.limits s.limits).filter (fun l => l.connection = id)).mergeSort
    (fun a b => b.start ≤ a.start)

def cycle? (s : Store) (id : CycleId) : Option Cycle := Table.get? Cycle.id id s.cycles

/-- The later of two cycles by start, the second one in a tie. -/
def laterCycle (latest : Option Cycle) (c : Cycle) : Option Cycle :=
  match latest with
  | none => some c
  | some l => if l.start ≤ c.start then some c else some l

/-- The cycle of a limit that starts last. -/
def latestCycle? (s : Store) (limit : LimitId) : Option Cycle :=
  (s.cycles.filter (fun c => c.limit = limit)).foldl laterCycle none

def cycleStartingAt? (s : Store) (limit : LimitId) (start : Instant) : Option Cycle := do
  s.cycle? (← Table.get? CycleStart.key (limit, start) s.cycleStarts).cycle

/-- How messages name the row of a cycle by its limit and start. -/
def cycleStartName (limit : LimitId) (start : Instant) : String :=
  "spending cycle (" ++ limit.text ++ ", " ++ start.text ++ ")"

/-- Writes a new cycle. Only its limit and start are checked, not its identifier. -/
def insertCycle (s : Store) (c : Cycle) : Except StoreError Store :=
  if Table.has CycleStart.key (c.limit, c.start) s.cycleStarts then
    .error (.uniqueViolation (cycleStartName c.limit c.start))
  else .ok { s with
    cycleStarts := Table.put CycleStart.key ⟨c.limit, c.start, c.id⟩ s.cycleStarts
    cycles := Table.put Cycle.id c s.cycles }

/-- A cycle as it stands when it is locked. -/
def lockCycle (s : Store) (id : CycleId) : Except StoreError Cycle :=
  match s.cycle? id with
  | some c => .ok c
  | none => .error (.notFound ("spending cycle " ++ id.text))

/-- Writes a locked cycle back, together with the payment it was locked for, if any. -/
def commit (s : Store) (c : Cycle) (p : Option Payment) : Store :=
  { s with
    cycles := Table.put Cycle.id c s.cycles
    payments := match p with
      | some p => Table.put Payment.id p s.payments
      | none => s.payments }

def payment? (s : Store) (id : PaymentId) : Option Payment := Table.get? Payment.id id s.payments

def paymentName (id : PaymentId) : String := "payment " ++ id.text

def insertPayment (s : Store) (p : Payment) : Except StoreError Store :=
  if Table.has Payment.id p.id s.payments then .error (.uniqueViolation (paymentName p.id))
  else .ok { s with payments := Table.put Payment.id p s.payments }

/-- Writes the final record of a payment without a cycle if the stored one is still pending, and
tells whether it did. -/
def completeUnbudgeted (s : Store) (p : Payment) : Except StoreError (Bool × Store) :=
  match s.payment? p.id with
  | none => .error (.notFound (paymentName p.id))
  | some stored =>
    if stored.status = .pending then
      .ok (true, { s with payments := Table.put Payment.id p s.payments })
    else .ok (false, s)

/-- The newest payments of a connection, at most so many. -/
def paymentsOf (s : Store) (scan : Scan) (id : ConnectionId) (most : Nat) : List Payment :=
  (((scan.payments s.payments).filter (fun p => p.connection = id)).mergeSort
    (fun a b => b.createdAt ≤ a.createdAt)).take most

def cycleCount (s : Store) (limit : LimitId) : Nat :=
  (s.cycles.filter (fun c => c.limit = limit)).length

end Store

end WalletBudget
