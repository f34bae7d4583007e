import WalletBudget.Service.Basic

/-!
Operations of the service as tasks that stop at every question to a peer.

Between the question and its answer the service is free: other operations may run and its clock may
go on. A task that stopped therefore hands out the service with its question, and goes on from the
answer and whatever the service has become. Between two questions a task runs alone.
-/

namespace WalletBudget

/-- How an operation ends without a value: with a refusal that its caller gets, or with a defect. -/
inductive Abort where
  | refused (error : BudgetError)
  | broken (defect : Defect)
  deriving DecidableEq

inductive Progress (α : Type) where
  | done (result : Except Abort α) (service : Service)
  | convert (question : Conversion) (service : Service)
      (resume : Except PeerError Int → Service → Progress α)
  | execute (question : Execution) (service : Service)
      (resume : Except PeerError PaymentOutcome → Service → Progress α)

def Progress.bind {α β : Type} (f : α → Service → Progress β) : Progress α → Progress β
  | .done (.ok a) s => f a s
  | .done (.error e) s => .done (.error e) s
  | .convert q s resume => .convert q s (fun answer s => (resume answer s).bind f)
  | .execute q s resume => .execute q s (fun answer s => (resume answer s).bind f)

/-- What was left to do, when a refusal is to be a value like any other. Defects stay defects. -/
def Progress.attempt {α : Type} : Progress α → Progress (Except BudgetError α)
  | .done (.ok a) s => .done (.ok (.ok a)) s
  | .done (.error (.refused e)) s => .done (.ok (.error e)) s
  | .done (.error (.broken d)) s => .done (.error (.broken d)) s
  | .convert q s resume => .convert q s (fun answer s => (resume answer s).attempt)
  | .execute q s resume => .execute q s (fun answer s => (resume answer s).attempt)

/-- Runs to the end with peers that answer at once. -/
def Progress.runWith {α : Type} (converter : Conversion → Except PeerError Int)
    (executor : Execution → Except PeerError PaymentOutcome) :
    Progress α → Except Abort α × Service
  | .done result s => (result, s)
  | .convert q s resume => (resume (converter q) s).runWith converter executor
  | .execute q s resume => (resume (executor q) s).runWith converter executor

def Task (α : Type) : Type := Service → Progress α

namespace Task

variable {α : Type}

instance : Monad Task where
  pure a := fun s => .done (.ok a) s
  bind t f := fun s => (t s).bind f

/-- The refusal of a task, or its value. -/
def attempt (t : Task α) : Task (Except BudgetError α) := fun s => (t s).attempt

def refuse (e : BudgetError) : Task α := fun s => .done (.error (.refused e)) s

def defect (d : Defect) : Task α := fun s => .done (.error (.broken d)) s

/-- A value whose absence is refused. -/
def found (e : BudgetError) : Option α → Task α
  | some a => pure a
  | none => refuse e

def valid : Except ValidationError α → Task α
  | .ok a => pure a
  | .error e => refuse (.validation e)

def sound : Except Defect α → Task α
  | .ok a => pure a
  | .error d => defect d

def clock : Task Instant := fun s => .done (.ok s.clock) s

def scan : Task Scan := fun s => .done (.ok s.scan) s

def newId (kind : Kind) : Task (Id kind) := fun s =>
  .done (.ok ⟨s.ids s.issued⟩) { s with issued := s.issued + 1 }

def convert (q : Conversion) : Task (Except PeerError Int) := fun s =>
  .convert q s (fun answer s => .done (.ok answer) s)

def execute (q : Execution) : Task (Except PeerError PaymentOutcome) := fun s =>
  .execute q s (fun answer s => .done (.ok answer) s)

/-- A call of the store, with its answer for a call that finds nothing because of an outage. -/
def call (m : StoreMethod) (absent : α) (run : Store → Except StoreError (α × Store)) :
    Task (Except StoreError α) := fun s =>
  match Outage.strike m s.outages with
  | (some (some e), outages) => .done (.ok (.error e)) { s with outages }
  | (some none, outages) => .done (.ok (.ok absent)) { s with outages }
  | (none, outages) =>
    match run s.store with
    | .error e => .done (.ok (.error e)) { s with outages }
    | .ok (a, store) => .done (.ok (.ok a)) { s with outages, store }

/-- The store's answer, where an error of the store is refused. -/
def stored (t : Task (Except StoreError α)) : Task α := do
  match ← t with
  | .ok a => pure a
  | .error e => refuse (.store e)

/-- A call that reads. -/
def ask (m : StoreMethod) (absent : α) (run : Store → α) : Task α :=
  stored (call m absent (fun s => .ok (run s, s)))

/-- A call that writes. -/
def tell (m : StoreMethod) (run : Store → Except StoreError Store) : Task Unit :=
  stored (call m () (fun s => (fun s => ((), s)) <$> run s))

/-- Locks a cycle. There is an error where there is no such cycle. -/
def lock (cycle : CycleId) : Task (Except StoreError (Option Cycle)) :=
  call .lockCycle none (fun s => (fun c => (some c, s)) <$> s.lockCycle cycle)

/-- A cycle that is locked and read again. -/
def locked (cycle : CycleId) : Task Cycle := do
  found (.cycleNotFound cycle) (← stored (lock cycle))

end Task

end WalletBudget
