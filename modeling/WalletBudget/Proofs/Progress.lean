import WalletBudget.Service.CurrentCycle

/-!
Tasks of a service whose store is always reached, step by step: what each question to the store
answers, and how a task goes on behind it.

`Progress.Goes` follows a task over every answer of its peers. At each question it hands out the
service as its stretch of work left it; it may rely on what the others keep until the answer comes.
-/

namespace WalletBudget

variable {α β : Type}

namespace Service

def issue (s : Service) : Service := { s with issued := s.issued + 1 }

def write (s : Service) (store : Store) : Service := { s with store }

def tick (s : Service) (now : Reading) : Service := { s with toReading := now }

def next (s : Service) : Uuid := s.ids s.issued

@[simp] theorem issue_store (s : Service) : s.issue.store = s.store := rfl

@[simp] theorem issue_clock (s : Service) : s.issue.clock = s.clock := rfl

@[simp] theorem issue_outages (s : Service) : s.issue.outages = s.outages := rfl

@[simp] theorem issue_ids (s : Service) : s.issue.ids = s.ids := rfl

@[simp] theorem issue_issued (s : Service) : s.issue.issued = s.issued + 1 := rfl

@[simp] theorem write_store (s : Service) (t : Store) : (s.write t).store = t := rfl

@[simp] theorem write_clock (s : Service) (t : Store) : (s.write t).clock = s.clock := rfl

@[simp] theorem write_outages (s : Service) (t : Store) : (s.write t).outages = s.outages := rfl

@[simp] theorem write_ids (s : Service) (t : Store) : (s.write t).ids = s.ids := rfl

@[simp] theorem write_issued (s : Service) (t : Store) : (s.write t).issued = s.issued := rfl

@[simp] theorem write_same (s : Service) : s.write s.store = s := rfl

end Service

namespace Progress

@[simp] theorem bind_ok (f : α → Service → Progress β) (a : α) (s : Service) :
    (Progress.done (.ok a) s).bind f = f a s := rfl

@[simp] theorem bind_error (f : α → Service → Progress β) (e : Abort) (s : Service) :
    (Progress.done (.error e) s).bind f = .done (.error e) s := rfl

theorem bind_assoc {γ : Type} (p : Progress α) (f : α → Service → Progress β)
    (g : β → Service → Progress γ) : (p.bind f).bind g = p.bind fun a s => (f a s).bind g := by
  induction p with
  | done r s => cases r <;> rfl
  | convert q s resume ih => simp only [Progress.bind, ih]
  | execute q s resume ih => simp only [Progress.bind, ih]

end Progress

namespace Task

variable {s : Service}

@[simp] theorem pure_run (a : α) (s : Service) : (pure a : Task α) s = .done (.ok a) s := rfl

@[simp] theorem bind_run (t : Task α) (f : α → Task β) (s : Service) :
    (t >>= f) s = (t s).bind (fun a s => f a s) := rfl

@[simp] theorem refuse_run (e : BudgetError) (s : Service) :
    (refuse e : Task α) s = .done (.error (.refused e)) s := rfl

@[simp] theorem found_some (e : BudgetError) (a : α) (s : Service) :
    found e (some a) s = .done (.ok a) s := rfl

@[simp] theorem found_none (e : BudgetError) (s : Service) :
    (found e none : Task α) s = .done (.error (.refused e)) s := rfl

@[simp] theorem valid_ok (a : α) (s : Service) : valid (.ok a) s = .done (.ok a) s := rfl

@[simp] theorem valid_error (e : ValidationError) (s : Service) :
    (valid (.error e) : Task α) s = .done (.error (.refused (.validation e))) s := rfl

@[simp] theorem sound_ok (a : α) (s : Service) : sound (.ok a) s = .done (.ok a) s := rfl

@[simp] theorem sound_error (d : Defect) (s : Service) :
    (sound (.error d) : Task α) s = .done (.error (.broken d)) s := rfl

@[simp] theorem clock_run (s : Service) : clock s = .done (.ok s.clock) s := rfl

@[simp] theorem scan_run (s : Service) : scan s = .done (.ok s.scan) s := rfl

@[simp] theorem newId_run (kind : Kind) (s : Service) :
    newId kind s = .done (.ok ⟨s.next⟩) s.issue := rfl

/-- A store that is always reached answers each call from its tables. -/
theorem call_quiet (quiet : s.outages = []) (m : StoreMethod) (absent : α)
    (run : Store → Except StoreError (α × Store)) :
    call m absent run s =
      match run s.store with
      | .error e => .done (.ok (.error e)) s
      | .ok (a, store) => .done (.ok (.ok a)) (s.write store) := by
  obtain ⟨reading, store, ids, issued, scan, outages⟩ := s
  cases quiet
  rfl

theorem ask_quiet (quiet : s.outages = []) (m : StoreMethod) (absent : α) (run : Store → α) :
    ask m absent run s = .done (.ok (run s.store)) s := by
  simp only [ask, stored, bind_run, call_quiet quiet]
  rfl

theorem tell_quiet (quiet : s.outages = []) (m : StoreMethod)
    (run : Store → Except StoreError Store) :
    tell m run s =
      match run s.store with
      | .error e => .done (.error (.refused (.store e))) s
      | .ok store => .done (.ok ()) (s.write store) := by
  simp only [tell, stored, bind_run, call_quiet quiet]
  cases run s.store <;> rfl

theorem locked_quiet (quiet : s.outages = []) (id : CycleId) :
    locked id s =
      match s.store.lockCycle id with
      | .error e => .done (.error (.refused (.store e))) s
      | .ok c => .done (.ok c) s := by
  simp only [locked, stored, lock, bind_run, call_quiet quiet]
  cases s.store.lockCycle id <;> rfl

end Task

namespace Progress

/-- The service as the last stretch of work left it. -/
def service : Progress α → Service
  | .done _ s => s
  | .convert _ s _ => s
  | .execute _ s _ => s

def asks : Progress α → Bool
  | .done _ _ => false
  | .convert _ _ _ => true
  | .execute _ _ _ => true

/-- Whatever the peers answer, each stretch of work ends in a way that `post` allows, and leaves
what `hands` allows at a question. `hands` and `post` know the service that the stretch began with.
Between a question and its answer the service changes as `rely` allows. -/
def Goes (hands rely : Service → Service → Prop)
    (post : Service → Except Abort α → Service → Prop) : Service → Progress α → Prop
  | began, .done r s => post began r s
  | began, .convert _ s resume =>
    hands began s ∧ ∀ answer t, rely s t → (resume answer t).Goes hands rely post t
  | began, .execute _ s resume =>
    hands began s ∧ ∀ answer t, rely s t → (resume answer t).Goes hands rely post t

/-- A task that waits is ready for any answer that `rely` allows from now on. -/
def Ready (hands rely : Service → Service → Prop)
    (post : Service → Except Abort α → Service → Prop) (now : Service) : Progress α → Prop
  | .done _ _ => True
  | .convert _ _ resume =>
    ∀ answer t, rely now t → (resume answer t).Goes hands rely post t
  | .execute _ _ resume =>
    ∀ answer t, rely now t → (resume answer t).Goes hands rely post t

variable {hands rely : Service → Service → Prop} {began : Service}

theorem Ready.imp {post : Service → Except Abort α → Service → Prop} {p : Progress α}
    {s t : Service} (h : p.Ready hands rely post s) (himp : ∀ u, rely t u → rely s u) :
    p.Ready hands rely post t := by
  cases p with
  | done r u => trivial
  | convert q u resume => exact fun answer v hv => h answer v (himp v hv)
  | execute q u resume => exact fun answer v hv => h answer v (himp v hv)

theorem Goes.bind {post : Service → Except Abort β → Service → Prop} {p : Progress α}
    {f : α → Service → Progress β}
    (h : p.Goes hands rely (fun began r s => match r with
      | .ok a => (f a s).Goes hands rely post began
      | .error e => post began (.error e) s) began) :
    (p.bind f).Goes hands rely post began := by
  induction p generalizing began with
  | done r s =>
    cases r with
    | ok a => exact h
    | error e => exact h
  | convert q s resume ih => exact ⟨h.1, fun answer t ht => ih answer t (h.2 answer t ht)⟩
  | execute q s resume ih => exact ⟨h.1, fun answer t ht => ih answer t (h.2 answer t ht)⟩

theorem Goes.weaken {hands' : Service → Service → Prop}
    {post : Service → Except Abort α → Service → Prop} {p : Progress α}
    (h : p.Goes hands rely post began) (hhands : ∀ began s, hands began s → hands' began s) :
    p.Goes hands' rely post began := by
  induction p generalizing began with
  | done r s => exact h
  | convert q s resume ih =>
    exact ⟨hhands _ _ h.1, fun answer t ht => ih answer t (h.2 answer t ht)⟩
  | execute q s resume ih =>
    exact ⟨hhands _ _ h.1, fun answer t ht => ih answer t (h.2 answer t ht)⟩

theorem Goes.imp {post post' : Service → Except Abort α → Service → Prop} {p : Progress α}
    (h : p.Goes hands rely post began)
    (himp : ∀ began r s, post began r s → post' began r s) :
    p.Goes hands rely post' began := by
  induction p generalizing began with
  | done r s => exact himp _ _ _ h
  | convert q s resume ih => exact ⟨h.1, fun answer t ht => ih answer t (h.2 answer t ht)⟩
  | execute q s resume ih => exact ⟨h.1, fun answer t ht => ih answer t (h.2 answer t ht)⟩

/-- What an answer is turned into does not matter where the answer does not. -/
theorem Goes.map {post : Service → Service → Prop} {p : Progress α} {f : α → β}
    (h : p.Goes hands rely (fun began _ t => post began t) began) :
    (p.bind fun a t => .done (.ok (f a)) t).Goes hands rely (fun began _ t => post began t)
      began := by
  refine .bind (h.imp fun b r t hr => ?_)
  cases r <;> exact hr

/-- A task that has come to a question is ready for its answer. -/
theorem Goes.ready {post : Service → Except Abort α → Service → Prop} {p : Progress α}
    (h : p.Goes hands rely post began) : p.Ready hands rely post p.service := by
  cases p with
  | done r s => trivial
  | convert q s resume => exact h.2
  | execute q s resume => exact h.2

end Progress

end WalletBudget
