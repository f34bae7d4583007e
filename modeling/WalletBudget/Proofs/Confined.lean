import WalletBudget.Proofs.Ownership

/-!
Tasks that see and change the rows of one connection only.

Such a task is run beside a mirror of its service that has nothing but those rows, and in which the
same identifiers are to come: it answers the same there, and leaves a mirror behind. The parts of a
task are taken one after another, each from where the one before it ended.
-/

namespace WalletBudget

variable {α β : Type}

/-- Peers whose answers depend on their questions alone. -/
structure Peers where
  converter : Conversion → Except PeerError Int
  executor : Execution → Except PeerError PaymentOutcome

/-- Runs a task to its end, with nothing else going on. -/
def Task.exec (peers : Peers) (t : Task α) (s : Service) : Except Abort α × Service :=
  (t s).runWith peers.converter peers.executor

namespace Service

variable {peers : Peers} {owner : ConnectionId} {n m : Nat} {s t u s' : Service}

/-- No identifier that was issued or that is among the next ones is issued twice. -/
def Fresh (n : Nat) (s : Service) : Prop :=
  ∀ i < s.issued + n, ∀ j < s.issued + n, s.ids i = s.ids j → i = j

theorem Fresh.fewer (h : Fresh m s) (hle : n ≤ m) : Fresh n s :=
  fun i hi j hj => h i (by omega) j (by omega)

theorem LocalTo.fresh (h : LocalTo owner n s u) (hs : Fresh (n + m) s) : Fresh m u := by
  have hissued := h.issued.2
  intro i hi j hj he
  rw [h.ids] at he
  exact hs i (by omega) j (by omega) he

theorem Fresh.next (h : Fresh (n + 1) s) : ¬ s.Issued s.next := by
  rintro ⟨i, hi, he⟩
  have heq : i = s.issued := h i (by omega) s.issued (by omega) he
  omega

/-- A service that has only the rows of one connection, and the same identifiers to come. -/
structure Mirrors (owner : ConnectionId) (s s' : Service) : Prop where
  store : s'.store = s.store.share owner
  clock : s'.clock = s.clock
  quiet : s'.outages = []
  upcoming : ∀ i, s'.ids (s'.issued + i) = s.ids (s.issued + i)

theorem Mirrors.write {store : Store} (h : Mirrors owner s s') :
    Mirrors owner (s.write store) (s'.write (store.share owner)) :=
  { h with store := rfl }

theorem Mirrors.issue (h : Mirrors owner s s') : Mirrors owner s.issue s'.issue :=
  { h with
    upcoming := fun i => by
      have hnext := h.upcoming (1 + i)
      simpa only [issue_ids, issue_issued, Nat.add_assoc] using hnext }

theorem Mirrors.next (h : Mirrors owner s s') : s'.next = s.next := h.upcoming 0

end Service

open Service

variable {peers : Peers} {owner : ConnectionId} {n m : Nat} {s u : Service}
  {t : Task α} {post : α → Service → Prop}

/-- A task from a service on: it answers the same in every mirror of the service, and it keeps
within the rows of the connection. -/
structure Confines (peers : Peers) (owner : ConnectionId) (n : Nat) (t : Task α) (s : Service)
    (post : α → Service → Prop) : Prop where
  mirrored : ∀ s', Mirrors owner s s' → (t.exec peers s').1 = (t.exec peers s).1 ∧
    Mirrors owner (t.exec peers s).2 (t.exec peers s').2
  within : LocalTo owner n s (t.exec peers s).2
  post : ∀ a, (t.exec peers s).1 = .ok a → post a (t.exec peers s).2

def Confined (peers : Peers) (owner : ConnectionId) (n : Nat) (t : Task α) (s : Service)
    (post : α → Service → Prop) : Prop :=
  Owned s → Fresh n s → Confines peers owner n t s post

theorem Task.exec_bind (peers : Peers) (t : Task α) (f : α → Task β) (s : Service) :
    (t >>= f).exec peers s = match t.exec peers s with
      | (.ok a, u) => (f a).exec peers u
      | (.error e, u) => (.error e, u) := by
  simp only [Task.exec, Task.bind_run]
  induction t s with
  | done r u => cases r <;> rfl
  | convert q u resume ih => exact ih _ u
  | execute q u resume ih => exact ih _ u

/-- A task that is done at once. -/
theorem Confines.of_done {r : Except Abort α} (h : t s = .done r u)
    (hmirror : ∀ s', Mirrors owner s s' → ∃ u', t s' = .done r u' ∧ Mirrors owner u u')
    (hlocal : LocalTo owner n s u) (hpost : ∀ a, r = .ok a → post a u) :
    Confines peers owner n t s post := by
  have hexec : ∀ {v w}, t v = .done r w → t.exec peers v = (r, w) := by
    intro v w hrun
    simp only [Task.exec, hrun, Progress.runWith]
  refine ⟨fun s' hs' => ?_, by rwa [hexec h], by rwa [hexec h]⟩
  obtain ⟨u', hrun, hu'⟩ := hmirror s' hs'
  rw [hexec h, hexec hrun]
  exact ⟨rfl, hu'⟩

namespace Confined

theorem bind {f : α → Task β} {mid : α → Service → Prop} {post : β → Service → Prop}
    (ht : Confined peers owner n t s mid)
    (hf : ∀ a u, LocalTo owner n s u → mid a u → Confined peers owner m (f a) u post) :
    Confined peers owner (n + m) (t >>= f) s post := by
  intro hs hfresh
  obtain ⟨hmirrored, hlocal, hmid⟩ := ht hs (hfresh.fewer (Nat.le_add_right n m))
  rcases hrun : t.exec peers s with ⟨r, u⟩
  rw [hrun] at hmirrored hlocal hmid
  have hbind := Task.exec_bind peers t f s
  rw [hrun] at hbind
  cases r with
  | error e =>
    refine ⟨fun s' hs' => ?_, by rw [hbind]; exact hlocal.most (Nat.le_add_right n m),
      by simp [hbind]⟩
    obtain ⟨hsame, hu'⟩ := hmirrored s' hs'
    rcases hrun' : t.exec peers s' with ⟨r', u'⟩
    rw [hrun'] at hsame hu'
    obtain rfl : r' = .error e := hsame
    rw [Task.exec_bind, hrun', hbind]
    exact ⟨rfl, hu'⟩
  | ok a =>
    obtain ⟨hnext, hlocal', hpost⟩ :=
      hf a u hlocal (hmid a rfl) hlocal.owned (hlocal.fresh hfresh)
    refine ⟨fun s' hs' => ?_, by rw [hbind]; exact hlocal.trans hlocal', by rwa [hbind]⟩
    obtain ⟨hsame, hu'⟩ := hmirrored s' hs'
    rcases hrun' : t.exec peers s' with ⟨r', u'⟩
    rw [hrun'] at hsame hu'
    obtain rfl : r' = .ok a := hsame
    rw [Task.exec_bind, hrun', hbind]
    exact hnext u' hu'

theorem imp {post' : α → Service → Prop} (h : Confined peers owner n t s post)
    (himp : ∀ a u, post a u → post' a u) : Confined peers owner n t s post' := fun hs hfresh =>
  let h := h hs hfresh
  { mirrored := h.mirrored, within := h.within, post := fun a ha => himp a _ (h.post a ha) }

/-- It may take fewer identifiers. -/
theorem most (h : Confined peers owner n t s post) (hle : n ≤ m) :
    Confined peers owner m t s post := fun hs hfresh =>
  let h := h hs (hfresh.fewer hle)
  { h with within := h.within.most hle }

/-- A task that changes nothing and answers a mirror as it answers the service. -/
theorem still {r : Except Abort α} (h : ∀ v, v = s ∨ Mirrors owner s v → t v = .done r v)
    (hpost : ∀ a, r = .ok a → post a s) : Confined peers owner 0 t s post := fun hs _ =>
  .of_done (h s (.inl rfl)) (fun s' hs' => ⟨s', h s' (.inr hs'), hs'⟩) (.refl hs owner) hpost

theorem pure {a : α} (h : post a s) : Confined peers owner 0 (Pure.pure a) s post :=
  .still (fun _ _ => rfl) fun b hb => by rwa [← Except.ok.inj hb]

theorem refuse (e : BudgetError) : Confined peers owner 0 (Task.refuse e) s post :=
  .still (fun _ _ => rfl) (by simp)

theorem found (e : BudgetError) (a : Option α) :
    Confined peers owner 0 (Task.found e a) s fun b u => u = s ∧ a = some b := by
  cases a with
  | none => exact .refuse e
  | some a => exact .pure ⟨rfl, rfl⟩

theorem valid (a : Except ValidationError α) :
    Confined peers owner 0 (Task.valid a) s fun b u => u = s ∧ a = .ok b := by
  cases a with
  | error e => exact .refuse _
  | ok a => exact .pure ⟨rfl, rfl⟩

theorem sound (a : Except Defect α) :
    Confined peers owner 0 (Task.sound a) s fun b u => u = s ∧ a = .ok b := by
  cases a with
  | error d => exact .still (fun _ _ => rfl) (by simp)
  | ok a => exact .pure ⟨rfl, rfl⟩

theorem clock : Confined peers owner 0 Task.clock s fun now u => u = s ∧ now = s.clock := by
  refine .still (r := .ok s.clock) (fun v hv => ?_) fun now he => ⟨rfl, (Except.ok.inj he).symm⟩
  rcases hv with rfl | hv
  · rfl
  · rw [Task.clock_run, hv.clock]

/-- A question to a peer, who is asked the same in a mirror. -/
theorem convert (q : Conversion) :
    Confined peers owner 0 (Task.convert q) s fun _ u => u = s := fun hs _ =>
  { mirrored := fun _ hs' => ⟨rfl, hs'⟩, within := .refl hs owner, post := fun _ _ => rfl }

theorem execute (q : Execution) :
    Confined peers owner 0 (Task.execute q) s fun _ u => u = s := fun hs _ =>
  { mirrored := fun _ hs' => ⟨rfl, hs'⟩, within := .refl hs owner, post := fun _ _ => rfl }

theorem ask (method : StoreMethod) (absent : α) {run : Store → α}
    (h : run (s.store.share owner) = run s.store) :
    Confined peers owner 0 (Task.ask method absent run) s
      fun a u => u = s ∧ a = run s.store := by
  intro hs
  refine still (r := .ok (run s.store)) (fun v hv => ?_)
    (fun a he => ⟨rfl, (Except.ok.inj he).symm⟩) hs
  rcases hv with rfl | hv
  · rw [Task.ask_quiet hs.quiet]
  · rw [Task.ask_quiet hv.quiet, hv.store, h]

/-- A call that writes the same to a mirror. -/
theorem tell (method : StoreMethod) {run : Store → Except StoreError Store} {store : Store}
    (hrun : run s.store = .ok store) (hshare : run (s.store.share owner) = .ok (store.share owner))
    (hlocal : Owned s → LocalTo owner 0 s (s.write store)) :
    Confined peers owner 0 (Task.tell method run) s fun _ u => u = s.write store := by
  refine fun hs _ => .of_done (r := .ok ()) ?_ (fun s' hs' => ?_) (hlocal hs) fun _ _ => rfl
  · simp only [Task.tell_quiet hs.quiet, hrun]
  · refine ⟨_, ?_, hs'.write⟩
    simp only [Task.tell_quiet hs'.quiet, hs'.store, hshare]

theorem call (method : StoreMethod) (absent : α) {a : α} {store : Store}
    {run : Store → Except StoreError (α × Store)} (hrun : run s.store = .ok (a, store))
    (hshare : run (s.store.share owner) = .ok (a, store.share owner))
    (hlocal : Owned s → LocalTo owner 0 s (s.write store)) :
    Confined peers owner 0 (Task.call method absent run) s
      fun r u => r = .ok a ∧ u = s.write store := by
  refine fun hs _ => .of_done (r := .ok (.ok a)) ?_ (fun s' hs' => ?_) (hlocal hs)
    fun r he => ⟨(Except.ok.inj he).symm, rfl⟩
  · simp only [Task.call_quiet hs.quiet, hrun]
  · refine ⟨_, ?_, hs'.write⟩
    simp only [Task.call_quiet hs'.quiet, hs'.store, hshare]

theorem callError (method : StoreMethod) (absent : α) {e : StoreError}
    {run : Store → Except StoreError (α × Store)} (hrun : run s.store = .error e)
    (hshare : run (s.store.share owner) = .error e) :
    Confined peers owner 0 (Task.call method absent run) s
      fun r u => r = .error e ∧ u = s := by
  intro hs
  refine still (r := .ok (.error e)) (fun v hv => ?_)
    (fun r he => ⟨(Except.ok.inj he).symm, rfl⟩) hs
  rcases hv with rfl | hv
  · simp only [Task.call_quiet hs.quiet, hrun]
  · simp only [Task.call_quiet hv.quiet, hv.store, hshare]

theorem stored {t : Task (Except StoreError α)}
    (h : Confined peers owner n t s fun _ _ => True) :
    Confined peers owner n (Task.stored t) s fun _ _ => True := by
  refine h.bind (m := 0) fun r u _ _ => ?_
  cases r with
  | ok a => exact .pure trivial
  | error e => exact .refuse _

theorem locked {cycle : CycleId} (h : s.store.cycleOwner? cycle = some owner) :
    Confined peers owner 0 (Task.locked cycle) s
      fun c u => u = s ∧ s.store.cycle? cycle = some c := by
  intro hs
  obtain ⟨c, hc, howner⟩ := Store.cycleOwner?_some.mp h
  refine still (r := .ok c) (fun v hv => ?_) (fun d he => ⟨rfl, ?_⟩) hs
  · have hcycle : v.store.cycle? cycle = some c := by
      rcases hv with rfl | hv
      · exact hc
      · rw [hv.store, Store.cycle?_share, hc]
        intro d hd
        rwa [← Option.some.inj (hc.symm.trans hd)]
    have hquiet : v.outages = [] := hv.elim (fun he => he ▸ hs.quiet) Mirrors.quiet
    simp only [Task.locked_quiet hquiet, Store.lockCycle, hcycle]
  · rw [hc, Except.ok.inj he]

end Confined

/-- Nothing is stored under an identifier that was issued just now. -/
structure Service.Unused (s : Service) (v : Uuid) : Prop where
  issued : s.Issued v
  limit : s.store.limit? ⟨v⟩ = none
  cycle : s.store.cycle? ⟨v⟩ = none
  payment : s.store.payment? ⟨v⟩ = none

theorem Confined.newId (kind : Kind) : Confined peers owner 1 (Task.newId kind) s
    fun id u => u = s.issue ∧ id = ⟨s.next⟩ ∧ u.Unused id.uuid := by
  intro hs hfresh
  have hnext : ¬ s.Issued s.next := hfresh.next
  refine .of_done (r := .ok ⟨s.next⟩) rfl (fun s' hs' => ?_) (.issue hs) fun id he => ?_
  · exact ⟨s'.issue, by rw [Task.newId_run, hs'.next], hs'.issue⟩
  · obtain rfl := Except.ok.inj he
    refine ⟨rfl, rfl, s.next_issued, ?_, ?_, ?_⟩
    · exact Option.eq_none_iff_forall_not_mem.mpr fun l hl => hnext (hs.limitIssued _ l hl)
    · exact Option.eq_none_iff_forall_not_mem.mpr fun c hc => hnext (hs.cycleIssued _ c hc)
    · exact Option.eq_none_iff_forall_not_mem.mpr fun p hp => hnext (hs.paymentIssued _ p hp)

end WalletBudget
