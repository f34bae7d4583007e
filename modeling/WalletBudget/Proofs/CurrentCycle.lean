import WalletBudget.Proofs.Write

/-!
Finding a connection, the limit it leads to, and the cycle of a limit, in a store that is always
reached.
-/

namespace WalletBudget

/-- The limit that a record of a connection leads to, if that is active. -/
def Store.activeLimit? (s : Store) (k : Connection) : Option Limit :=
  (k.limit.bind s.limit?).filter Limit.isActive

/-- The active limit that the stored record of a connection leads to. -/
def Store.limitOf? (s : Store) (id : ConnectionId) : Option Limit :=
  (s.connection? id).bind s.activeLimit?

theorem Store.limitOf?_stored {s : Store} {id : ConnectionId} {k : Connection}
    (h : s.connection? id = some k) : s.limitOf? id = s.activeLimit? k := by
  simp [limitOf?, h]

theorem Store.activeLimit?_some {s : Store} {k : Connection} {l : Limit} :
    s.activeLimit? k = some l ↔
      ∃ id, k.limit = some id ∧ s.limit? id = some l ∧ l.isActive = true := by
  simp only [activeLimit?, Option.filter_eq_some_iff, Option.bind_eq_some_iff]
  grind

theorem Store.activeLimit?_stored {s : Store} {k : Connection} {l : Limit}
    (h : s.activeLimit? k = some l) :
    k.limit = some l.id ∧ s.limit? l.id = some l ∧ l.isActive = true := by
  obtain ⟨id, hp, hl, ha⟩ := activeLimit?_some.mp h
  obtain rfl : l.id = id := limit?_id hl
  exact ⟨hp, hl, ha⟩

theorem Store.activeLimit?_none {s : Store} {k : Connection} (h : s.activeLimit? k = none)
    {id : LimitId} {l : Limit} (hk : k.limit = some id) (hl : s.limit? id = some l) :
    l.isActive = false := by
  cases ha : l.isActive with
  | false => rfl
  | true => rw [activeLimit?_some.mpr ⟨id, hk, hl, ha⟩] at h; cases h

namespace Service

variable {now : Instant} {s t : Service} {l : Limit}

theorem connection_run (hq : s.outages = []) (id : ConnectionId) :
    connection id s =
      match s.store.connection? id with
      | some k => .done (.ok k) s
      | none => .done (.error (.refused (.connectionNotFound id))) s := by
  simp only [connection, Task.bind_run, Task.ask_quiet hq, Progress.bind_ok]
  cases s.store.connection? id <;> rfl

/-- The limit a record leads to is found, or the record leads to none that is stored. -/
theorem activeLimit_run (hq : s.outages = []) (k : Connection) :
    activeLimit k s = .done (.ok (s.store.activeLimit? k)) s ∨
    ∃ id, k.limit = some id ∧ s.store.limit? id = none ∧
      activeLimit k s = .done (.error (.refused (.limitNotFound id))) s := by
  simp only [activeLimit, Store.activeLimit?]
  cases hk : k.limit with
  | none => exact .inl rfl
  | some id =>
    simp only [Task.bind_run, Task.ask_quiet hq, Progress.bind_ok]
    cases hl : s.store.limit? id with
    | none => exact .inr ⟨id, rfl, hl, rfl⟩
    | some l =>
      left
      cases ha : l.isActive <;> simp [hl, ha, Option.filter]

/-- A record that points to a stored limit, or to none, leads to an answer. -/
theorem activeLimit_stored (hq : s.outages = []) {k : Connection}
    (hk : ∀ id, k.limit = some id → ∃ l, s.store.limit? id = some l) :
    activeLimit k s = .done (.ok (s.store.activeLimit? k)) s := by
  rcases activeLimit_run hq k with hactive | ⟨id, hp, hmissing, -⟩
  · exact hactive
  · obtain ⟨l, hl⟩ := hk id hp
    rw [hmissing] at hl
    cases hl

/-- What the search for the cycle of a limit comes to. -/
inductive Found (l : Limit) (now : Instant) (s : Service) : Except Abort Cycle → Service → Prop
  | latest (c : Cycle) (hc : s.store.latestCycle? l.id = some c) (hlive : c.hasEnded now = false) :
    Found l now s (.ok c) s
  | opened (c : Cycle) (start : Instant)
      (hidle : ∀ d, s.store.latestCycle? l.id = some d → d.hasEnded now = true)
      (hstart : l.periodStart now = .ok start) (hc : l.createCycle ⟨s.next⟩ start = .ok c)
      (hfree : s.store.startOf? l.id start = none) :
    Found l now s (.ok c) (s.issue.write ((s.store.indexCycle c).fileCycle c))
  | taken (c : Cycle) (start : Instant) (x : CycleStart)
      (hidle : ∀ d, s.store.latestCycle? l.id = some d → d.hasEnded now = true)
      (hstart : l.periodStart now = .ok start) (hx : s.store.startOf? l.id start = some x)
      (hc : s.store.cycle? x.cycle = some c) : Found l now s (.ok c) s.issue
  | lost (start : Instant) (x : CycleStart) (hx : s.store.startOf? l.id start = some x)
      (hc : s.store.cycle? x.cycle = none) (e : StoreError) :
    Found l now s (.error (.refused (.store e))) s.issue
  | noPeriod (d : Defect) (hstart : l.periodStart now = .error d) :
    Found l now s (.error (.broken d)) s
  | noCycle (d : Defect) (start : Instant) (hstart : l.periodStart now = .ok start)
      (hc : l.createCycle ⟨s.next⟩ start = .error d) : Found l now s (.error (.broken d)) s.issue

theorem openCycle_found (hq : s.outages = []) {start : Instant}
    (hidle : ∀ d, s.store.latestCycle? l.id = some d → d.hasEnded now = true)
    (hstart : l.periodStart now = .ok start) :
    ∃ r t, openCycle l start s = .done r t ∧ Found l now s r t := by
  have hq' : s.issue.outages = [] := hq
  simp only [openCycle, Task.bind_run, Task.newId_run, Progress.bind_ok]
  cases hc : l.createCycle ⟨s.next⟩ start with
  | error d => exact ⟨_, _, rfl, .noCycle d start hstart hc⟩
  | ok c =>
    obtain ⟨finish, hfresh⟩ := createCycle_fresh hc
    have hlimit : c.limit = l.id := by rw [hfresh]; rfl
    have hbegin : c.start = start := by rw [hfresh]; rfl
    simp only [Task.sound_ok, Progress.bind_ok, Task.call_quiet hq', Store.insertCycle_eq,
      issue_store, hlimit, hbegin]
    obtain hx | ⟨x, hx⟩ := Option.eq_none_or_eq_some (s.store.startOf? l.id start)
    · simp only [hx]
      exact ⟨_, _, rfl, .opened c start hidle hstart hc hx⟩
    · have hstarting : s.store.cycleStartingAt? l.id start = s.store.cycle? x.cycle := by
        simp only [Store.startOf?] at hx
        simp [Store.cycleStartingAt?, hx]
      simp only [hx, Option.isSome_some, if_true, Functor.map, Except.map, Progress.bind_ok,
        Task.bind_run, Task.ask_quiet hq', issue_store, hstarting]
      cases hd : s.store.cycle? x.cycle with
      | none => exact ⟨_, _, rfl, .lost start x hx hd _⟩
      | some d => exact ⟨_, _, rfl, .taken d start x hidle hstart hx hd⟩

/-- A store that is always reached finds a cycle, or the operation stops at a defect. -/
theorem currentCycle_found (hq : s.outages = []) (l : Limit) (now : Instant) :
    ∃ r t, currentCycle l now s = .done r t ∧ Found l now s r t := by
  simp only [currentCycle, Task.bind_run, Task.ask_quiet hq, Progress.bind_ok]
  have hopen : (∀ d, s.store.latestCycle? l.id = some d → d.hasEnded now = true) →
      ∃ r t, (Task.sound (l.periodStart now) s).bind (fun start => openCycle l start) = .done r t ∧
        Found l now s r t := by
    intro hidle
    cases hstart : l.periodStart now with
    | error d => exact ⟨_, _, rfl, .noPeriod d hstart⟩
    | ok start => exact openCycle_found hq hidle hstart
  cases hlatest : s.store.latestCycle? l.id with
  | none => exact hopen (by simp [hlatest])
  | some c =>
    cases hended : c.hasEnded now with
    | true =>
      simp only [hended, if_true]
      exact hopen (by simp [hlatest, hended])
    | false =>
      simp only [hended, Bool.false_eq_true, if_false]
      exact ⟨_, _, rfl, .latest c hlatest hended⟩

theorem orDefect_error {α : Type} {a : Option α} {d e : Defect} (h : orDefect d a = .error e) :
    e = d := by
  cases a with
  | none => exact (Except.error.inj h).symm
  | some a => cases h

theorem periodStart_error {d : Defect} (h : l.periodStart now = .error d) : d = .instantRange := by
  simp only [Limit.periodStart] at h
  split at h
  · split at h
    · exact orDefect_error h
    · cases h
  · cases h

theorem createCycle_not_amountRange (l : Limit) (id : CycleId) (start : Instant) :
    l.createCycle id start ≠ .error .amountRange := by
  unfold Limit.createCycle
  by_cases hearly : start < l.start
  · simp [hearly, bind, Except.bind, throw, throwThe, MonadExceptOf.throw]
  · cases l.frequency.period? with
    | none => simp [hearly, bind, Except.bind, pure, Except.pure]
    | some period =>
      by_cases haligned : l.isBoundary period start = true
      · cases hfinish : start.add? (Instant.seconds period) <;>
          simp [hearly, haligned, hfinish, orDefect, bind, Except.bind, pure, Except.pure]
      · simp [hearly, haligned, bind, Except.bind, throw, throwThe, MonadExceptOf.throw]

/-- A search does not meet with amounts. -/
theorem Found.not_amountRange {r : Except Abort Cycle} (h : Found l now s r t) :
    r ≠ .error (.broken .amountRange) := by
  cases h with
  | noPeriod d hstart => simp [periodStart_error hstart]
  | noCycle d start _ hc =>
    rintro he
    cases he
    exact createCycle_not_amountRange l _ start hc
  | _ => simp

theorem Found.issued {r : Except Abort Cycle} (h : Found l now s r t) :
    t.ids = s.ids ∧ s.issued ≤ t.issued := by
  cases h <;> simp

end Service

end WalletBudget
