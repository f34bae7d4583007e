import WalletBudget.Proofs.Instants
import WalletBudget.Proofs.Table
import WalletBudget.Store.Basic

/-!
What the store answers after each of its writes.

Every write of the service is made of five that put one row into one table. The cycle of a limit
that starts last is told apart by its start alone.
-/

namespace WalletBudget.Store

variable {s : Store}

def fileLimit (s : Store) (l : Limit) : Store :=
  { s with limits := Table.put Limit.id l s.limits }

def fileCycle (s : Store) (c : Cycle) : Store :=
  { s with cycles := Table.put Cycle.id c s.cycles }

def indexCycle (s : Store) (c : Cycle) : Store :=
  { s with cycleStarts := Table.put CycleStart.key ⟨c.limit, c.start, c.id⟩ s.cycleStarts }

def filePayment (s : Store) (p : Payment) : Store :=
  { s with payments := Table.put Payment.id p s.payments }

def startOf? (s : Store) (limit : LimitId) (start : Instant) : Option CycleStart :=
  Table.get? CycleStart.key (limit, start) s.cycleStarts

theorem insertLimit_eq (s : Store) (l : Limit) :
    s.insertLimit l = if (s.limit? l.id).isSome then .error (.uniqueViolation (limitName l.id))
      else .ok (s.fileLimit l) := by
  simp only [insertLimit, Table.has_eq_isSome]
  rfl

theorem updateLimit_eq (s : Store) (l : Limit) :
    s.updateLimit l = if (s.limit? l.id).isSome then .ok (s.fileLimit l)
      else .error (.notFound (limitName l.id)) := by
  simp only [updateLimit, Table.has_eq_isSome]
  rfl

theorem insertCycle_eq (s : Store) (c : Cycle) :
    s.insertCycle c =
      if (s.startOf? c.limit c.start).isSome then
        .error (.uniqueViolation (cycleStartName c.limit c.start))
      else .ok ((s.indexCycle c).fileCycle c) := by
  simp only [insertCycle, Table.has_eq_isSome]
  rfl

theorem insertPayment_eq (s : Store) (p : Payment) :
    s.insertPayment p =
      if (s.payment? p.id).isSome then .error (.uniqueViolation (paymentName p.id))
      else .ok (s.filePayment p) := by
  simp only [insertPayment, Table.has_eq_isSome]
  rfl

/-- A connection under a new identifier comes last. -/
theorem saveConnection_new {k : Connection} (h : s.connection? k.id = none) :
    s.saveConnection k = { s with connections := s.connections ++ [k] } := by
  have hput : Table.put Connection.id k s.connections = s.connections ++ [k] := Table.put_new h
  simp only [saveConnection, hput]

theorem fileLimit_new {l : Limit} (h : s.limit? l.id = none) :
    s.fileLimit l = { s with limits := s.limits ++ [l] } := by
  have hput : Table.put Limit.id l s.limits = s.limits ++ [l] := Table.put_new h
  simp only [fileLimit, hput]

/-- A new cycle comes last, and so does its start. -/
theorem openCycle_new {c : Cycle} (h : s.cycle? c.id = none)
    (hfree : s.startOf? c.limit c.start = none) :
    (s.indexCycle c).fileCycle c = { s with
      cycles := s.cycles ++ [c]
      cycleStarts := s.cycleStarts ++ [⟨c.limit, c.start, c.id⟩] } := by
  have hcycles : Table.put Cycle.id c s.cycles = s.cycles ++ [c] := Table.put_new h
  have hstarts : Table.put CycleStart.key ⟨c.limit, c.start, c.id⟩ s.cycleStarts =
      s.cycleStarts ++ [⟨c.limit, c.start, c.id⟩] := Table.put_new hfree
  simp only [indexCycle, fileCycle, hcycles, hstarts]

theorem commit_none (s : Store) (c : Cycle) : s.commit c none = s.fileCycle c := rfl

theorem commit_some (s : Store) (c : Cycle) (p : Payment) :
    s.commit c (some p) = (s.fileCycle c).filePayment p := rfl

@[simp] theorem connection?_saveConnection (k : Connection) (id : ConnectionId) :
    (s.saveConnection k).connection? id = if k.id = id then some k else s.connection? id :=
  Table.get?_put ..

@[simp] theorem limit?_saveConnection (k : Connection) (id : LimitId) :
    (s.saveConnection k).limit? id = s.limit? id := rfl

@[simp] theorem cycle?_saveConnection (k : Connection) (id : CycleId) :
    (s.saveConnection k).cycle? id = s.cycle? id := rfl

@[simp] theorem startOf?_saveConnection (k : Connection) (id : LimitId) (t : Instant) :
    (s.saveConnection k).startOf? id t = s.startOf? id t := rfl

@[simp] theorem payment?_saveConnection (k : Connection) (id : PaymentId) :
    (s.saveConnection k).payment? id = s.payment? id := rfl

@[simp] theorem latestCycle?_saveConnection (k : Connection) (id : LimitId) :
    (s.saveConnection k).latestCycle? id = s.latestCycle? id := rfl

@[simp] theorem connection?_fileLimit (l : Limit) (id : ConnectionId) :
    (s.fileLimit l).connection? id = s.connection? id := rfl

@[simp] theorem limit?_fileLimit (l : Limit) (id : LimitId) :
    (s.fileLimit l).limit? id = if l.id = id then some l else s.limit? id :=
  Table.get?_put ..

@[simp] theorem cycle?_fileLimit (l : Limit) (id : CycleId) :
    (s.fileLimit l).cycle? id = s.cycle? id := rfl

@[simp] theorem startOf?_fileLimit (l : Limit) (id : LimitId) (t : Instant) :
    (s.fileLimit l).startOf? id t = s.startOf? id t := rfl

@[simp] theorem payment?_fileLimit (l : Limit) (id : PaymentId) :
    (s.fileLimit l).payment? id = s.payment? id := rfl

@[simp] theorem latestCycle?_fileLimit (l : Limit) (id : LimitId) :
    (s.fileLimit l).latestCycle? id = s.latestCycle? id := rfl

@[simp] theorem connection?_fileCycle (c : Cycle) (id : ConnectionId) :
    (s.fileCycle c).connection? id = s.connection? id := rfl

@[simp] theorem limit?_fileCycle (c : Cycle) (id : LimitId) :
    (s.fileCycle c).limit? id = s.limit? id := rfl

@[simp] theorem cycle?_fileCycle (c : Cycle) (id : CycleId) :
    (s.fileCycle c).cycle? id = if c.id = id then some c else s.cycle? id :=
  Table.get?_put ..

@[simp] theorem startOf?_fileCycle (c : Cycle) (id : LimitId) (t : Instant) :
    (s.fileCycle c).startOf? id t = s.startOf? id t := rfl

@[simp] theorem payment?_fileCycle (c : Cycle) (id : PaymentId) :
    (s.fileCycle c).payment? id = s.payment? id := rfl

@[simp] theorem connection?_indexCycle (c : Cycle) (id : ConnectionId) :
    (s.indexCycle c).connection? id = s.connection? id := rfl

@[simp] theorem limit?_indexCycle (c : Cycle) (id : LimitId) :
    (s.indexCycle c).limit? id = s.limit? id := rfl

@[simp] theorem cycle?_indexCycle (c : Cycle) (id : CycleId) :
    (s.indexCycle c).cycle? id = s.cycle? id := rfl

@[simp] theorem startOf?_indexCycle (c : Cycle) (id : LimitId) (t : Instant) :
    (s.indexCycle c).startOf? id t =
      if c.limit = id ∧ c.start = t then some ⟨c.limit, c.start, c.id⟩ else s.startOf? id t := by
  refine (Table.get?_put ..).trans ?_
  simp [CycleStart.key, startOf?]

@[simp] theorem payment?_indexCycle (c : Cycle) (id : PaymentId) :
    (s.indexCycle c).payment? id = s.payment? id := rfl

@[simp] theorem connection?_filePayment (p : Payment) (id : ConnectionId) :
    (s.filePayment p).connection? id = s.connection? id := rfl

@[simp] theorem limit?_filePayment (p : Payment) (id : LimitId) :
    (s.filePayment p).limit? id = s.limit? id := rfl

@[simp] theorem cycle?_filePayment (p : Payment) (id : CycleId) :
    (s.filePayment p).cycle? id = s.cycle? id := rfl

@[simp] theorem startOf?_filePayment (p : Payment) (id : LimitId) (t : Instant) :
    (s.filePayment p).startOf? id t = s.startOf? id t := rfl

@[simp] theorem payment?_filePayment (p : Payment) (id : PaymentId) :
    (s.filePayment p).payment? id = if p.id = id then some p else s.payment? id :=
  Table.get?_put ..

@[simp] theorem latestCycle?_filePayment (p : Payment) (id : LimitId) :
    (s.filePayment p).latestCycle? id = s.latestCycle? id := rfl

/-- What holds of every limit holds after a limit of which it holds is written. -/
theorem forall_fileLimit {P : Limit → Prop} {l : Limit} (h : ∀ id l, s.limit? id = some l → P l)
    (hl : P l) : ∀ id l', (s.fileLimit l).limit? id = some l' → P l' := by
  intro id l' hl'
  by_cases hid : l.id = id
  · obtain rfl : l = l' := by simpa [hid] using hl'
    exact hl
  · exact h id l' (by simpa [hid] using hl')

theorem forall_fileCycle {P : Cycle → Prop} {c : Cycle} (h : ∀ id c, s.cycle? id = some c → P c)
    (hc : P c) : ∀ id d, (s.fileCycle c).cycle? id = some d → P d := by
  intro id d hd
  by_cases hid : c.id = id
  · obtain rfl : c = d := by simpa [hid] using hd
    exact hc
  · exact h id d (by simpa [hid] using hd)

/-- Where there is no row is not where a stored one is. -/
theorem cycle?_ne {id id' : CycleId} {c : Cycle} (hnone : s.cycle? id = none)
    (hc : s.cycle? id' = some c) : id ≠ id' := by
  rintro rfl
  rw [hnone] at hc
  cases hc

theorem cycle?_mem {id : CycleId} {c : Cycle} (h : s.cycle? id = some c) : c ∈ s.cycles :=
  Table.mem_of_get? h

theorem cycle?_id {id : CycleId} {c : Cycle} (h : s.cycle? id = some c) : c.id = id :=
  Table.key_of_get? h

theorem limit?_id {id : LimitId} {l : Limit} (h : s.limit? id = some l) : l.id = id :=
  Table.key_of_get? h

theorem connection?_id {id : ConnectionId} {k : Connection} (h : s.connection? id = some k) :
    k.id = id :=
  Table.key_of_get? h

theorem payment?_id {id : PaymentId} {p : Payment} (h : s.payment? id = some p) : p.id = id :=
  Table.key_of_get? h

theorem laterCycle_some (latest : Option Cycle) (c : Cycle) : ∃ d, laterCycle latest c = some d ∧
    (d = c ∨ latest = some d) ∧ c.start ≤ d.start ∧ ∀ l, latest = some l → l.start ≤ d.start := by
  cases latest with
  | none => exact ⟨c, rfl, .inl rfl, Instant.le_refl _, by simp⟩
  | some l =>
    by_cases h : l.start ≤ c.start
    · exact ⟨c, by simp [laterCycle, h], .inl rfl, Instant.le_refl _, by simpa using h⟩
    · have hle := Instant.le_of_lt (Instant.not_le.mp h)
      exact ⟨l, by simp [laterCycle, h], .inr rfl, hle, by simp [Instant.le_refl]⟩

theorem foldl_laterCycle (cs : List Cycle) (first : Option Cycle) :
    (cs.foldl laterCycle first = none ↔ first = none ∧ cs = []) ∧
    ∀ d, cs.foldl laterCycle first = some d → (d ∈ cs ∨ first = some d) ∧
      (∀ c ∈ cs, c.start ≤ d.start) ∧ ∀ l, first = some l → l.start ≤ d.start := by
  induction cs generalizing first with
  | nil =>
    refine ⟨by simp, fun d h => ⟨.inr h, by simp, ?_⟩⟩
    rintro l rfl
    cases h
    exact Instant.le_refl _
  | cons a rest ih =>
    obtain ⟨e, he, hfrom, ha, hfirst⟩ := laterCycle_some first a
    obtain ⟨hnone, hsome⟩ := ih (laterCycle first a)
    refine ⟨by rw [List.foldl_cons, hnone]; simp [he], fun d h => ?_⟩
    obtain ⟨hd, hrest, hlater⟩ := hsome d h
    have hed := hlater e he
    refine ⟨?_, ?_, fun l hl => Instant.le_trans (hfirst l hl) hed⟩
    · rcases hd with hd | hd
      · exact .inl (List.mem_cons_of_mem _ hd)
      · obtain rfl : e = d := Option.some.inj (he.symm.trans hd)
        rcases hfrom with rfl | hfrom
        · exact .inl List.mem_cons_self
        · exact .inr hfrom
    · intro c hc
      rcases List.mem_cons.mp hc with rfl | hc
      · exact Instant.le_trans ha hed
      · exact hrest c hc

/-- The latest cycle of a limit is one of its cycles, and none of them starts later. -/
theorem latestCycle?_some {limit : LimitId} {d : Cycle} (h : s.latestCycle? limit = some d) :
    d ∈ s.cycles ∧ d.limit = limit ∧ ∀ c ∈ s.cycles, c.limit = limit → c.start ≤ d.start := by
  obtain ⟨hd, hle, -⟩ := (foldl_laterCycle _ none).2 d h
  obtain ⟨hmem, hlimit⟩ := List.mem_filter.mp (hd.resolve_right (by simp))
  refine ⟨hmem, by simpa using hlimit, fun c hc hl => ?_⟩
  exact hle c (List.mem_filter.mpr ⟨hc, by simpa using hl⟩)

theorem latestCycle?_none {limit : LimitId} (h : s.latestCycle? limit = none) :
    ∀ c ∈ s.cycles, c.limit ≠ limit := by
  have hnil := ((foldl_laterCycle _ none).1.mp h).2
  intro c hc hl
  have hmem : c ∈ s.cycles.filter (fun c => c.limit = limit) :=
    List.mem_filter.mpr ⟨hc, by simpa using hl⟩
  simp [hnil] at hmem

end WalletBudget.Store
