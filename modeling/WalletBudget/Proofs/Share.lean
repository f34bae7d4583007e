import WalletBudget.Proofs.Sound

/-!
Which rows are whose.

Connections, limits and payments name their connection; a cycle, and the entry that finds it, are
of the connection of their limit. What is read or written by way of one connection is read from its
rows and written to them, and the rows of the others stay as they are.
-/

namespace WalletBudget

namespace Store

variable {s : Store} {owner x : ConnectionId} {limit : LimitId}

def owner? (s : Store) (limit : LimitId) : Option ConnectionId :=
  (s.limit? limit).map (·.connection)

def cycleOwner? (s : Store) (cycle : CycleId) : Option ConnectionId :=
  (s.cycle? cycle).bind fun c => s.owner? c.limit

def share (s : Store) (owner : ConnectionId) : Store where
  connections := s.connections.filter fun k => k.id = owner
  limits := s.limits.filter fun l => l.connection = owner
  cycles := s.cycles.filter fun c => s.owner? c.limit = some owner
  cycleStarts := s.cycleStarts.filter fun entry => s.owner? entry.limit = some owner
  payments := s.payments.filter fun p => p.connection = owner

theorem owner?_some : s.owner? limit = some owner ↔
    ∃ l, s.limit? limit = some l ∧ l.connection = owner := by
  simp [owner?]

theorem cycleOwner?_some {cycle : CycleId} : s.cycleOwner? cycle = some owner ↔
    ∃ c, s.cycle? cycle = some c ∧ s.owner? c.limit = some owner := by
  simp [cycleOwner?, Option.bind_eq_some_iff]

section Reads

theorem connection?_share (s : Store) (owner : ConnectionId) :
    (s.share owner).connection? owner = s.connection? owner :=
  Table.get?_filter fun k hk => by simpa using Table.key_of_get? hk

theorem limit?_share (h : ∀ l, s.limit? limit = some l → l.connection = owner) :
    (s.share owner).limit? limit = s.limit? limit :=
  Table.get?_filter fun l hl => by simpa using h l hl

theorem cycle?_share {cycle : CycleId}
    (h : ∀ c, s.cycle? cycle = some c → s.owner? c.limit = some owner) :
    (s.share owner).cycle? cycle = s.cycle? cycle :=
  Table.get?_filter fun c hc => by simpa using h c hc

theorem payment?_share {id : PaymentId} (h : ∀ p, s.payment? id = some p → p.connection = owner) :
    (s.share owner).payment? id = s.payment? id :=
  Table.get?_filter fun p hp => by simpa using h p hp

theorem startOf?_share (h : s.owner? limit = some owner) (start : Instant) :
    (s.share owner).startOf? limit start = s.startOf? limit start := by
  refine Table.get?_filter fun entry hentry => ?_
  have hlimit : entry.limit = limit := congrArg Prod.fst (Table.key_of_get? hentry)
  simpa [hlimit] using h

theorem latestCycle?_share (h : s.owner? limit = some owner) :
    (s.share owner).latestCycle? limit = s.latestCycle? limit := by
  have hfilter : (s.share owner).cycles.filter (fun c => c.limit = limit) =
      s.cycles.filter fun c => c.limit = limit := by
    simp only [share, List.filter_filter]
    refine List.filter_congr fun c _ => ?_
    by_cases hlimit : c.limit = limit <;> simp [hlimit, h]
  simp only [latestCycle?, hfilter]

end Reads

section Writes

theorem share_saveConnection (s : Store) (k : Connection) (x : ConnectionId) :
    (s.saveConnection k).share x =
      if k.id = x then (s.share x).saveConnection k else s.share x := by
  have hshare : (s.saveConnection k).share x = { s.share x with
      connections := (Table.put Connection.id k s.connections).filter fun c => c.id = x } := rfl
  rw [hshare, Table.filter_put]
  · simp only [decide_eq_true_eq]
    split <;> rfl
  · intro c _ he
    rw [he]

theorem owner?_fileLimit {l : Limit} (limit : LimitId) :
    (s.fileLimit l).owner? limit = if l.id = limit then some l.connection else s.owner? limit := by
  simp only [owner?, limit?_fileLimit]
  split <;> rfl

/-- A limit that is filed is new, or it is of the same connection as before. -/
theorem owner?_fileLimit_of_some {l : Limit}
    (hold : ∀ old, s.limit? l.id = some old → old.connection = l.connection)
    (h : s.owner? limit = some x) : (s.fileLimit l).owner? limit = some x := by
  rw [owner?_fileLimit]
  split
  · rename_i hid
    obtain ⟨old, hlimit, rfl⟩ := owner?_some.mp h
    rw [hold old (hid ▸ hlimit)]
  · exact h

theorem share_fileLimit {l : Limit} (hd : Table.Distinct Limit.id s.limits)
    (hcycles : ∀ c ∈ s.cycles, ∃ x, s.owner? c.limit = some x)
    (hstarts : ∀ entry ∈ s.cycleStarts, ∃ x, s.owner? entry.limit = some x)
    (hold : ∀ old, s.limit? l.id = some old → old.connection = l.connection) (x : ConnectionId) :
    (s.fileLimit l).share x = if l.connection = x then (s.share x).fileLimit l else s.share x := by
  have hsame : ∀ limit, (∃ y, s.owner? limit = some y) →
      (s.fileLimit l).owner? limit = s.owner? limit := by
    rintro limit ⟨y, hy⟩
    rw [owner?_fileLimit_of_some hold hy, hy]
  have hcycles : s.cycles.filter (fun c => (s.fileLimit l).owner? c.limit = some x) =
      s.cycles.filter fun c => s.owner? c.limit = some x :=
    List.filter_congr fun c hc => by rw [hsame c.limit (hcycles c hc)]
  have hstarts : s.cycleStarts.filter (fun entry => (s.fileLimit l).owner? entry.limit = some x) =
      s.cycleStarts.filter fun entry => s.owner? entry.limit = some x :=
    List.filter_congr fun entry he => by rw [hsame entry.limit (hstarts entry he)]
  have hshare : (s.fileLimit l).share x = { s.share x with
      limits := (Table.put Limit.id l s.limits).filter fun l => l.connection = x
      cycles := s.cycles.filter fun c => (s.fileLimit l).owner? c.limit = some x
      cycleStarts := s.cycleStarts.filter fun entry =>
        (s.fileLimit l).owner? entry.limit = some x } := rfl
  rw [hshare, hcycles, hstarts, hd.filter_put]
  · simp only [decide_eq_true_eq]
    split <;> rfl
  · intro old h
    rw [hold old h]

theorem share_fileCycle {c : Cycle} (hd : Table.Distinct Cycle.id s.cycles)
    (hold : ∀ old, s.cycle? c.id = some old → s.owner? old.limit = s.owner? c.limit)
    (x : ConnectionId) : (s.fileCycle c).share x =
      if s.owner? c.limit = some x then (s.share x).fileCycle c else s.share x := by
  have hshare : (s.fileCycle c).share x = { s.share x with
      cycles := (Table.put Cycle.id c s.cycles).filter fun c => s.owner? c.limit = some x } := rfl
  rw [hshare, hd.filter_put]
  · simp only [decide_eq_true_eq]
    split <;> rfl
  · intro old h
    rw [hold old h]

/-- The entry that finds a cycle is told apart by its limit, so it is of one connection. -/
theorem share_indexCycle (s : Store) (c : Cycle) (x : ConnectionId) :
    (s.indexCycle c).share x =
      if s.owner? c.limit = some x then (s.share x).indexCycle c else s.share x := by
  have hshare : (s.indexCycle c).share x = { s.share x with
      cycleStarts := (Table.put CycleStart.key ⟨c.limit, c.start, c.id⟩ s.cycleStarts).filter
        fun entry => s.owner? entry.limit = some x } := rfl
  rw [hshare, Table.filter_put]
  · simp only [decide_eq_true_eq]
    split <;> rfl
  · intro entry _ he
    rw [show entry.limit = c.limit from congrArg Prod.fst he]

/-- A new cycle and its entry go to the same connection. -/
theorem share_openCycle {c : Cycle} (hd : Table.Distinct Cycle.id s.cycles)
    (hnew : s.cycle? c.id = none) (x : ConnectionId) :
    ((s.indexCycle c).fileCycle c).share x =
      if s.owner? c.limit = some x then ((s.share x).indexCycle c).fileCycle c else s.share x := by
  have howner : (s.indexCycle c).owner? c.limit = s.owner? c.limit := rfl
  rw [share_fileCycle (s := s.indexCycle c) hd (by simp [hnew]), howner, share_indexCycle]
  split <;> rfl

theorem share_filePayment {p : Payment} (hd : Table.Distinct Payment.id s.payments)
    (hold : ∀ old, s.payment? p.id = some old → old.connection = p.connection)
    (x : ConnectionId) : (s.filePayment p).share x =
      if p.connection = x then (s.share x).filePayment p else s.share x := by
  have hshare : (s.filePayment p).share x = { s.share x with
      payments := (Table.put Payment.id p s.payments).filter fun p => p.connection = x } := rfl
  rw [hshare, hd.filter_put]
  · simp only [decide_eq_true_eq]
    split <;> rfl
  · intro old h
    rw [hold old h]

end Writes

end Store

end WalletBudget
