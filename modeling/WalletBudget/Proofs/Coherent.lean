import WalletBudget.Proofs.Progress
import WalletBudget.Proofs.Store

/-!
Stores in which the tables fit together, and what later states keep of earlier ones.

A limit that is filed but was never pointed to may stay active without a connection: the operation
that filed it met a defect before its first cycle. No connection leads to such a limit.
-/

namespace WalletBudget

/-- A later record of a connection differs in its pointer at most. -/
def Connection.Follows (k k' : Connection) : Prop := k' = { k with limit := k'.limit }

/-- A later record of a limit may have another amount or an end. After the end it is the same. -/
structure Limit.Follows (l l' : Limit) : Prop where
  connection : l'.connection = l.connection
  currency : l'.currency = l.currency
  frequency : l'.frequency = l.frequency
  start : l'.start = l.start
  ended : l.isActive = false → l' = l

/-- A later record of a cycle may have other totals and another amount, and end earlier. -/
structure Cycle.Follows (c c' : Cycle) : Prop where
  limit : c'.limit = c.limit
  currency : c'.currency = c.currency
  start : c'.start = c.start
  ended : ∀ time, c.hasEnded time = true → c'.hasEnded time = true

/-- A cycle that is over by the end of its limit, or by its own start. -/
def Cycle.OverWith (c : Cycle) (l : Limit) : Prop :=
  ∃ time, l.finish = some time ∧ c.hasEnded (time.later c.start) = true

def Store.IsLast (s : Store) (c : Cycle) : Prop :=
  ∀ id d, s.cycle? id = some d → d.limit = c.limit → d.start ≤ c.start

/-- The payment as it was recorded first. -/
def Payment.core (p : Payment) : Payment :=
  { p with status := .pending, settled := none, updatedAt := p.createdAt }

/-- Records of one payment differ at most in how and when it ended. -/
theorem Payment.fields_of_core {p q : Payment} (h : q.core = p.core) :
    q = { p with status := q.status, settled := q.settled, updatedAt := q.updatedAt } := by
  calc
    q = { q.core with status := q.status, settled := q.settled, updatedAt := q.updatedAt } := rfl
    _ = { p.core with status := q.status, settled := q.settled, updatedAt := q.updatedAt } := by
      rw [h]

/-- A later record of a payment may be final. After that it is the same. -/
structure Payment.Follows (p p' : Payment) : Prop where
  core : p'.core = p.core
  final : p.status ≠ .pending → p' = p

theorem Connection.Follows.refl (k : Connection) : k.Follows k := rfl

theorem Connection.Follows.trans (a b c : Connection) (hab : a.Follows b) (hbc : b.Follows c) :
    a.Follows c := by
  unfold Connection.Follows at *
  rw [hbc, hab]

theorem Limit.Follows.refl (l : Limit) : l.Follows l := ⟨rfl, rfl, rfl, rfl, fun _ => rfl⟩

theorem Limit.Follows.trans (a b c : Limit) (hab : a.Follows b) (hbc : b.Follows c) :
    a.Follows c where
  connection := hbc.connection.trans hab.connection
  currency := hbc.currency.trans hab.currency
  frequency := hbc.frequency.trans hab.frequency
  start := hbc.start.trans hab.start
  ended h := by
    have hb := hab.ended h
    subst hb
    exact hbc.ended h

/-- What is active now was active before. -/
theorem Limit.Follows.active {l l' : Limit} (h : l.Follows l') (ha : l'.isActive = true) :
    l.isActive = true := by
  cases hl : l.isActive with
  | true => rfl
  | false => rw [h.ended hl, hl] at ha; exact ha

theorem Cycle.hasEnded_congr {c d : Cycle} (h : c.finish = d.finish) :
    c.hasEnded = d.hasEnded := by
  funext t
  simp only [Cycle.hasEnded, h]

theorem Cycle.Follows.of_finish {c c' : Cycle} (hlimit : c'.limit = c.limit)
    (hcurrency : c'.currency = c.currency) (hstart : c'.start = c.start)
    (hfinish : c'.finish = c.finish) : c.Follows c' :=
  ⟨hlimit, hcurrency, hstart, fun time h => by rwa [Cycle.hasEnded_congr hfinish]⟩

theorem Cycle.Follows.refl (c : Cycle) : c.Follows c := .of_finish rfl rfl rfl rfl

theorem Cycle.Follows.trans (a b c : Cycle) (hab : a.Follows b) (hbc : b.Follows c) :
    a.Follows c :=
  ⟨hbc.limit.trans hab.limit, hbc.currency.trans hab.currency, hbc.start.trans hab.start,
    fun time h => hbc.ended time (hab.ended time h)⟩

theorem Cycle.OverWith.follows {c c' : Cycle} {l : Limit} (h : c.OverWith l)
    (hfollows : c.Follows c') : c'.OverWith l := by
  obtain ⟨time, hfinish, hover⟩ := h
  exact ⟨time, hfinish, hfollows.start ▸ hfollows.ended _ hover⟩

/-- A cycle that is the last one later was so before. -/
theorem Store.IsLast.before {s t : Store} {c c' : Cycle}
    (hcycles : Table.Evolves Cycle.Follows Cycle.id s.cycles t.cycles) (hfollows : c.Follows c')
    (h : t.IsLast c') : s.IsLast c := by
  intro id d hd hlimit
  obtain ⟨d', hd', hdf⟩ := hcycles id d hd
  have hle := h id d' hd' (hdf.limit.trans (hlimit.trans hfollows.limit.symm))
  rwa [hdf.start, hfollows.start] at hle

theorem Payment.Follows.refl (p : Payment) : p.Follows p := ⟨rfl, fun _ => rfl⟩

theorem Payment.Follows.trans (a b c : Payment) (hab : a.Follows b) (hbc : b.Follows c) :
    a.Follows c where
  core := hbc.core.trans hab.core
  final h := by
    have hb := hab.final h
    subst hb
    exact hbc.final h

namespace Service

def Issued (s : Service) (u : Uuid) : Prop := ∃ i < s.issued, s.ids i = u

def FreshIds (s : Service) : Prop := ∀ i < s.issued, ∀ j < s.issued, s.ids i = s.ids j → i = j

instance (s : Service) : Decidable s.FreshIds :=
  inferInstanceAs (Decidable (∀ i < s.issued, ∀ j < s.issued, s.ids i = s.ids j → i = j))

theorem next_issued (s : Service) : s.issue.Issued s.next :=
  ⟨s.issued, Nat.lt_succ_self _, rfl⟩

@[simp] theorem issued_write (s : Service) (store : Store) (u : Uuid) :
    (s.write store).Issued u ↔ s.Issued u := Iff.rfl

theorem FreshIds.next {s : Service} (h : s.issue.FreshIds) : ¬ s.Issued s.next := by
  rintro ⟨i, hi, he⟩
  have heq : i = s.issued := h i (Nat.lt_succ_of_lt hi) s.issued (Nat.lt_succ_self _) he
  omega

/-- The tables of the store fit together. -/
structure Coherent (s : Service) : Prop where
  quiet : s.outages = []
  cycles : Table.Distinct Cycle.id s.store.cycles
  payments : Table.Distinct Payment.id s.store.payments
  connectionIssued : ∀ id k, s.store.connection? id = some k → s.Issued id.uuid
  limitIssued : ∀ id l, s.store.limit? id = some l → s.Issued id.uuid
  cycleIssued : ∀ id c, s.store.cycle? id = some c → s.Issued id.uuid
  paymentIssued : ∀ id p, s.store.payment? id = some p → s.Issued id.uuid
  cycleLimit : ∀ id c, s.store.cycle? id = some c → ∃ l, s.store.limit? c.limit = some l
  cycleIndexed : ∀ id c, s.store.cycle? id = some c →
    s.store.startOf? c.limit c.start = some ⟨c.limit, c.start, id⟩
  indexCycle : ∀ limit start x, s.store.startOf? limit start = some x →
    ∃ c, s.store.cycle? x.cycle = some c ∧ c.limit = limit ∧ c.start = start
  pointer : ∀ id k, s.store.connection? id = some k → ∀ limit, k.limit = some limit →
    ∃ l, s.store.limit? limit = some l ∧ l.connection = id
  paymentCycle : ∀ id p cycle, s.store.payment? id = some p → p.cycle = some cycle →
    ∃ c, s.store.cycle? cycle = some c
  pendingCore : ∀ id p, s.store.payment? id = some p → p.status = .pending → p = p.core

/-- Nothing is taken back: rows stay, and what is fixed in them stays fixed. A pointer to a limit
that is still active has not moved. A cycle that a limit had before it ended is over, if it is still
the last one: a search for the cycle of an ended limit may open others. -/
structure Later (s t : Service) : Prop where
  ids : t.ids = s.ids
  issued : s.issued ≤ t.issued
  connections : Table.Evolves Connection.Follows Connection.id s.store.connections
    t.store.connections
  limits : Table.Evolves Limit.Follows Limit.id s.store.limits t.store.limits
  cycles : Table.Evolves Cycle.Follows Cycle.id s.store.cycles t.store.cycles
  payments : Table.Evolves Payment.Follows Payment.id s.store.payments t.store.payments
  pointers : ∀ id k limit l l', s.store.connection? id = some k → k.limit = some limit →
    s.store.limit? limit = some l → t.store.limit? limit = some l' → l'.isActive = true →
    ∃ k', t.store.connection? id = some k' ∧ k'.limit = some limit
  ended : ∀ id c c' l l', s.store.cycle? id = some c → s.store.limit? c.limit = some l →
    l.isActive = true → t.store.cycle? id = some c' → t.store.limit? c.limit = some l' →
    l'.isActive = false → t.store.IsLast c' → c'.OverWith l'

variable {s t u : Service}

theorem Later.refl (s : Service) : Later s s where
  ids := rfl
  issued := Nat.le_refl _
  connections := .refl Connection.Follows.refl _
  limits := .refl Limit.Follows.refl _
  cycles := .refl Cycle.Follows.refl _
  payments := .refl Payment.Follows.refl _
  pointers _ k _ _ _ hk hp _ _ _ := ⟨k, hk, hp⟩
  ended id c c' l l' _ hl hactive _ hl' hended _ := by
    rw [Option.some.inj (hl'.symm.trans hl), hactive] at hended
    cases hended

theorem Later.trans (hst : Later s t) (htu : Later t u) : Later s u where
  ids := htu.ids.trans hst.ids
  issued := Nat.le_trans hst.issued htu.issued
  connections := hst.connections.trans Connection.Follows.trans htu.connections
  limits := hst.limits.trans Limit.Follows.trans htu.limits
  cycles := hst.cycles.trans Cycle.Follows.trans htu.cycles
  payments := hst.payments.trans Payment.Follows.trans htu.payments
  pointers id k limit l l'' hk hp hl hl'' ha := by
    obtain ⟨l', hl', hf⟩ := hst.limits limit l hl
    obtain ⟨m, hm, hf'⟩ := htu.limits limit l' hl'
    obtain rfl : m = l'' := Option.some.inj (hm.symm.trans hl'')
    obtain ⟨k', hk', hp'⟩ := hst.pointers id k limit l l' hk hp hl hl' (hf'.active ha)
    exact htu.pointers id k' limit l' m hk' hp' hl' hm ha
  ended id c c'' l l'' hc hl hactive hc'' hl'' hended hlast := by
    obtain ⟨c', hc', hf⟩ := hst.cycles id c hc
    obtain ⟨d, hd, hf'⟩ := htu.cycles id c' hc'
    obtain rfl : d = c'' := Option.some.inj (hd.symm.trans hc'')
    obtain ⟨l', hl', -⟩ := hst.limits c.limit l hl
    rcases hactive' : l'.isActive with _ | _
    · -- it had ended in between, and is the same limit since then
      obtain ⟨m, hm, hfollows⟩ := htu.limits c.limit l' hl'
      obtain rfl : m = l'' := Option.some.inj (hm.symm.trans hl'')
      rw [hfollows.ended hactive']
      exact (hst.ended id c c' l l' hc hl hactive hc' hl' hactive'
        (hlast.before htu.cycles hf')).follows hf'
    · exact htu.ended id c' d l' l'' hc' (hf.limit ▸ hl') hactive' hd (hf.limit ▸ hl'') hended hlast

theorem Later.fresh (h : Later s t) (ht : t.FreshIds) : s.FreshIds := by
  intro i hi j hj he
  refine ht i (Nat.lt_of_lt_of_le hi h.issued) j (Nat.lt_of_lt_of_le hj h.issued) ?_
  rw [h.ids, he]

theorem Later.wasIssued {v : Uuid} (h : Later s t) (hv : s.Issued v) : t.Issued v := by
  obtain ⟨i, hi, he⟩ := hv
  exact ⟨i, Nat.lt_of_lt_of_le hi h.issued, by rw [h.ids, he]⟩

end Service

end WalletBudget
