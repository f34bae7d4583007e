import WalletBudget.Proofs.Coherent
import Mathlib.Logic.Relation

/-!
Writes of single rows, with what has to hold for the tables to fit together afterwards.

An operation may leave several rows written before it stops. Each of its writes keeps the tables
coherent in itself, so it does not matter after which of them it stops.
-/

namespace WalletBudget.Service

variable {s t : Service}

/-- A connection that is new, or whose pointer leaves no active limit behind. -/
structure MaySave (s : Service) (k : Connection) : Prop where
  issued : s.Issued k.id.uuid
  target : ∀ limit, k.limit = some limit → ∃ l, s.store.limit? limit = some l ∧ l.connection = k.id
  before : ∀ old, s.store.connection? k.id = some old → old.Follows k ∧
    ∀ limit l, old.limit = some limit → s.store.limit? limit = some l → l.isActive = true →
      k.limit = some limit

structure MayFile (s : Service) (l : Limit) : Prop where
  issued : s.Issued l.id.uuid
  before : ∀ old, s.store.limit? l.id = some old → old.Follows l ∧
    (old.isActive = true → l.isActive = false → ∀ id c, s.store.cycle? id = some c →
      c.limit = l.id → s.store.IsLast c → c.OverWith l)

structure MayOpen (s : Service) (c : Cycle) : Prop where
  issued : s.Issued c.id.uuid
  new : s.store.cycle? c.id = none
  free : s.store.startOf? c.limit c.start = none
  limit : ∃ l, s.store.limit? c.limit = some l

def MayRewrite (s : Service) (c : Cycle) : Prop :=
  ∃ old, s.store.cycle? c.id = some old ∧ old.Follows c

structure MayRecord (s : Service) (p : Payment) : Prop where
  issued : s.Issued p.id.uuid
  before : ∀ old, s.store.payment? p.id = some old → old.Follows p
  cycle : ∀ cycle, p.cycle = some cycle → ∃ c, s.store.cycle? cycle = some c
  core : p.status = .pending → p = p.core

inductive RowWrite (s : Service) : Service → Prop
  | issue : RowWrite s s.issue
  | save (k : Connection) (h : MaySave s k) : RowWrite s (s.write (s.store.saveConnection k))
  | file (l : Limit) (h : MayFile s l) : RowWrite s (s.write (s.store.fileLimit l))
  | opened (c : Cycle) (h : MayOpen s c) :
    RowWrite s (s.write ((s.store.indexCycle c).fileCycle c))
  | rewrite (c : Cycle) (h : MayRewrite s c) : RowWrite s (s.write (s.store.fileCycle c))
  | record (p : Payment) (h : MayRecord s p) : RowWrite s (s.write (s.store.filePayment p))

theorem RowWrite.later (h : RowWrite s t) : Later s t := by
  have hrefl := Later.refl s
  have hunended : t.store.limits = s.store.limits → ∀ id c c' l l', s.store.cycle? id = some c →
      s.store.limit? c.limit = some l → l.isActive = true → t.store.cycle? id = some c' →
        t.store.limit? c.limit = some l' → l'.isActive = false → t.store.IsLast c' →
          c'.OverWith l' := by
    intro hlimits id c c' l l' _ hl hactive _ hl' hended _
    rw [Store.limit?, hlimits] at hl'
    rw [Option.some.inj (hl'.symm.trans hl), hactive] at hended
    cases hended
  cases h with
  | issue => exact { hrefl with issued := Nat.le_succ _ }
  | save k h =>
    refine { hrefl with connections := ?_, pointers := ?_, ended := hrefl.ended }
    · exact .put Connection.Follows.refl fun old hold => (h.before old hold).1
    · intro id old limit l l' hk hp hl hl' ha
      obtain rfl : l = l' := Option.some.inj (hl.symm.trans hl')
      by_cases hid : k.id = id
      · subst hid
        exact ⟨k, by simp, (h.before old hk).2 limit l hp hl ha⟩
      · exact ⟨old, by simp [hid, hk], hp⟩
  | file l h =>
    refine { hrefl with
      limits := .put Limit.Follows.refl fun old hold => (h.before old hold).1
      pointers := fun id k _ _ _ hk hp _ _ _ => ⟨k, hk, hp⟩, ended := ?_ }
    intro id c c' old l' hc hl hactive hc' hl' hended hlast
    obtain rfl : c = c' := Option.some.inj (hc.symm.trans hc')
    by_cases hid : l.id = c.limit
    · obtain rfl : l = l' := by simpa [hid] using hl'
      exact (h.before old (hid ▸ hl)).2 hactive hended id c hc hid.symm hlast
    · exact hrefl.ended id c c old l' hc hl hactive hc (by simpa [hid] using hl') hended hlast
  | opened c h =>
    refine { hrefl with cycles := ?_, ended := hunended rfl }
    refine .put Cycle.Follows.refl fun old hold => ?_
    rw [show Table.get? Cycle.id c.id s.store.cycles = none from h.new] at hold
    cases hold
  | rewrite c h =>
    obtain ⟨old, hold, hf⟩ := h
    refine { hrefl with cycles := ?_, ended := hunended rfl }
    refine .put Cycle.Follows.refl fun other hother => ?_
    obtain rfl : old = other := Option.some.inj (hold.symm.trans hother)
    exact hf
  | record p h => exact { hrefl with payments := .put Payment.Follows.refl h.before }

theorem Coherent.issue (hs : Coherent s) : Coherent s.issue where
  quiet := hs.quiet
  cycles := hs.cycles
  payments := hs.payments
  connectionIssued id k hk := RowWrite.issue.later.wasIssued (hs.connectionIssued id k hk)
  limitIssued id l hl := RowWrite.issue.later.wasIssued (hs.limitIssued id l hl)
  cycleIssued id c hc := RowWrite.issue.later.wasIssued (hs.cycleIssued id c hc)
  paymentIssued id p hp := RowWrite.issue.later.wasIssued (hs.paymentIssued id p hp)
  cycleLimit := hs.cycleLimit
  cycleIndexed := hs.cycleIndexed
  indexCycle := hs.indexCycle
  pointer := hs.pointer
  paymentCycle := hs.paymentCycle
  pendingCore := hs.pendingCore

theorem Coherent.save {k : Connection} (hs : Coherent s) (h : MaySave s k) :
    Coherent (s.write (s.store.saveConnection k)) := by
  refine { hs with connectionIssued := ?_, pointer := ?_ }
  · intro id k' hk'
    by_cases hid : k.id = id
    · exact hid ▸ h.issued
    · exact hs.connectionIssued id k' (by simpa [hid] using hk')
  · intro id k' hk' limit hp
    by_cases hid : k.id = id
    · obtain rfl : k = k' := by simpa [hid] using hk'
      exact hid ▸ h.target limit hp
    · exact hs.pointer id k' (by simpa [hid] using hk') limit hp

theorem Coherent.file {l : Limit} (hs : Coherent s) (h : MayFile s l) :
    Coherent (s.write (s.store.fileLimit l)) := by
  have hlater := (RowWrite.file l h).later
  refine { hs with limitIssued := ?_, cycleLimit := ?_, pointer := ?_ }
  · intro id l' hl'
    by_cases hid : l.id = id
    · exact hid ▸ h.issued
    · exact hs.limitIssued id l' (by simpa [hid] using hl')
  · intro id c hc
    obtain ⟨old, hold⟩ := hs.cycleLimit id c hc
    obtain ⟨l', hl', -⟩ := hlater.limits c.limit old hold
    exact ⟨l', hl'⟩
  · intro id k hk limit hp
    obtain ⟨old, hold, hcon⟩ := hs.pointer id k hk limit hp
    obtain ⟨l', hl', hf⟩ := hlater.limits limit old hold
    exact ⟨l', hl', hf.connection.trans hcon⟩

theorem Coherent.opened {c : Cycle} (hs : Coherent s) (h : MayOpen s c) :
    Coherent (s.write ((s.store.indexCycle c).fileCycle c)) := by
  obtain ⟨l, hl⟩ := h.limit
  have hold : ∀ {id d}, ((s.store.indexCycle c).fileCycle c).cycle? id = some d →
      (id = c.id ∧ d = c) ∨ (id ≠ c.id ∧ s.store.cycle? id = some d) := by
    intro id d hd
    by_cases hid : c.id = id
    · exact .inl ⟨hid.symm, by simpa [hid, eq_comm] using hd⟩
    · exact .inr ⟨fun he => hid he.symm, by simpa [hid] using hd⟩
  refine { hs with
    cycles := hs.cycles.put c, cycleIssued := ?_, cycleLimit := ?_, cycleIndexed := ?_
    indexCycle := ?_, paymentCycle := ?_ }
  · intro id d hd
    rcases hold hd with ⟨rfl, -⟩ | ⟨-, hd⟩
    · exact h.issued
    · exact hs.cycleIssued id d hd
  · intro id d hd
    rcases hold hd with ⟨rfl, rfl⟩ | ⟨-, hd⟩
    · exact ⟨l, hl⟩
    · exact hs.cycleLimit id d hd
  · intro id d hd
    rcases hold hd with ⟨rfl, rfl⟩ | ⟨-, hd⟩
    · simp
    · have hx := hs.cycleIndexed id d hd
      have hne : ¬ (c.limit = d.limit ∧ c.start = d.start) := by
        rintro ⟨hlimit, hstart⟩
        have hfree := h.free
        rw [hlimit, hstart, hx] at hfree
        cases hfree
      simp [hne, hx]
  · intro limit start x hx
    by_cases he : c.limit = limit ∧ c.start = start
    · obtain rfl : _ = x := by simpa [he] using hx
      exact ⟨c, by simp, he⟩
    · obtain ⟨d, hd, hfields⟩ := hs.indexCycle limit start x (by simpa [he] using hx)
      have hid : c.id ≠ x.cycle := by
        rintro hid
        have hnew := h.new
        rw [hid, hd] at hnew
        cases hnew
      exact ⟨d, by simp [hid, hd], hfields⟩
  · intro id p cycle hp hc
    obtain ⟨d, hd⟩ := hs.paymentCycle id p cycle hp hc
    by_cases hid : c.id = cycle
    · exact ⟨c, by simp [hid]⟩
    · exact ⟨d, by simp [hid, hd]⟩

theorem Coherent.rewrite {c : Cycle} (hs : Coherent s) (h : MayRewrite s c) :
    Coherent (s.write (s.store.fileCycle c)) := by
  have hlater := (RowWrite.rewrite c h).later
  have hold : ∀ {id d}, (s.store.fileCycle c).cycle? id = some d →
      ∃ d', s.store.cycle? id = some d' ∧ d'.Follows d := by
    intro id d hd
    by_cases hid : c.id = id
    · obtain rfl : c = d := by simpa [hid] using hd
      exact hid ▸ h
    · exact ⟨d, by simpa [hid] using hd, .refl d⟩
  refine { hs with
    cycles := hs.cycles.put c, cycleIssued := ?_, cycleLimit := ?_, cycleIndexed := ?_
    indexCycle := ?_, paymentCycle := ?_ }
  · intro id d hd
    obtain ⟨d', hd', -⟩ := hold hd
    exact hs.cycleIssued id d' hd'
  · intro id d hd
    obtain ⟨d', hd', hf⟩ := hold hd
    exact hf.limit ▸ hs.cycleLimit id d' hd'
  · intro id d hd
    obtain ⟨d', hd', hf⟩ := hold hd
    simpa [hf.limit, hf.start] using hs.cycleIndexed id d' hd'
  · intro limit start x hx
    obtain ⟨d, hd, hlimit, hstart⟩ := hs.indexCycle limit start x hx
    obtain ⟨d', hd', hf⟩ := hlater.cycles x.cycle d hd
    exact ⟨d', hd', hf.limit.trans hlimit, hf.start.trans hstart⟩
  · intro id p cycle hp hc
    obtain ⟨d, hd⟩ := hs.paymentCycle id p cycle hp hc
    obtain ⟨d', hd', -⟩ := hlater.cycles cycle d hd
    exact ⟨d', hd'⟩

theorem Coherent.record {p : Payment} (hs : Coherent s) (h : MayRecord s p) :
    Coherent (s.write (s.store.filePayment p)) := by
  have hold : ∀ {id q}, (s.store.filePayment p).payment? id = some q →
      (id = p.id ∧ q = p) ∨ s.store.payment? id = some q := by
    intro id q hq
    by_cases hid : p.id = id
    · exact .inl ⟨hid.symm, by simpa [hid, eq_comm] using hq⟩
    · exact .inr (by simpa [hid] using hq)
  refine { hs with
    payments := hs.payments.put p, paymentIssued := ?_, paymentCycle := ?_, pendingCore := ?_ }
  · intro id q hq
    rcases hold hq with ⟨rfl, -⟩ | hq
    · exact h.issued
    · exact hs.paymentIssued id q hq
  · intro id q cycle hq hc
    rcases hold hq with ⟨-, rfl⟩ | hq
    · exact h.cycle cycle hc
    · exact hs.paymentCycle id q cycle hq hc
  · intro id q hq hstatus
    rcases hold hq with ⟨-, rfl⟩ | hq
    · exact h.core hstatus
    · exact hs.pendingCore id q hq hstatus

/-- Tables that fit together do so after every single write. -/
theorem RowWrite.coherent (hs : Coherent s) (h : RowWrite s t) : Coherent t := by
  cases h with
  | issue => exact hs.issue
  | save k h => exact hs.save h
  | file l h => exact hs.file h
  | opened c h => exact hs.opened h
  | rewrite c h => exact hs.rewrite h
  | record p h => exact hs.record h

abbrev RowWrites : Service → Service → Prop := Relation.ReflTransGen RowWrite

theorem RowWrites.later (h : RowWrites s t) : Later s t := by
  induction h with
  | refl => exact .refl s
  | tail _ hstep ih => exact ih.trans hstep.later

theorem RowWrites.coherent (hs : Coherent s) (h : RowWrites s t) : Coherent t := by
  induction h with
  | refl => exact hs
  | tail _ hstep ih => exact hstep.coherent ih

end WalletBudget.Service
