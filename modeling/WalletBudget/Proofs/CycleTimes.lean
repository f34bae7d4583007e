import WalletBudget.Proofs.Sound
import WalletBudget.Proofs.Totals

/-!
When cycles start and end, in runs whose clock never goes back.

A cycle that has not ended is then the one of its limit that starts last, so closing that one is
enough to end a limit with all the cycles it has.
-/

namespace WalletBudget

open Service

variable {policy : HoldPolicy} {rule : World → Event → Prop} {final : Prop} {now : Instant}
  {s t : Service} {c c' : Cycle} {p : Payment} {hold : Int} {e : Ending} {w : World}
  {path : List World}

theorem Limit.periodStart_congr {l l' : Limit} (hstart : l'.start = l.start)
    (hfrequency : l'.frequency = l.frequency) : l'.periodStart = l.periodStart := by
  funext t
  simp only [Limit.periodStart, hstart, hfrequency]

/-- Limits and cycles started by now, and limits that have ended did so by now. -/
structure Timely (s : Service) : Prop where
  limits : ∀ id l, s.store.limit? id = some l → l.start.isLeap = false ∧ l.start ≤ s.clock
  starts : ∀ id c l, s.store.cycle? id = some c → s.store.limit? c.limit = some l →
    ∃ t, t.isLeap = false ∧ t ≤ s.clock ∧ l.periodStart t = .ok c.start
  /-- A cycle that has not ended starts behind every other cycle of its limit. -/
  last : ∀ id c id' d, s.store.cycle? id = some c → c.hasEnded s.clock = false →
    s.store.cycle? id' = some d → d.limit = c.limit → id' ≠ id → d.start < c.start
  ends : ∀ id l time, s.store.limit? id = some l → l.finish = some time → time ≤ s.clock

/-- Every limit and cycle of `t` is one of `s`, with the same times. -/
structure SameTimes (s t : Service) : Prop where
  clock : t.clock = s.clock
  limits : ∀ id l, t.store.limit? id = some l → ∃ m, s.store.limit? id = some m ∧
    l.start = m.start ∧ l.frequency = m.frequency ∧ l.finish = m.finish
  cycles : ∀ id c, t.store.cycle? id = some c → ∃ d, s.store.cycle? id = some d ∧
    c.limit = d.limit ∧ c.start = d.start ∧ c.finish = d.finish

namespace SameTimes

theorem of_eq (hclock : t.clock = s.clock) (hlimits : t.store.limit? = s.store.limit?)
    (hcycles : t.store.cycle? = s.store.cycle?) : SameTimes s t where
  clock := hclock
  limits _ l hl := ⟨l, hlimits ▸ hl, rfl, rfl, rfl⟩
  cycles _ c hc := ⟨c, hcycles ▸ hc, rfl, rfl, rfl⟩

/-- A cycle may be rewritten with other totals or another amount. -/
theorem of_cycle {d : Cycle} (hclock : t.clock = s.clock)
    (hlimits : ∀ id l, t.store.limit? id = some l → ∃ m, s.store.limit? id = some m ∧
      l.start = m.start ∧ l.frequency = m.frequency ∧ l.finish = m.finish)
    (hd : s.store.cycle? d.id = some d) (hlimit : c.limit = d.limit) (hstart : c.start = d.start)
    (hfinish : c.finish = d.finish)
    (ht : ∀ id, t.store.cycle? id = if d.id = id then some c else s.store.cycle? id) :
    SameTimes s t where
  clock := hclock
  limits := hlimits
  cycles id f hf := by
    rw [ht] at hf
    split at hf
    · rename_i hid
      cases hf
      exact ⟨d, hid ▸ hd, hlimit, hstart, hfinish⟩
    · exact ⟨f, hf, rfl, rfl, rfl⟩

end SameTimes

namespace Timely

theorem sameTimes (h : Timely s) (hst : SameTimes s t) : Timely t where
  limits id l hl := by
    obtain ⟨m, hm, hstart, -⟩ := hst.limits id l hl
    rw [hst.clock, hstart]
    exact h.limits id m hm
  starts id c l hc hl := by
    obtain ⟨d, hd, hlimit, hstart, -⟩ := hst.cycles id c hc
    obtain ⟨m, hm, hstart', hfrequency, -⟩ := hst.limits c.limit l hl
    rw [hst.clock, hstart, Limit.periodStart_congr hstart' hfrequency]
    exact h.starts id d m hd (hlimit ▸ hm)
  last id c id' d hc hlive hd hlimit hne := by
    obtain ⟨c', hc', hl, hstart, hfinish⟩ := hst.cycles id c hc
    obtain ⟨d', hd', hl', hstart', -⟩ := hst.cycles id' d hd
    rw [hst.clock, Cycle.hasEnded_congr hfinish] at hlive
    rw [hstart, hstart']
    exact h.last id c' id' d' hc' hlive hd' (by rw [← hl, ← hl', hlimit]) hne
  ends id l time hl hend := by
    obtain ⟨m, hm, -, -, hfinish⟩ := hst.limits id l hl
    exact hst.clock ▸ h.ends id m time hm (hfinish ▸ hend)

theorem tick {now : Reading} (h : Timely s) (hle : s.clock ≤ now.clock) :
    Timely (s.tick now) where
  limits id l hl := ⟨(h.limits id l hl).1, Instant.le_trans (h.limits id l hl).2 hle⟩
  starts id c l hc hl := by
    obtain ⟨t, ht, hlet, hstart⟩ := h.starts id c l hc hl
    exact ⟨t, ht, Instant.le_trans hlet hle, hstart⟩
  last id c id' d hc hlive hd hlimit hne := by
    exact h.last id c id' d hc (Cycle.live_before hlive hle) hd hlimit hne
  ends id l time hl hend := Instant.le_trans (h.ends id l time hl hend) hle

theorem isLast (h : Timely s) {id : CycleId} (hc : s.store.cycle? id = some c)
    (hlive : c.hasEnded s.clock = false) : s.store.IsLast c := by
  intro other d hd hlimit
  by_cases hid : other = id
  · obtain rfl : d = c := Option.some.inj (hd.symm.trans (hid ▸ hc))
    exact Instant.le_refl _
  · exact Instant.le_of_lt (h.last id c other d hc hlive hd hlimit hid)

/-- A cycle that has not ended is the latest one of its limit. -/
theorem latest (hs : Coherent s) (h : Timely s) {id : CycleId} (hc : s.store.cycle? id = some c)
    (hlive : c.hasEnded s.clock = false) : s.store.latestCycle? c.limit = some c :=
  hs.latest_of_last hc (h.isLast hc hlive)

/-- When the latest cycle of a limit has ended, all its cycles have. -/
theorem allEnded {limit : LimitId} (hs : Coherent s) (h : Timely s)
    (hidle : ∀ d, s.store.latestCycle? limit = some d → d.hasEnded s.clock = true)
    {id : CycleId} (hc : s.store.cycle? id = some c) (hlimit : c.limit = limit) :
    c.hasEnded s.clock = true := by
  cases hlive : c.hasEnded s.clock with
  | true => rfl
  | false =>
    have hlatest := hidle c (hlimit ▸ h.latest hs hc hlive)
    rw [hlive] at hlatest
    cases hlatest

/-- Cycles start by now. -/
theorem start_le (hs : Coherent s) (h : Timely s) {id : CycleId}
    (hc : s.store.cycle? id = some c) : c.start ≤ s.clock := by
  obtain ⟨l, hl⟩ := hs.cycleLimit id c hc
  obtain ⟨t, ht, hle, hstart⟩ := h.starts id c l hc hl
  obtain ⟨hleap, hbegin⟩ := h.limits c.limit l hl
  refine Instant.le_trans (Limit.periodStart_le hleap ht hstart).2 ?_
  exact Instant.later_le_iff.mpr ⟨hle, hbegin⟩

/-- A cycle that a limit had before it ended is over now. -/
theorem ended {l l' : Limit} (h : Timely t) (ht : Coherent t) (hlater : Later s t) {id : CycleId}
    (hc : s.store.cycle? id = some c) (hl : s.store.limit? c.limit = some l)
    (hactive : l.isActive = true) (hc' : t.store.cycle? id = some c')
    (hl' : t.store.limit? c.limit = some l') (hended : l'.isActive = false) :
    c'.hasEnded t.clock = true := by
  cases hlive : c'.hasEnded t.clock with
  | true => rfl
  | false =>
    obtain ⟨time, hfinish, hover⟩ :=
      hlater.ended id c c' l l' hc hl hactive hc' hl' hended (h.isLast hc' hlive)
    have hby : time.later c'.start ≤ t.clock :=
      Instant.later_le_iff.mpr ⟨h.ends c.limit l' time hl' hfinish, h.start_le ht hc'⟩
    rw [Cycle.hasEnded_mono hover hby] at hlive
    cases hlive

theorem begin {l : Limit} (hs : Coherent s) (h : Timely s) (hnew : s.store.limit? l.id = none)
    (hactive : l.isActive = true) (hstart : l.start = s.clock) :
    Timely (s.issue.write (s.store.fileLimit l)) := by
  have hold : ∀ id c m, s.store.cycle? id = some c →
      (s.store.fileLimit l).limit? c.limit = some m → s.store.limit? c.limit = some m := by
    intro id c m hc hm
    have hne : l.id ≠ c.limit := by
      intro hid
      obtain ⟨m', hm'⟩ := hs.cycleLimit id c hc
      rw [← hid, hnew] at hm'
      cases hm'
    simpa [hne] using hm
  exact { h with
    limits := Store.forall_fileLimit h.limits
      ⟨by rw [hstart]; exact s.plain, by rw [hstart]; exact Instant.le_refl _⟩
    starts := fun id c m hc hm => h.starts id c m hc (hold id c m hc hm)
    ends := fun id m time hm hend => by
      by_cases hid : l.id = id
      · obtain rfl : l = m := by simpa [hid] using hm
        simp [Limit.isActive, hend] at hactive
      · exact h.ends id m time (by simpa [hid] using hm) hend }

theorem retire {l : Limit} (h : Timely s) (hl : s.store.limit? l.id = some l)
    (hactive : l.isActive = true) :
    Timely (s.write (s.store.fileLimit (l.deactivate s.clock))) := by
  have hfollows := deactivate_follows l s.clock
  have hold : ∀ id m, (s.store.fileLimit (l.deactivate s.clock)).limit? id = some m →
      id = l.id ∧ m = l.deactivate s.clock ∨ s.store.limit? id = some m := by
    intro id m hm
    by_cases hid : l.id = id
    · exact .inl ⟨hid.symm, by simpa [hid, eq_comm] using hm⟩
    · exact .inr (by simpa [hid] using hm)
  refine { h with limits := ?_, starts := ?_, ends := ?_ }
  · refine Store.forall_fileLimit h.limits ?_
    rw [hfollows.start]
    exact h.limits l.id l hl
  · intro id c m hc hm
    rcases hold c.limit m hm with ⟨hid, rfl⟩ | hm
    · rw [Limit.periodStart_congr hfollows.start hfollows.frequency]
      exact h.starts id c l hc (hid ▸ hl)
    · exact h.starts id c m hc hm
  · intro id m time hm hend
    rcases hold id m hm with ⟨-, rfl⟩ | hm
    · obtain rfl : s.clock.later l.start = time := by simpa [Limit.deactivate, hactive] using hend
      exact Instant.later_le_iff.mpr ⟨Instant.le_refl _, (h.limits l.id l hl).2⟩
    · exact h.ends id m time hm hend

/-- Closing a cycle ends it by now. -/
theorem closed (hs : Coherent s) (h : Timely s) (hc : s.store.cycle? c.id = some c) :
    Timely (s.write (s.store.fileCycle (c.endAt s.clock))) := by
  have hended : (c.endAt s.clock).hasEnded s.clock = true := by
    obtain ⟨f, hf, hle⟩ := Cycle.endAt_finish c s.clock
    refine Cycle.hasEnded_iff.mpr ⟨f, hf, Instant.le_trans hle ?_⟩
    exact Instant.later_le_iff.mpr ⟨Instant.le_refl _, h.start_le hs hc⟩
  have hfollows := endAt_follows c s.clock
  have hold : ∀ id d, (s.store.fileCycle (c.endAt s.clock)).cycle? id = some d →
      ∃ d', s.store.cycle? id = some d' ∧ d.limit = d'.limit ∧ d.start = d'.start ∧
        (d = d' ∨ d.hasEnded s.clock = true) := by
    intro id d hd
    by_cases hid : c.id = id
    · obtain rfl : c.endAt s.clock = d := by simpa [hid] using hd
      exact ⟨c, hid ▸ hc, hfollows.limit, hfollows.start, .inr hended⟩
    · exact ⟨d, by simpa [hid] using hd, rfl, rfl, .inl rfl⟩
  refine { h with starts := ?_, last := ?_ }
  · intro id d l hd hl
    obtain ⟨d', hd', hlimit, hstart, -⟩ := hold id d hd
    rw [hstart]
    exact h.starts id d' l hd' (hlimit ▸ hl)
  · intro id d id' f hd hlive hf hlimit hne
    obtain ⟨d', hd', hl, hstart, rfl | hover⟩ := hold id d hd
    · obtain ⟨f', hf', hl', hstart', -⟩ := hold id' f hf
      rw [hstart']
      exact h.last id d id' f' hd' hlive hf' (by rw [← hl', hlimit]) hne
    · have hlive' : d.hasEnded s.clock = false := hlive
      rw [hover] at hlive'
      cases hlive'

/-- A cycle that is opened starts behind all cycles of its limit, and they are over. -/
theorem opened {l : Limit} {start : Instant} (hs : Coherent s) (h : Timely s)
    (hl : s.store.limit? l.id = some l)
    (hidle : ∀ d, s.store.latestCycle? l.id = some d → d.hasEnded s.clock = true)
    (hstart : l.periodStart s.clock = .ok start) (hlimit : c.limit = l.id)
    (hbegin : c.start = start) (hfree : s.store.startOf? l.id start = none) :
    Timely (s.issue.write ((s.store.indexCycle c).fileCycle c)) := by
  have hbefore : ∀ id d, s.store.cycle? id = some d → d.limit = l.id → d.start < c.start := by
    intro id d hd hdl
    obtain ⟨t, ht, hle, hdstart⟩ := h.starts id d l hd (hdl ▸ hl)
    have hmono := Limit.periodStart_mono (h.limits l.id l hl).1 ht s.plain hle hdstart hstart
    refine Instant.not_le.mp fun hge => ?_
    have heq : d.start = start := Instant.le_antisymm hmono (hbegin ▸ hge)
    have hindexed := hs.cycleIndexed id d hd
    rw [hdl, heq, hfree] at hindexed
    cases hindexed
  have hold : ∀ id d, ((s.store.indexCycle c).fileCycle c).cycle? id = some d →
      id = c.id ∧ d = c ∨ id ≠ c.id ∧ s.store.cycle? id = some d := by
    intro id d hd
    by_cases hid : c.id = id
    · exact .inl ⟨hid.symm, by simpa [hid, eq_comm] using hd⟩
    · exact .inr ⟨fun he => hid he.symm, by simpa [hid] using hd⟩
  refine { h with starts := ?_, last := ?_ }
  · intro id d m hd hm
    rcases hold id d hd with ⟨-, rfl⟩ | ⟨-, hd⟩
    · obtain rfl : l = m := Option.some.inj (hl.symm.trans (hlimit ▸ hm))
      exact ⟨s.clock, s.plain, Instant.le_refl _, hbegin ▸ hstart⟩
    · exact h.starts id d m hd hm
  · intro id d id' f hd hlive hf hfl hne
    rcases hold id d hd with ⟨hid, rfl⟩ | ⟨-, hd⟩
    · rcases hold id' f hf with ⟨hid', -⟩ | ⟨-, hf⟩
      · exact absurd (hid'.trans hid.symm) hne
      · exact hbefore id' f hf (hfl.trans hlimit)
    · rcases hold id' f hf with ⟨-, hfc⟩ | ⟨-, hf⟩
      · have hlive' : d.hasEnded s.clock = false := hlive
        rw [h.allEnded hs hidle hd (hfl.symm.trans (hfc ▸ hlimit))] at hlive'
        cases hlive'
      · exact h.last id d id' f hd hlive hf hfl hne

theorem repriced {l : Limit} (hl : s.store.limit? l.id = some l) (amount : Int) :
    ∀ id m, (s.store.fileLimit { l with amount }).limit? id = some m →
      ∃ m', s.store.limit? id = some m' ∧ m.start = m'.start ∧ m.frequency = m'.frequency ∧
        m.finish = m'.finish := by
  intro id m hm
  by_cases hid : l.id = id
  · obtain rfl : { l with amount } = m := by simpa [hid] using hm
    exact ⟨l, hid ▸ hl, rfl, rfl, rfl⟩
  · exact ⟨m, by simpa [hid] using hm, rfl, rfl, rfl⟩

theorem write (hs : Coherent s) (h : Timely s) (hw : Write final s.clock s t) (ht : t.FreshIds) :
    Timely t := by
  cases hw with
  | begin l hid hactive hstart => exact h.begin hs (hs.newLimit ht hid) hactive hstart
  | reprice l amount hl =>
    exact h.sameTimes ⟨rfl, repriced hl amount, fun _ c hc => ⟨c, hc, rfl, rfl, rfl⟩⟩
  | repriceLive l c amount hl _ _ hc =>
    exact h.sameTimes (.of_cycle (c := { c with limitAmount := amount }) rfl (repriced hl amount)
      (hs.latest hc).1 rfl rfl rfl fun id => by simp)
  | retire l hl hactive => exact h.retire hl hactive
  | close l c hl hactive hc =>
    exact (h.closed hs (hs.latest hc).1).retire (l := l) (by simpa using hl) hactive
  | opened l c start hl _ hidle hstart hc hfree =>
    obtain ⟨finish, hfresh⟩ := createCycle_fresh hc
    exact h.opened hs hl hidle hstart (by rw [hfresh]; rfl) (by rw [hfresh]; rfl) hfree
  | issue => exact h.sameTimes (.of_eq rfl rfl rfl)
  | connect => exact h.sameTimes (.of_eq rfl rfl rfl)
  | point => exact h.sameTimes (.of_eq rfl rfl rfl)
  | record => exact h.sameTimes (.of_eq rfl rfl rfl)
  | complete => exact h.sameTimes (.of_eq rfl rfl rfl)

/-- The clock stands still during a stretch, and every write in it is made at that time. -/
theorem writeAt (hs : Coherent s) (hclock : s.clock = now) (h : Timely s) (hw : Write final now s t)
    (ht : t.FreshIds) : t.clock = now ∧ Timely t := by
  subst hclock
  exact ⟨hw.clock, h.write hs hw ht⟩

theorem writes (hs : Coherent s) (h : Timely s) (hw : Writes final s.clock s t) (ht : t.FreshIds) :
    Timely t := by
  have hkept : t.clock = s.clock ∧ Timely t := by
    refine hw.keeps (I := fun u => u.clock = s.clock ∧ Timely u) hs ht ⟨rfl, h⟩ ?_
    intro a b ha hw hb hkept
    exact hkept.2.writeAt ha hkept.1 hw hb
  exact hkept.2

/-- Moving money in a cycle leaves all times as they are. -/
theorem moved (h : Timely s) (hm : Moved s t c c') : Timely t := by
  have hfields := hm.totals
  exact h.sameTimes (.of_cycle hm.clock (fun _ l hl => ⟨l, hm.limits ▸ hl, rfl, rfl, rfl⟩) hm.stored
    (by rw [hfields]) (by rw [hfields]) (by rw [hfields]) hm.cycles)

theorem stretch (hs : Coherent s) (h : Timely s) (hst : Stretch policy final s.clock s t)
    (ht : t.FreshIds) : Timely t := by
  have hkept : t.clock = s.clock ∧ Timely t := by
    refine hst.keepsMoved (I := fun u => u.clock = s.clock ∧ Timely u) hs ht ⟨rfl, h⟩ ?_ ?_
    · intro a b ha hw hb hkept
      exact hkept.2.writeAt ha hkept.1 hw hb
    · intro m c d hm hkept
      exact ⟨hm.clock.trans hkept.1, hkept.2.moved hm⟩
  exact hkept.2

theorem changed (hs : Coherent s) (h : Timely s) (hst : Changed policy True s t)
    (ht : t.FreshIds) : Timely t := by
  cases hst with
  | clock time hsteady htick =>
    subst htick
    exact h.tick (hsteady trivial)
  | work time hsteady hst =>
    obtain rfl := hsteady trivial
    exact h.stretch hs hst ht

end Timely

theorem reachable_timely (run : Run policy World.Steady (w :: path)) : Timely w.service := by
  induction run using Run.lastInduction with
  | start clock ids scan =>
    exact {
      limits := by intro _ _ h; cases h
      starts := by intro _ _ _ h; cases h
      last := by intro _ _ _ _ h; cases h
      ends := by intro _ _ _ h; cases h }
  | step run hrule hstep hfresh ih =>
    have hchanged := (run.sound.step hstep hfresh).2
    exact ih.changed run.sound.coherent (hchanged.imp fun _ => hrule) hfresh

end WalletBudget
