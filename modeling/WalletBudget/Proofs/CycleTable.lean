import WalletBudget.Proofs.Periods
import WalletBudget.Proofs.Sound
import WalletBudget.Proofs.Totals

/-!
The table of cycles: each one is found by its limit and start, lies on the periods of its limit and
overlaps no other cycle of it.

Nothing is asked of the instants that operations take for now, which may go back or lie inside leap
seconds. A limit that starts inside a leap second has its first period only: whole periods later the
leap second is over, and the start that would be next is off by a second.
-/

namespace WalletBudget

open Service

variable {policy : HoldPolicy} {rule : World → Event → Prop} {steady final : Prop}
  {now start : Instant} {s t : Service} {l l' : Limit} {c d : Cycle} {w : World} {path : List World}

/-- The instants at which a limit may have a cycle start. -/
inductive Limit.Starts (l : Limit) : Instant → Prop
  | first : l.Starts l.start
  | later (period : Int) (k : Nat) (start : Instant) (hperiod : l.frequency.period? = some period)
      (hleap : l.start.isLeap = false)
      (hstart : l.start.add? (Instant.seconds (k * period)) = some start) : l.Starts start

def Limit.stop? (l : Limit) (start : Instant) : Option Instant :=
  l.frequency.period?.bind fun period => start.add? (Instant.seconds period)

namespace Limit

theorem Starts.congr (h : l.Starts start) (hstart : l'.start = l.start)
    (hfrequency : l'.frequency = l.frequency) : l'.Starts start := by
  cases h with
  | first =>
    rw [← hstart]
    exact .first
  | later period k _ hperiod hleap hadd =>
    exact .later period k start (hfrequency ▸ hperiod) (hstart ▸ hleap) (hstart ▸ hadd)

/-- Every start is a whole number of periods after the limit's own. -/
theorem Starts.periods (h : l.Starts start) {period : Int}
    (hperiod : l.frequency.period? = some period) :
    ∃ k : Nat, l.start.add? (Instant.seconds (k * period)) = some start := by
  cases h with
  | first => exact ⟨0, by simpa using Instant.add?_zero l.start⟩
  | later p k _ hp _ hadd =>
    obtain rfl : p = period := Option.some.inj (hp.symm.trans hperiod)
    exact ⟨k, hadd⟩

theorem Starts.never (h : l.Starts start) (hnever : l.frequency.period? = none) :
    start = l.start := by
  cases h with
  | first => rfl
  | later p k _ hp => simp [hnever] at hp

/-- A limit that starts inside a leap second has one start. -/
theorem Starts.leap (h : l.Starts start) : start = l.start ∨ l.start.isLeap = false := by
  cases h with
  | first => exact .inl rfl
  | later _ _ _ _ hleap => exact .inr hleap

/-- The starts of a limit are apart by a period at least. -/
theorem Starts.apart {start' stop : Instant} (h : l.Starts start) (h' : l.Starts start')
    (hlt : start < start') (hstop : l.stop? start = some stop) : stop ≤ start' := by
  obtain ⟨period, hperiod, hadd⟩ := Option.bind_eq_some_iff.mp hstop
  have hpos := period_pos hperiod
  have hsecs : ∀ {t}, l.Starts t → l.start.isLeap = false →
      ∃ k : Nat, t.secs = l.start.secs + k * period ∧ t.nanos = l.start.nanos := by
    intro t ht hleap
    obtain ⟨k, hk⟩ := ht.periods hperiod
    exact ⟨k, Instant.add?_seconds hleap hk⟩
  have hleap : l.start.isLeap = false := by
    rcases h.leap with rfl | hleap
    · rcases h'.leap with rfl | hleap
      · exact absurd (Instant.le_refl _) (Instant.not_le.mpr hlt)
      · exact hleap
    · exact hleap
  obtain ⟨i, hi, hin⟩ := hsecs h hleap
  obtain ⟨j, hj, hjn⟩ := hsecs h' hleap
  have hstart : start.isLeap = false := by simpa [Instant.isLeap, hin] using hleap
  obtain ⟨hs, hn⟩ := Instant.add?_seconds hstart hadd
  have hij : (i : Int) < j := by
    rw [Instant.lt_iff_rank] at hlt
    simp only [Instant.rank] at hlt
    exact Int.lt_of_mul_lt_mul_right (a := period) (by omega) (Int.le_of_lt hpos)
  have hnext : ((i : Int) + 1) * period ≤ j * period :=
    Int.mul_le_mul_of_nonneg_right hij (Int.le_of_lt hpos)
  rw [Int.add_mul, Int.one_mul] at hnext
  rw [Instant.le_iff_rank]
  simp only [Instant.rank]
  omega

/-- A new cycle starts no earlier than its limit, at the end of one of its periods, and lasts for
the whole of the next. -/
theorem createCycle_ok {id : CycleId} (h : l.createCycle id start = .ok c) :
    l.start ≤ start ∧ c = .fresh id l.id l.currency l.amount start (l.stop? start) ∧
      ∀ period, l.frequency.period? = some period → l.isBoundary period start = true ∧
        ∃ stop, start.add? (Instant.seconds period) = some stop := by
  simp only [createCycle, bind, Except.bind, pure, Except.pure] at h
  split at h
  · cases h
  rename_i hbegun
  have hle : l.start ≤ start := Instant.not_lt.mp hbegun
  cases hperiod : l.frequency.period? with
  | none =>
    simp only [hperiod] at h
    cases h
    exact ⟨hle, by simp [stop?, hperiod], by simp⟩
  | some period =>
    simp only [hperiod] at h
    cases hboundary : l.isBoundary period start with
    | false => simp [hboundary] at h
    | true =>
      cases hadd : start.add? (Instant.seconds period) with
      | none => simp [hboundary, hadd, orDefect, Functor.map, Except.map] at h
      | some stop =>
        simp only [hboundary, hadd, orDefect, Functor.map, Except.map, if_true] at h
        cases h
        refine ⟨hle, by simp [stop?, hperiod, hadd], ?_⟩
        intro p hp
        obtain rfl := Option.some.inj hp
        exact ⟨hboundary, stop, hadd⟩

structure Opens (l : Limit) (cycle : CycleId) (first : Instant) (c : Cycle) : Prop where
  id : c.id = cycle
  limit : c.limit = l.id
  start : c.start = first
  finish : c.finish = l.stop? first
  amount : c.limitAmount = l.amount

theorem createCycle_fields {id : CycleId} (h : l.createCycle id start = .ok c) :
    l.Opens id start c := by
  obtain ⟨-, hfresh, -⟩ := createCycle_ok h
  rw [hfresh]
  exact ⟨rfl, rfl, rfl, rfl, rfl⟩

/-- A start that was computed for an instant and passed the check of a new cycle. -/
theorem starts_of_createCycle {id : CycleId} (hstart : l.periodStart now = .ok start)
    (hc : l.createCycle id start = .ok c) : l.Starts start := by
  cases hperiod : l.frequency.period? with
  | none =>
    simp only [periodStart, hperiod] at hstart
    cases hstart
    exact .first
  | some period =>
    simp only [periodStart, hperiod] at hstart
    split at hstart
    · rename_i hlt
      obtain ⟨k, hk, -⟩ := exists_passed hperiod hlt
      rw [hk] at hstart
      have hadd := orDefect_ok hstart
      cases hleap : l.start.isLeap with
      | false => exact .later period k start hperiod hleap hadd
      | true =>
        cases k with
        | zero =>
          obtain rfl : l.start = start := by
            simpa [Instant.add?_zero] using hadd
          exact .first
        | succ k =>
          have hoff := isBoundary_leap hperiod hleap k.succ_pos hadd
          rw [((createCycle_ok hc).2.2 period hperiod).1] at hoff
          cases hoff
    · cases hstart
      exact .first

end Limit

structure Cycle.Fits (c : Cycle) (l : Limit) : Prop where
  currency : c.currency = l.currency
  starts : l.Starts c.start
  /-- Its end is known if the limit is periodic, and at most a period away. -/
  within : ∀ period, l.frequency.period? = some period → ∃ stop finish,
    c.start.add? (Instant.seconds period) = some stop ∧ c.finish = some finish ∧ finish ≤ stop
  ordered : ∀ finish, c.finish = some finish → c.start ≤ finish
  /-- The cycles of an active limit were not ended early. -/
  whole : l.isActive = true → c.finish = l.stop? c.start

namespace Cycle.Fits

theorem congr (h : c.Fits l) (hcurrency : d.currency = c.currency) (hstart : d.start = c.start)
    (hfinish : d.finish = c.finish) : d.Fits l where
  currency := hcurrency.trans h.currency
  starts := hstart ▸ h.starts
  within := by
    rw [hstart, hfinish]
    exact h.within
  ordered := by
    rw [hstart, hfinish]
    exact h.ordered
  whole := by
    rw [hstart, hfinish]
    exact h.whole

/-- A cycle fits every later record of its limit. -/
theorem follows (h : c.Fits l) (hl : l.Follows l') : c.Fits l' where
  currency := h.currency.trans hl.currency.symm
  starts := h.starts.congr hl.start hl.frequency
  within period hperiod := h.within period (hl.frequency ▸ hperiod)
  ordered := h.ordered
  whole hactive := by
    rw [h.whole (hl.active hactive)]
    simp only [Limit.stop?, hl.frequency]

/-- Ended early, a cycle still fits its limit if that has ended. -/
theorem endAt (h : c.Fits l) (hended : l.isActive = false) (now : Instant) :
    (c.endAt now).Fits l := by
  have hfields := Cycle.endAt_fields c now
  rcases Cycle.endAt_cases c now with hsame | ⟨hfinish, hearly⟩
  · exact h.congr (by rw [hfields]) (by rw [hfields]) hsame
  · have hstart : (c.endAt now).start = c.start := by rw [hfields]
    constructor
    · rw [hfields]
      exact h.currency
    · exact hstart ▸ h.starts
    · intro period hperiod
      obtain ⟨stop, old, hstop, hold, hle⟩ := h.within period hperiod
      exact ⟨stop, _, hstart ▸ hstop, hfinish, Instant.le_trans (hearly old hold) hle⟩
    · intro f hf
      obtain rfl := Option.some.inj (hfinish.symm.trans hf)
      rw [hstart]
      exact (Instant.later_le_iff.mp (Instant.le_refl _)).2
    · intro hactive
      rw [hended] at hactive
      cases hactive

end Cycle.Fits

/-- A new cycle fits its limit. -/
theorem Limit.createCycle_fits {id : CycleId} (hstart : l.periodStart now = .ok start)
    (hc : l.createCycle id start = .ok c) : c.Fits l := by
  obtain ⟨-, hfresh, hboundary⟩ := createCycle_ok hc
  have hstarts := starts_of_createCycle hstart hc
  subst hfresh
  constructor
  · rfl
  · exact hstarts
  · intro period hperiod
    obtain ⟨-, stop, hstop⟩ := hboundary period hperiod
    exact ⟨stop, stop, hstop, by simp [Cycle.fresh, stop?, hperiod, hstop], Instant.le_refl _⟩
  · intro finish hfinish
    obtain ⟨period, hperiod, hadd⟩ := Option.bind_eq_some_iff.mp hfinish
    exact Instant.le_of_lt (Instant.lt_add?_seconds (period_pos hperiod) hadd)
  · exact fun _ => rfl

namespace Service

def Aligned (s : Service) : Prop :=
  ∀ id c l, s.store.cycle? id = some c → s.store.limit? c.limit = some l → c.Fits l

namespace Aligned

theorem fileLimit (h : Aligned s)
    (hl : ∀ id c, s.store.cycle? id = some c → c.limit = l.id → c.Fits l) :
    Aligned (s.write (s.store.fileLimit l)) := by
  intro id c l' hc hl'
  by_cases hid : l.id = c.limit
  · obtain rfl : l = l' := by simpa [hid] using hl'
    exact hl id c hc hid.symm
  · exact h id c l' hc (by simpa [hid] using hl')

theorem fileCycle (h : Aligned s) (hc : ∀ l, s.store.limit? c.limit = some l → c.Fits l) :
    Aligned (s.write (s.store.fileCycle c)) := by
  intro id d l hd hl
  by_cases hid : c.id = id
  · obtain rfl : c = d := by simpa [hid] using hd
    exact hc l hl
  · exact h id d l (by simpa [hid] using hd) hl

/-- A stored limit may be written again in any form that it may take on. -/
theorem evolve (h : Aligned s) (hid : l'.id = l.id) (hl : s.store.limit? l.id = some l)
    (hfollows : l.Follows l') : Aligned (s.write (s.store.fileLimit l')) :=
  h.fileLimit fun id c hc hlimit => (h id c l hc (by rw [hlimit, hid, hl])).follows hfollows

/-- A stored cycle may be written again with other amounts. -/
theorem rewrite (h : Aligned s) (hc : s.store.cycle? c.id = some c) (hlimit : d.limit = c.limit)
    (hcurrency : d.currency = c.currency) (hstart : d.start = c.start)
    (hfinish : d.finish = c.finish) : Aligned (s.write (s.store.fileCycle d)) :=
  h.fileCycle fun l hl => (h c.id c l hc (hlimit ▸ hl)).congr hcurrency hstart hfinish

theorem write (hs : Coherent s) (h : Aligned s) (hw : Write final now s t) (ht : t.FreshIds) :
    Aligned t := by
  cases hw with
  | begin l hid =>
    refine h.fileLimit (s := s) fun id c hc hlimit => ?_
    obtain ⟨old, hold⟩ := hs.cycleLimit id c hc
    rw [hlimit, hs.newLimit ht hid] at hold
    cases hold
  | reprice l amount hl hactive =>
    exact h.evolve (l := l) rfl hl ⟨rfl, rfl, rfl, rfl, fun h => by simp [hactive] at h⟩
  | repriceLive l c amount hl hactive _ hc =>
    have hcycle :=
      h.rewrite (d := { c with limitAmount := amount }) (hs.latest hc).1 rfl rfl rfl rfl
    exact hcycle.evolve (l := l) rfl hl ⟨rfl, rfl, rfl, rfl, fun h => by simp [hactive] at h⟩
  | retire l hl => exact h.evolve (deactivate_id l now) hl (deactivate_follows l now)
  | close l c hl _ hc =>
    obtain ⟨hstored, hlimit, -⟩ := hs.latest hc
    have hlimits := h.evolve (deactivate_id l now) hl (deactivate_follows l now)
    refine hlimits.fileCycle fun l' hl' => ?_
    rw [(endAt_follows c now).limit, hlimit] at hl'
    obtain rfl : l.deactivate now = l' := by simpa using hl'
    refine Cycle.Fits.endAt ?_ (deactivate_inactive l now) now
    exact (h c.id c l hstored (hlimit ▸ hl)).follows (deactivate_follows l now)
  | opened l c start hl _ _ hstart hc =>
    refine h.fileCycle (s := s) fun l' hl' => ?_
    have hlimit := (Limit.createCycle_fields hc).limit
    obtain rfl : l = l' := Option.some.inj (hl.symm.trans (hlimit ▸ hl'))
    exact Limit.createCycle_fits hstart hc
  | issue => exact h
  | connect => exact h
  | point => exact h
  | record => exact h
  | complete => exact h

theorem moved (h : Aligned s) (hm : Moved s t c d) : Aligned t := by
  intro id f l hf hl
  rw [hm.limits] at hl
  rw [hm.cycles] at hf
  split at hf
  · obtain rfl := Option.some.inj hf
    have hfields := hm.totals
    refine (h c.id c l hm.stored ?_).congr (by rw [hfields]) (by rw [hfields]) (by rw [hfields])
    rw [hfields] at hl
    exact hl
  · exact h id f l hf hl

/-- No event breaks the fit, whatever the clock reads. -/
theorem changed (hs : Coherent s) (h : Aligned s) (hst : Changed policy steady s t)
    (ht : t.FreshIds) : Aligned t := by
  cases hst with
  | clock time _ htick =>
    subst htick
    exact h
  | work time _ hst =>
    exact hst.keepsMoved hs ht h (fun a b ha hw hb h => h.write ha hw hb)
      fun m c d hm h => h.moved hm

end Aligned

end Service

/-- Two cycles of a limit that both fit it do not overlap, unless they start together. -/
theorem Cycle.Fits.disjoint (hc : c.Fits l) (hd : d.Fits l) (hlt : c.start < d.start)
    (hend : c.hasEnded d.start = false) : False := by
  cases hperiod : l.frequency.period? with
  | none =>
    rw [hc.starts.never hperiod, hd.starts.never hperiod] at hlt
    exact Instant.not_le.mpr hlt (Instant.le_refl _)
  | some period =>
    obtain ⟨stop, finish, hstop, hfinish, hle⟩ := hc.within period hperiod
    have hstop' : l.stop? c.start = some stop := by simp [Limit.stop?, hperiod, hstop]
    have hapart := hc.starts.apart hd.starts hlt hstop'
    rw [Cycle.hasEnded_iff.mpr ⟨finish, hfinish, Instant.le_trans hle hapart⟩] at hend
    cases hend

theorem reachable_aligned (run : Run policy rule (w :: path)) : Aligned w.service :=
  run.holds False (fun _ _ _ h => h.elim) (by intro _ _ _ _ _ _ h; cases h)
    fun _ _ hs ht hst h => h.changed hs hst ht

namespace Service

/-- The cycles of limits that are active later are there before, with those limits as they are. -/
def Retains (s t : Service) : Prop :=
  ∀ id c l, t.store.cycle? id = some c → t.store.limit? c.limit = some l → l.isActive = true →
    s.store.cycle? id = some c ∧ s.store.limit? c.limit = some l

/-- A new limit has no cycles yet. -/
theorem Coherent.retains_begin (hs : Coherent s) (ht : s.issue.FreshIds) (hid : l.id = ⟨s.next⟩) :
    Retains s (s.issue.write (s.store.fileLimit l)) := by
  intro id c m hc hm _
  have hc : s.store.cycle? id = some c := hc
  refine ⟨hc, ?_⟩
  by_cases heq : l.id = c.limit
  · obtain ⟨old, hold⟩ := hs.cycleLimit id c hc
    rw [← heq, hs.newLimit ht hid] at hold
    cases hold
  · simpa [heq] using hm

theorem retains_retire (s : Service) (l : Limit) (now : Instant) :
    Retains s (s.write (s.store.fileLimit (l.deactivate now))) := by
  intro id c m hc hm hactive
  refine ⟨hc, ?_⟩
  by_cases heq : l.id = c.limit
  · obtain rfl : l.deactivate now = m := by simpa [heq] using hm
    rw [deactivate_inactive] at hactive
    cases hactive
  · simpa [heq] using hm

theorem retains_close (s : Service) (hlimit : c.limit = l.id) (now : Instant) :
    Retains s (s.write ((s.store.fileLimit (l.deactivate now)).fileCycle (c.endAt now))) := by
  intro id d m hd hm hactive
  by_cases heq : l.id = d.limit
  · obtain rfl : l.deactivate now = m := by simpa [heq] using hm
    rw [deactivate_inactive] at hactive
    cases hactive
  · by_cases hid : c.id = id
    · obtain rfl : c.endAt now = d := by simpa [hid] using hd
      rw [(endAt_follows c now).limit] at heq
      exact absurd hlimit.symm heq
    · exact ⟨by simpa [hid] using hd, by simpa [heq] using hm⟩

end Service

/-- No instant lies in two cycles of a limit. -/
theorem Service.Aligned.disjoint (hs : Coherent s) (h : Aligned s) (hc : c ∈ s.store.cycles)
    (hd : d ∈ s.store.cycles) (hlimit : c.limit = d.limit) (hne : c ≠ d) (t : Instant) :
    ¬ (c.start ≤ t ∧ c.hasEnded t = false ∧ d.start ≤ t ∧ d.hasEnded t = false) := by
  obtain ⟨l, hl⟩ := hs.cycleLimit c.id c (hs.cycles.get?_of_mem hc)
  have hcfits := h c.id c l (hs.cycles.get?_of_mem hc) hl
  have hdfits := h d.id d l (hs.cycles.get?_of_mem hd) (hlimit ▸ hl)
  have hlive : ∀ {e : Cycle} {u : Instant}, u ≤ t → e.hasEnded t = false →
      e.hasEnded u = false := by
    intro e u hle hend
    cases hover : e.hasEnded u with
    | false => rfl
    | true => rw [Cycle.hasEnded_mono hover hle] at hend; exact hend
  rintro ⟨hct, hcend, hdt, hdend⟩
  by_cases hle : c.start ≤ d.start
  · have hlt : c.start < d.start := Instant.not_le.mp fun hge =>
      hne (hs.cycle_eq hc hd hlimit (Instant.le_antisymm hle hge))
    exact hcfits.disjoint hdfits hlt (hlive hdt hcend)
  · exact hdfits.disjoint hcfits (Instant.not_le.mp hle) (hlive hct hdend)

/-- The index finds exactly the stored cycles, no two cycles of a limit start together or overlap,
and every cycle lies on the periods of its limit. A limit that never renews has one cycle at most.
-/
theorem cycle_table_sound (run : Run policy rule (w :: path)) :
    (∀ limit start id, (w.service.store.startOf? limit start).map (·.cycle) = some id ↔
      ∃ c, w.service.store.cycle? id = some c ∧ c.limit = limit ∧ c.start = start) ∧
    (∀ c ∈ w.service.store.cycles, ∀ d ∈ w.service.store.cycles, c.limit = d.limit → c ≠ d →
      c.start ≠ d.start ∧
        ∀ t, ¬ (c.start ≤ t ∧ c.hasEnded t = false ∧ d.start ≤ t ∧ d.hasEnded t = false)) ∧
    ∀ c ∈ w.service.store.cycles, ∃ l, w.service.store.limit? c.limit = some l ∧
      match l.frequency.period? with
      | some period => ∃ (k : Nat) (stop finish : Instant),
        l.start.add? (Instant.seconds (k * period)) = some c.start ∧
        c.start.add? (Instant.seconds period) = some stop ∧
        c.finish = some finish ∧ c.start ≤ finish ∧ finish ≤ stop
      | none => c.start = l.start ∧
        ∀ d ∈ w.service.store.cycles, d.limit = c.limit → d = c := by
  have hs := run.sound.coherent
  have haligned := reachable_aligned run
  refine ⟨fun limit start id => ⟨fun h => ?_, ?_⟩, fun c hc d hd hlimit hne => ?_, fun c hc => ?_⟩
  · obtain ⟨x, hx, rfl⟩ := Option.map_eq_some_iff.mp h
    exact hs.indexCycle limit start x hx
  · rintro ⟨c, hc, rfl, rfl⟩
    rw [hs.cycleIndexed id c hc]
    rfl
  · exact ⟨fun hstart => hne (hs.cycle_eq hc hd hlimit hstart),
      haligned.disjoint hs hc hd hlimit hne⟩
  · have hstored := hs.cycles.get?_of_mem hc
    obtain ⟨l, hl⟩ := hs.cycleLimit c.id c hstored
    have hfits := haligned c.id c l hstored hl
    refine ⟨l, hl, ?_⟩
    cases hperiod : l.frequency.period? with
    | some period =>
      obtain ⟨k, hk⟩ := hfits.starts.periods hperiod
      obtain ⟨stop, finish, hstop, hfinish, hle⟩ := hfits.within period hperiod
      exact ⟨k, stop, finish, hk, hstop, hfinish, hfits.ordered finish hfinish, hle⟩
    | none =>
      refine ⟨hfits.starts.never hperiod, fun d hd hlimit => hs.cycle_eq hd hc hlimit ?_⟩
      have hother := haligned d.id d l (hs.cycles.get?_of_mem hd) (hlimit ▸ hl)
      rw [hother.starts.never hperiod, hfits.starts.never hperiod]

/-- The first two cycles of the sample connection, the second one opened at noon of the third day
and closed after the clock went back to the second. -/
def Sample.early : Cycle :=
  ⟨⟨Uuid.ofNat 2⟩, ⟨Uuid.ofNat 1⟩, .sat, 100, Sample.start, some Sample.secondDay, 0, 0⟩

def Sample.emptied : Cycle :=
  ⟨⟨Uuid.ofNat 3⟩, ⟨Uuid.ofNat 1⟩, .sat, 100, Sample.thirdDay, some Sample.thirdDay, 0, 30⟩

theorem cycle_table_sound_clock_back :
    ∃ w path, Run .exact (fun _ _ => True) (w :: path) ∧
      w.service.clock < Sample.thirdDay ∧
      (w.service.store.startOf? ⟨Uuid.ofNat 1⟩ Sample.thirdDay).map (·.cycle) =
        some ⟨Uuid.ofNat 3⟩ ∧
      (∀ t, ¬ (Sample.early.start ≤ t ∧ Sample.early.hasEnded t = false ∧
        Sample.thirdDay ≤ t ∧ Sample.emptied.hasEnded t = false)) ∧
      ∃ k : Nat, Sample.start.add? (Instant.seconds (k * 86400)) = some Sample.thirdDay := by
  obtain ⟨w, path, run, hf⟩ := Run.reaches .exact (fun _ _ => True) ⟨Sample.start, rfl⟩ Uuid.ofNat
    [ Sample.created,
      .clock ⟨⟨1704283200, 500000000, by decide, by decide, by decide⟩, rfl⟩,
      .call (.reserve Sample.connection Sample.request (Sample.intent .sat 30)),
      .clock ⟨Sample.secondDay, rfl⟩,
      .call (.updateLimit Sample.connection.id .disable Sample.secondDay) ]
    (fun w _ => (decide (w.service.clock < Sample.thirdDay),
      w.service.store.cycles, (w.service.store.limit? ⟨Uuid.ofNat 1⟩).map
        fun l => (l.start, l.frequency)))
    (true, [Sample.early, Sample.emptied], some (Sample.start, .daily)) (by decide +kernel)
  simp only [Prod.mk.injEq, decide_eq_true_eq] at hf
  obtain ⟨hclock, hcycles, hlimit⟩ := hf
  obtain ⟨hindex, hapart, hfits⟩ := cycle_table_sound run
  have hearly : Sample.early ∈ w.service.store.cycles := by simp [hcycles]
  have hemptied : Sample.emptied ∈ w.service.store.cycles := by simp [hcycles]
  refine ⟨w, path, run, hclock, ?_, (hapart _ hearly _ hemptied rfl (by decide)).2, ?_⟩
  · refine (hindex _ _ _).mpr ⟨Sample.emptied, ?_, rfl, rfl⟩
    simp only [Store.cycle?, hcycles]
    decide
  · obtain ⟨l, hl, hshape⟩ := hfits _ hemptied
    obtain ⟨l', hl', hread⟩ := Option.map_eq_some_iff.mp hlimit
    obtain rfl : l = l' := Option.some.inj (hl.symm.trans hl')
    simp only [Prod.mk.injEq] at hread
    obtain ⟨hstart, hfrequency⟩ := hread
    rw [hfrequency] at hshape
    obtain ⟨k, -, -, hk, -⟩ := hshape
    exact ⟨k, hstart ▸ hk⟩

end WalletBudget
