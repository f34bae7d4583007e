import WalletBudget.Proofs.CycleTable
import WalletBudget.Proofs.CycleTimes

/-!
The cycle of an active limit that has not ended: there is one at most, and it enforces the amount
and the currency that the limit has now.
-/

namespace WalletBudget

open Service

variable {policy : HoldPolicy} {final : Prop} {now start : Instant} {s t : Service}
  {l : Limit} {c d : Cycle} {w : World} {path : List World}

namespace Instant

variable {a b : Instant}

/-- Whole days behind an instant, at least as much time has passed, a leap second later or not. -/
theorem le_since {m : Int} {t : Instant} (ha : a.isLeap = false) (hdays : m % 86400 = 0)
    (hs : t.secs = a.secs + m) (hn : t.nanos = a.nanos) (h : t ≤ b) :
    m * 1000000000 ≤ b.since a := by
  have hrank := le_iff_rank.mp h
  have hlt := nanos_lt_of_not_leap ha
  have hcast : ((nanosPerSecond : Nat) : Int) = 1000000000 := rfl
  simp only [rank] at hrank
  simp only [since, ha, secondOfDay, hcast]
  cases hleap : b.isLeap with
  | true =>
    have hge : 1000000000 ≤ b.nanos := of_decide_eq_true hleap
    repeat' split
    all_goals omega
  | false =>
    have hb := nanos_lt_of_not_leap hleap
    simp only [Bool.false_eq_true, if_false]
    repeat' split
    all_goals omega

end Instant

/-- The period of an instant starts no earlier than a period ends that was over by then. -/
theorem Limit.periodStart_after {first stop : Instant} (hleap : l.start.isLeap = false)
    (hfirst : l.Starts first) (hstop : l.stop? first = some stop) (hle : stop ≤ now)
    (hstart : l.periodStart now = .ok start) : stop ≤ start := by
  obtain ⟨period, hperiod, hadd⟩ := Option.bind_eq_some_iff.mp hstop
  obtain ⟨hlong, hdays⟩ := period_days hperiod
  obtain ⟨j, hj⟩ := hfirst.periods hperiod
  obtain ⟨hs, hn⟩ := Instant.add?_seconds hleap hj
  have hfirst' : first.isLeap = false := by simpa [Instant.isLeap, hn] using hleap
  obtain ⟨hs', hn'⟩ := Instant.add?_seconds hfirst' hadd
  have hnext : ((j : Int) + 1) * period = j * period + period := by
    rw [Int.add_mul, Int.one_mul]
  have hj0 : 0 ≤ (j : Int) * period := Int.mul_nonneg (by omega) (by omega)
  have hlt : l.start < now := by
    rw [Instant.le_iff_rank] at hle
    rw [Instant.lt_iff_rank]
    simp only [Instant.rank] at hle ⊢
    omega
  have hpassed : ((j : Int) + 1) * period * 1000000000 ≤ now.since l.start := by
    refine Instant.le_since (t := stop) hleap ?_ (by omega) (by omega) hle
    exact Int.emod_eq_zero_of_dvd (Int.dvd_mul_of_dvd_right (Int.dvd_of_emod_eq_zero hdays))
  have hcount : (j : Int) + 1 ≤ (Instant.wholeSeconds (now.since l.start)).tdiv period := by
    have hge : 0 ≤ now.since l.start := by omega
    rw [Instant.wholeSeconds, Int.tdiv_eq_ediv_of_nonneg hge,
      Int.tdiv_eq_ediv_of_nonneg (Int.ediv_nonneg hge (by simp [nanosPerSecond]))]
    exact Int.le_ediv_of_mul_le (by omega) (Int.le_ediv_of_mul_le (by decide) hpassed)
  simp only [periodStart, hperiod, if_pos hlt] at hstart
  obtain ⟨hs'', hn''⟩ := Instant.add?_seconds hleap (orDefect_ok hstart)
  have hmul := Int.mul_le_mul_of_nonneg_right hcount (show 0 ≤ period by omega)
  rw [Instant.le_iff_rank]
  simp only [Instant.rank]
  omega

/-- A cycle that lasted for its whole period starts before the period of an instant at which it is
over. -/
theorem Cycle.Fits.start_lt_periodStart (h : c.Fits l) (hactive : l.isActive = true)
    (hleap : l.start.isLeap = false) (hended : c.hasEnded now = true)
    (hstart : l.periodStart now = .ok start) : c.start < start := by
  obtain ⟨finish, hfinish, hle⟩ := Cycle.hasEnded_iff.mp hended
  have hstop : l.stop? c.start = some finish := (h.whole hactive) ▸ hfinish
  have hnext := Limit.periodStart_after hleap h.starts hstop hle hstart
  obtain ⟨period, hperiod, hadd⟩ := Option.bind_eq_some_iff.mp hstop
  have hlt := Instant.lt_add?_seconds (Limit.period_pos hperiod) hadd
  exact Instant.not_le.mp fun hge => Instant.not_le.mpr hlt (Instant.le_trans hnext hge)

/-- The cycles of active limits that have not ended are of the amounts that the limits have. -/
def Enforced (s : Service) : Prop :=
  ∀ id c l, s.store.cycle? id = some c → s.store.limit? c.limit = some l → l.isActive = true →
    c.hasEnded s.clock = false → c.limitAmount = l.amount

namespace Enforced

/-- Limits may end, and new ones may begin that have no cycles. -/
theorem fewer (h : Enforced s) (hclock : t.clock = s.clock) (hold : Retains s t) :
    Enforced t := by
  intro id c l hc hl hactive hlive
  obtain ⟨hc', hl'⟩ := hold id c l hc hl hactive
  exact h id c l hc' hl' hactive (hclock ▸ hlive)

/-- A new amount is written into the limit and into its latest cycle, if that has not ended. -/
theorem reprice (hs : Coherent s) (htimely : Timely s) (h : Enforced s) (amount : Int)
    (hidle : ∀ d, s.store.latestCycle? l.id = some d → d.hasEnded s.clock = true) :
    Enforced (s.write (s.store.fileLimit { l with amount })) := by
  intro id c m hc hm hactive hlive
  by_cases hid : l.id = c.limit
  · have hlive' : c.hasEnded s.clock = false := hlive
    rw [htimely.allEnded hs hidle hc hid.symm] at hlive'
    cases hlive'
  · exact h id c m hc (by simpa [hid] using hm) hactive hlive

theorem repriceLive (hs : Coherent s) (htimely : Timely s) (h : Enforced s) (amount : Int)
    (hc : s.store.latestCycle? l.id = some c) :
    Enforced (s.write
      ((s.store.fileCycle { c with limitAmount := amount }).fileLimit { l with amount })) := by
  obtain ⟨-, hlimit, -⟩ := hs.latest hc
  intro id d m hd hm hactive hlive
  by_cases hid : c.id = id
  · obtain rfl : { c with limitAmount := amount } = d := by simpa [hid] using hd
    obtain rfl : { l with amount } = m := by simpa [hlimit] using hm
    rfl
  · have hd : s.store.cycle? id = some d := by simpa [hid] using hd
    by_cases hother : l.id = d.limit
    · -- Another cycle that has not ended would be the latest one instead.
      have hlatest := htimely.latest hs hd hlive
      rw [← hother, hc] at hlatest
      obtain rfl : c = d := Option.some.inj hlatest
      exact absurd (Store.cycle?_id hd) hid
    · exact h id d m hd (by simpa [hother] using hm) hactive hlive

theorem opened (h : Enforced s) (hl : s.store.limit? l.id = some l) (hlimit : c.limit = l.id)
    (hamount : c.limitAmount = l.amount) :
    Enforced (s.issue.write ((s.store.indexCycle c).fileCycle c)) := by
  intro id d m hd hm hactive hlive
  by_cases hid : c.id = id
  · obtain rfl : c = d := by simpa [hid] using hd
    obtain rfl : l = m := Option.some.inj (hl.symm.trans (hlimit ▸ hm))
    exact hamount
  · exact h id d m (by simpa [hid] using hd) hm hactive hlive

theorem write (hs : Coherent s) (htimely : Timely s) (h : Enforced s)
    (hw : Write final s.clock s t) (ht : t.FreshIds) : Enforced t := by
  cases hw with
  | begin l hid => exact h.fewer rfl (hs.retains_begin ht hid)
  | reprice l amount _ _ _ hidle => exact h.reprice hs htimely amount hidle
  | repriceLive l c amount _ _ _ hc => exact h.repriceLive hs htimely amount hc
  | retire l => exact h.fewer rfl (retains_retire s l s.clock)
  | close l c _ _ hc => exact h.fewer rfl (retains_close s (hs.latest hc).2.1 s.clock)
  | opened l c start hl _ _ _ hc =>
    have hfields := Limit.createCycle_fields hc
    exact h.opened hl hfields.limit hfields.amount
  | issue => exact h
  | connect => exact h
  | point => exact h
  | record => exact h
  | complete => exact h

/-- Moving money in a cycle changes neither its times nor its amount. -/
theorem moved (h : Enforced s) (hm : Moved s t c d) : Enforced t := by
  have hfields := hm.totals
  intro id f l hf hl hactive hlive
  rw [hm.limits] at hl
  rw [hm.clock] at hlive
  rw [hm.cycles] at hf
  split at hf
  · obtain rfl := Option.some.inj hf
    rw [hfields] at hl hlive ⊢
    exact h c.id c l hm.stored hl hactive hlive
  · exact h id f l hf hl hactive hlive

theorem stretch (hs : Coherent s) (htimely : Timely s) (h : Enforced s)
    (hst : Stretch policy final s.clock s t) (ht : t.FreshIds) : Enforced t := by
  have hkept : t.clock = s.clock ∧ Timely t ∧ Enforced t := by
    refine hst.keepsMoved (I := fun u => u.clock = s.clock ∧ Timely u ∧ Enforced u) hs ht
      ⟨rfl, htimely, h⟩ ?_ ?_
    · rintro a b hcoherent hw hb ⟨hclock, htimely, h⟩
      obtain ⟨hclock', htimely'⟩ := htimely.writeAt hcoherent hclock hw hb
      exact ⟨hclock', htimely', h.write hcoherent htimely (hclock ▸ hw) hb⟩
    · rintro m c d hm ⟨hclock, htimely, h⟩
      exact ⟨hm.clock.trans hclock, htimely.moved hm, h.moved hm⟩
  exact hkept.2.2

/-- No event of a steady run parts a cycle that has not ended from its limit. -/
theorem changed (hs : Coherent s) (htimely : Timely s) (h : Enforced s)
    (hst : Changed policy True s t) (ht : t.FreshIds) : Enforced t := by
  cases hst with
  | clock time hsteady htick =>
    subst htick
    exact fun id c l hc hl hactive hlive =>
      h id c l hc hl hactive (Cycle.live_before hlive (hsteady trivial))
  | work time hsteady hst =>
    obtain rfl := hsteady trivial
    exact h.stretch hs htimely hst ht

end Enforced

theorem reachable_enforced (run : Run policy World.Steady (w :: path)) : Enforced w.service := by
  induction run using Run.lastInduction with
  | start clock ids scan =>
    intro _ _ _ h
    cases h
  | step run hrule hstep hfresh ih =>
    have hchanged := (run.sound.step hstep hfresh).2
    exact ih.changed run.sound.coherent (reachable_timely run) (hchanged.imp fun _ => hrule) hfresh

/-- An active limit, of whatever connection, has one cycle at most that has not ended at the clock,
and that cycle has the amount and the currency that the limit has. -/
theorem live_cycle_current (run : Run policy World.Steady (w :: path)) {id : LimitId} {l : Limit}
    (hl : w.service.store.limit? id = some l) (hactive : l.isActive = true) :
    (∀ c ∈ w.service.store.cycles, ∀ d ∈ w.service.store.cycles, c.limit = id → d.limit = id →
      c.hasEnded w.service.clock = false → d.hasEnded w.service.clock = false → c = d) ∧
    ∀ c ∈ w.service.store.cycles, c.limit = id → c.hasEnded w.service.clock = false →
      c.limitAmount = l.amount ∧ c.currency = l.currency := by
  have hs := run.sound.coherent
  have htimely := reachable_timely run
  constructor
  · rintro c hc d hd rfl hlimit hclive hdlive
    have hclatest := htimely.latest hs (hs.cycles.get?_of_mem hc) hclive
    have hdlatest := htimely.latest hs (hs.cycles.get?_of_mem hd) hdlive
    rw [hlimit, hclatest] at hdlatest
    exact Option.some.inj hdlatest
  · rintro c hc rfl hlive
    have hstored := hs.cycles.get?_of_mem hc
    exact ⟨reachable_enforced run c.id c l hstored hl hactive hlive,
      (reachable_aligned run c.id c l hstored hl).currency⟩

/-- The second cycle of the sample connection, after two changes of the amount. -/
def Sample.raised : Cycle :=
  ⟨⟨Uuid.ofNat 4⟩, ⟨Uuid.ofNat 1⟩, .sat, 70, Sample.secondDay, some Sample.thirdDay, 0, 0⟩

/-- The amount is lowered while a payment is held, and raised in the next period. -/
theorem live_cycle_current_raised :
    ∃ w path l, Run .exact World.Steady (w :: path) ∧
      w.service.store.limit? ⟨Uuid.ofNat 1⟩ = some l ∧ l.isActive = true ∧
      Sample.raised ∈ w.service.store.cycles ∧
      Sample.raised.hasEnded w.service.clock = false ∧ l.amount = 70 ∧
      ∀ c ∈ w.service.store.cycles, c.limit = ⟨Uuid.ofNat 1⟩ →
        c.hasEnded w.service.clock = false → Sample.raised = c := by
  obtain ⟨w, path, run, hf⟩ := Run.reaches .exact World.Steady ⟨Sample.start, rfl⟩ Uuid.ofNat
    [ Sample.created,
      .call (.reserve Sample.connection Sample.request (Sample.intent .sat 30)),
      .call (.updateLimit Sample.connection.id ⟨true, some 20, none, some .daily⟩ Sample.start),
      .clock ⟨Sample.secondDay, rfl⟩,
      .call (.budgetView Sample.connection),
      .call (.updateLimit Sample.connection.id ⟨true, some 70, none, some .daily⟩
        Sample.secondDay) ]
    (fun w _ => (w.service.clock, decide (Sample.raised ∈ w.service.store.cycles),
      (w.service.store.limit? ⟨Uuid.ofNat 1⟩).map (·.isActive)))
    (Sample.secondDay, true, some true) (by decide +kernel)
  simp only [Prod.mk.injEq, decide_eq_true_eq] at hf
  obtain ⟨hclock, hraised, hlimit⟩ := hf
  obtain ⟨l, hl, hactive⟩ := Option.map_eq_some_iff.mp hlimit
  have hlive : Sample.raised.hasEnded w.service.clock = false := by
    rw [hclock]
    decide
  obtain ⟨hone, hcurrent⟩ := live_cycle_current run hl hactive
  refine ⟨w, path, l, run, hl, hactive, hraised, hlive, ?_, fun c hc hlimit hend => ?_⟩
  · exact (hcurrent _ hraised rfl hlive).1.symm
  · exact hone _ hraised c hc rfl hlimit hlive hend

end WalletBudget
