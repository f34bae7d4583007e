import WalletBudget.Proofs.CycleTable
import WalletBudget.Proofs.Periods
import WalletBudget.Proofs.WrittenInstants

/-!
Whether a limit can be renewed: the start that is computed for its next cycle has to pass the check
of a new cycle.

Seconds that are added to an instant outside leap seconds are the seconds that have passed since, in
a leap second or not, so the start of a period passes. A limit that starts inside a leap second
leaves it with its second period, which the check finds a second too short. Such a limit has its
first cycle and no other, and once a period has passed every search for its cycle stops at a defect.
-/

namespace WalletBudget

open Service

variable {policy : HoldPolicy} {rule : World → Event → Prop} {period : Int} {now s t : Instant}
  {l : Limit} {c : Cycle}

namespace Instant

variable {a b : Instant}

/-- Whole days after a leap second have passed only when as many days lie behind it. -/
theorem add?_days_le {n : Int} (ha : a.isLeap = true) (hminute : a.Aligned) (hpos : 0 < n)
    (hdays : n % 86400 = 0) (hpassed : n ≤ wholeSeconds (b.since a))
    (h : a.add? (seconds n) = some t) : t ≤ b := by
  obtain ⟨hs, hn⟩ := add?_seconds_leap ha hpos h
  have hlast := hminute ha
  have hge : 1000000000 ≤ a.nanos := of_decide_eq_true ha
  have hlt := a.nanos_lt
  have hb := b.nanos_lt
  have hsince : n * 1000000000 ≤ b.since a := by
    rw [wholeSeconds_of_nonneg (nonneg_of_wholeSeconds (by omega))] at hpassed
    omega
  have hcast : ((nanosPerSecond : Nat) : Int) = 1000000000 := rfl
  simp only [since, secondOfDay, ha, if_true, hcast] at hsince
  simp only [nanosPerSecond] at hlt hb
  rw [le_iff_rank]
  simp only [rank]
  cases hleap : b.isLeap with
  | false =>
    have hb' := nanos_lt_of_not_leap hleap
    simp only [hleap, Bool.false_eq_true, if_false] at hsince
    split at hsince
    · omega
    · split at hsince <;> omega
  | true =>
    have hge' : 1000000000 ≤ b.nanos := of_decide_eq_true hleap
    simp only [hleap, if_true] at hsince
    split at hsince
    · omega
    · split at hsince <;> omega

end Instant

namespace Limit

/-- The limit starts inside a leap second, and a whole period has passed since. -/
def Stranded (l : Limit) (now : Instant) : Prop :=
  l.start.isLeap = true ∧ l.start < now ∧ ∃ period, l.frequency.period? = some period ∧
    period ≤ Instant.wholeSeconds (now.since l.start)

theorem stranded_iff (hperiod : l.frequency.period? = some period) (hlt : l.start < now) :
    l.Stranded now ↔ l.start.isLeap = true ∧
      0 < (Instant.wholeSeconds (now.since l.start)).tdiv period := by
  have hpos := period_pos hperiod
  rw [Int.tdiv_eq_ediv_of_nonneg (Instant.wholeSeconds_since_nonneg (Instant.le_of_lt hlt))]
  simp only [Stranded, hperiod, Option.some.injEq, hlt, true_and]
  refine and_congr_right fun _ => ⟨?_, fun hone => ⟨period, rfl, ?_⟩⟩
  · rintro ⟨_, rfl, hle⟩
    exact Int.le_ediv_of_mul_le hpos (by rwa [Int.zero_add, Int.one_mul])
  · rw [← Int.one_mul period]
    exact Int.mul_le_of_le_ediv hpos hone

/-- A later period of a limit can have a cycle unless the limit starts inside a leap second. -/
theorem createCycle_later (hperiod : l.frequency.period? = some period) {k : Nat}
    (hadd : l.start.add? (Instant.seconds ((k + 1 : Nat) * period)) = some s)
    (hearly : s.secs ≤ Instant.readableSeconds + 2) (id : CycleId) :
    if l.start.isLeap then
      l.createCycle id s = .error (.cycleOffPeriod s l.id l.frequency l.start)
    else ∃ c, l.createCycle id s = .ok c := by
  have hpos := period_pos hperiod
  have hle : l.start ≤ s :=
    Instant.le_of_lt (Instant.lt_add?_seconds (Int.mul_pos (by omega) hpos) hadd)
  cases hleap : l.start.isLeap with
  | true => exact (boundary_after_leap_second hperiod hleap hadd).2 id
  | false =>
    have hboundary : l.Boundary period s := ⟨k + 1, hadd⟩
    have haccepted := (isBoundary_iff hleap (hboundary.not_leap hleap) hpos hle).mpr hboundary
    have hyear := period_le hperiod
    obtain ⟨finish, hfinish⟩ := Instant.add?_seconds_isSome (t := s) hpos (by
      simp only [Instant.readableSeconds] at hearly
      simp only [Instant.lastSecond]
      omega)
    exact ⟨_, createCycle_accepted hperiod hle haccepted hfinish id⟩

/-- What comes of the start of a limit's next cycle. -/
def Renews (l : Limit) (now first : Instant) (id : CycleId) : Prop :=
  l.Stranded now ∧
      l.createCycle id first = .error (.cycleOffPeriod first l.id l.frequency l.start) ∨
    ¬ l.Stranded now ∧ ∃ c, l.createCycle id first = .ok c

/-- The period of a readable instant can have a cycle, unless the limit is stranded then. -/
theorem renewal (hstart : l.start.Readable) (hread : now.Readable) :
    ∃ first, l.periodStart now = .ok first ∧ ∀ id, l.Renews now first id := by
  have hfirst : ¬ l.Stranded now → ∀ id, l.Renews now l.start id :=
    fun hfree id => .inr ⟨hfree, createCycle_first hstart id⟩
  cases hperiod : l.frequency.period? with
  | none =>
    refine ⟨l.start, by simp only [periodStart, hperiod], hfirst ?_⟩
    rintro ⟨-, -, period, h, -⟩
    rw [hperiod] at h
    cases h
  | some period =>
    by_cases hlt : l.start < now
    · obtain ⟨k, s, hk, hadd, hs, hearly⟩ := periodStart_passed hperiod hlt hread
      have hstranded := stranded_iff hperiod hlt
      rw [hk] at hstranded
      refine ⟨s, hs, ?_⟩
      cases k with
      | zero =>
        obtain rfl : l.start = s := by simpa [Instant.add?_zero] using hadd
        exact hfirst fun h => absurd (hstranded.mp h).2 (by decide)
      | succ k =>
        intro id
        have hlater := createCycle_later hperiod hadd hearly id
        cases hleap : l.start.isLeap with
        | true => exact .inl ⟨hstranded.mpr ⟨hleap, by omega⟩, by simpa [hleap] using hlater⟩
        | false =>
          refine .inr ⟨fun h => ?_, by simpa [hleap] using hlater⟩
          rw [h.1] at hleap
          cases hleap
    · refine ⟨l.start, ?_, hfirst fun h => hlt h.2.1⟩
      simp only [periodStart, hperiod, if_neg hlt]

/-- The one cycle of a stranded limit has ended. -/
theorem Stranded.ended (h : l.Stranded now) (hstart : l.start.Readable) (hc : c.Fits l) :
    c.hasEnded now = true := by
  obtain ⟨hleap, -, period, hperiod, hpassed⟩ := h
  have hbegin : c.start = l.start := by
    rcases hc.starts.leap with hbegin | hcalm
    · exact hbegin
    · rw [hleap] at hcalm
      cases hcalm
  obtain ⟨stop, finish, hstop, hfinish, hle⟩ := hc.within period hperiod
  rw [hbegin] at hstop
  have hover : stop ≤ now := Instant.add?_days_le hleap hstart.aligned (period_pos hperiod)
    (period_days hperiod).2 hpassed hstop
  exact Cycle.hasEnded_iff.mpr ⟨finish, hfinish, Instant.le_trans hle hover⟩

end Limit

/-- At a readable instant the start of the period can be computed, and a cycle begins there unless
the limit is stranded. The search for the cycle of a stored limit has an answer unless the limit is
stranded; then it stops at the check of the new cycle, and has written nothing. -/
theorem renewal_unless_stranded (hstart : l.start.Readable) (hread : now.Readable) :
    ∃ first, l.periodStart now = .ok first ∧
      (∀ id, (l.Stranded now →
          l.createCycle id first = .error (.cycleOffPeriod first l.id l.frequency l.start)) ∧
        (¬ l.Stranded now → ∃ c, l.createCycle id first = .ok c)) ∧
      ∀ {policy rule w past}, Run policy rule (w :: past) →
        w.service.store.limit? l.id = some l →
        ∃ r t, currentCycle l now w.service = .done r t ∧
          (l.Stranded now →
            r = .error (.broken (.cycleOffPeriod first l.id l.frequency l.start)) ∧
            t.store = w.service.store) ∧
          (¬ l.Stranded now → ∃ c, r = .ok c) := by
  obtain ⟨first, hfirst, hcreates⟩ := Limit.renewal hstart hread
  refine ⟨first, hfirst, fun id => ?_, fun {_ _ w _} run hl => ?_⟩
  · rcases hcreates id with ⟨hstranded, hc⟩ | ⟨hfree, hc⟩
    · exact ⟨fun _ => hc, fun hfree => absurd hstranded hfree⟩
    · exact ⟨fun hstranded => absurd hstranded hfree, fun _ => hc⟩
  · have hs := run.sound.coherent
    obtain ⟨r, t, hrun, hfound⟩ := currentCycle_found hs.quiet l now
    refine ⟨r, t, hrun, ?_⟩
    cases hfound with
    | latest c hc hlive =>
      refine ⟨fun hstranded => ?_, fun _ => ⟨c, rfl⟩⟩
      obtain ⟨hstored, howner, -⟩ := hs.latest hc
      have hfits := reachable_aligned run c.id c l hstored (howner ▸ hl)
      rw [hstranded.ended hstart hfits] at hlive
      cases hlive
    | opened c first' _ hfirst' hc =>
      obtain rfl : first = first' := Except.ok.inj (hfirst.symm.trans hfirst')
      refine ⟨fun hstranded => ?_, fun _ => ⟨c, rfl⟩⟩
      rcases hcreates ⟨w.service.next⟩ with ⟨-, hoff⟩ | ⟨hfree, -⟩
      · rw [hc] at hoff
        cases hoff
      · exact absurd hstranded hfree
    | taken c first' x _ hfirst' hx =>
      obtain rfl : first = first' := Except.ok.inj (hfirst.symm.trans hfirst')
      refine ⟨fun hstranded => ?_, fun _ => ⟨c, rfl⟩⟩
      -- The limit has no cycle but its first, which is not refused.
      obtain ⟨d, hd, howner, hbegin⟩ := hs.indexCycle l.id first x hx
      have hfits := reachable_aligned run x.cycle d l hd (howner ▸ hl)
      rcases hfits.starts.leap with hsame | hcalm
      · obtain ⟨_, hok⟩ := Limit.createCycle_first hstart ⟨w.service.next⟩
        rcases hcreates ⟨w.service.next⟩ with ⟨-, hoff⟩ | ⟨hfree, -⟩
        · rw [← hbegin, hsame, hok] at hoff
          cases hoff
        · exact absurd hstranded hfree
      · rw [hstranded.1] at hcalm
        cases hcalm
    | lost first' x hx hc =>
      obtain ⟨c, hstored, -⟩ := hs.indexCycle l.id first' x hx
      rw [hc] at hstored
      cases hstored
    | noPeriod d hnone =>
      rw [hfirst] at hnone
      cases hnone
    | noCycle d first' hfirst' hc =>
      obtain rfl : first = first' := Except.ok.inj (hfirst.symm.trans hfirst')
      rcases hcreates ⟨w.service.next⟩ with ⟨hstranded, hoff⟩ | ⟨-, hok⟩
      · obtain rfl := Except.error.inj (hc.symm.trans hoff)
        exact ⟨fun _ => ⟨rfl, rfl⟩, fun hfree => absurd hstranded hfree⟩
      · obtain ⟨c, hok⟩ := hok
        rw [hc] at hok
        cases hok

/-- Noon in the second day of a limit that starts inside that leap second. -/
def Sample.leapNoon : Instant :=
  { Sample.start with secs := 1435838400, first_le := by decide, le_last := by decide }

/-- A daily limit that was created in a leap second has an answer when its first cycle ends, and is
stranded by noon of the next day. -/
theorem renewal_stops_after_leap_second :
    ∃ w past first t, Run .exact (fun _ _ => True) (w :: past) ∧
      w.service.store.limit? ⟨Uuid.ofNat 1⟩ = some (Sample.daily Sample.leapStart) ∧
      Sample.leapStart.Readable ∧ Sample.leapNoon.Readable ∧
      currentCycle (Sample.daily Sample.leapStart) Sample.leapNoon w.service = .done
        (.error (.broken (.cycleOffPeriod first ⟨Uuid.ofNat 1⟩ .daily Sample.leapStart))) t ∧
      ∃ c u, currentCycle (Sample.daily Sample.leapStart) Sample.leapNext w.service =
        .done (.ok c) u := by
  obtain ⟨w, past, run, hf⟩ := Run.reaches .exact (fun _ _ => True) ⟨Sample.leapNext, rfl⟩
    Uuid.ofNat
    [.call (.createConnection .sat none (some ⟨true, some 100, none, some .daily⟩)
      Sample.leapStart)]
    (fun w _ => w.service.store.limit? ⟨Uuid.ofNat 1⟩) (some (Sample.daily Sample.leapStart))
    (by decide +kernel)
  have hstart : (Sample.daily Sample.leapStart).start.Readable :=
    ⟨"2015-06-30T23:59:60.75Z", by decide +kernel⟩
  have hnoon : Sample.leapNoon.Readable := ⟨"2015-07-02T12:00:00Z", by decide +kernel⟩
  have hstranded : (Sample.daily Sample.leapStart).Stranded Sample.leapNoon :=
    ⟨by decide, by decide, 86400, rfl, by decide⟩
  have hnext : Sample.leapNext.Readable := ⟨"2015-07-01T23:59:59.75Z", by decide +kernel⟩
  have hfree : ¬ (Sample.daily Sample.leapStart).Stranded Sample.leapNext := by
    rintro ⟨-, -, period, hperiod, hpassed⟩
    cases hperiod
    revert hpassed
    decide
  obtain ⟨first, -, -, hsearch⟩ := renewal_unless_stranded hstart hnoon
  obtain ⟨r, t, hrun, hstops, -⟩ := hsearch run hf
  obtain ⟨rfl, -⟩ := hstops hstranded
  obtain ⟨_, -, -, hsearch'⟩ := renewal_unless_stranded hstart hnext
  obtain ⟨r', u, hrun', -, hanswers⟩ := hsearch' run hf
  obtain ⟨c, rfl⟩ := hanswers hfree
  exact ⟨w, past, first, t, run, hf, hstart, hnoon, hrun, c, u, hrun'⟩

end WalletBudget
