import WalletBudget.Identity.Uuid
import WalletBudget.Proofs.ReadableInstants

/-!
The periods of a limit, told by the number of nanoseconds since its start.

Both the search for the period of an instant and the check of a new cycle divide that number by the
length of a period. Outside leap seconds they agree: an instant is accepted as the start of a cycle
if and only if its own period starts with it. Seconds that are added to a start inside a leap second
leave it, and those that have passed since count it, so the starts of the later periods of such a
limit are a second short of a whole number of periods.
-/

namespace WalletBudget

namespace Instant

variable {a b t : Instant} {n : Int}

/-- Of a time that has passed the whole seconds are those that have passed. -/
theorem wholeSeconds_of_nonneg {d : Int} (h : 0 ≤ d) : wholeSeconds d = d / 1000000000 := by
  rw [wholeSeconds, Int.tdiv_eq_ediv_of_nonneg h]
  rfl

theorem wholeSeconds_nonpos {d : Int} (h : d ≤ 0) : wholeSeconds d ≤ 0 := by
  have hneg : 0 ≤ (-d).tdiv nanosPerSecond := Int.tdiv_nonneg (by omega) (by decide)
  rw [Int.neg_tdiv] at hneg
  exact Int.nonpos_of_neg_nonneg hneg

theorem nonneg_of_wholeSeconds {d : Int} (h : 0 < wholeSeconds d) : 0 ≤ d := by
  by_contra hneg
  have hnone := wholeSeconds_nonpos (d := d) (by omega)
  omega

/-- A duration counts at most one leap second, and its fractions at most two seconds more. -/
theorem wholeSeconds_since_le (h : a ≤ b) : wholeSeconds (b.since a) ≤ b.secs - a.secs + 2 := by
  have hb := b.nanos_lt
  have hleap : b.since a ≤ (b.secs - a.secs + 1) * 1000000000 + (b.nanos - a.nanos) := by
    have hcast : ((nanosPerSecond : Nat) : Int) = 1000000000 := rfl
    simp only [since, hcast]
    repeat' split
    all_goals omega
  simp only [nanosPerSecond] at hb
  by_cases hpassed : 0 ≤ b.since a
  · rw [wholeSeconds_of_nonneg hpassed]
    omega
  · have hle := le_iff_rank.mp h
    have hnone := wholeSeconds_nonpos (d := b.since a) (by omega)
    simp only [rank] at hle
    omega

theorem lt_iff_count (ha : a.isLeap = false) (ht : t.isLeap = false) :
    a < t ↔ a.count < t.count := by
  rw [← not_le, le_iff_count ht ha]
  omega

/-- Whole seconds later, an instant outside leap seconds is still outside of them. -/
theorem add?_seconds_not_leap (ha : a.isLeap = false) (h : a.add? (seconds n) = some t) :
    t.isLeap = false := by
  obtain ⟨-, hnanos⟩ := add?_seconds ha h
  simpa only [isLeap, hnanos] using ha

/-- Whole seconds after a leap second, the leap second is over. -/
theorem add?_leap_not_leap (ha : a.isLeap = true) (hn : 0 < n) (h : a.add? (seconds n) = some t) :
    t.isLeap = false := by
  obtain ⟨-, hnanos⟩ := add?_seconds_leap ha hn h
  have hlt := a.nanos_lt
  simp only [nanosPerSecond] at hlt
  exact decide_eq_false (by simp only [nanosPerSecond]; omega)

/-- Seconds that are added to a leap second are one too few where it is counted. -/
theorem add?_leap_count (ha : a.isLeap = true) (hn : 0 < n) (h : a.add? (seconds n) = some t) :
    t.count = a.count + (n - 1) * 1000000000 := by
  obtain ⟨hs, hf⟩ := add?_seconds_leap ha hn h
  simp only [count, hs]
  omega

/-- From a leap second to an instant outside of them, a duration may count the leap second twice. -/
theorem since_leap (ha : a.isLeap = true) (hb : b.isLeap = false) :
    b.count - a.count ≤ b.since a ∧ b.since a ≤ b.count - a.count + 1000000000 := by
  have hcast : ((nanosPerSecond : Nat) : Int) = 1000000000 := rfl
  simp only [since, ha, hb, Bool.false_eq_true, if_true, if_false, count, hcast]
  split
  · omega
  · split <;> omega

/-- The instant whole seconds later is the one that is as many nanoseconds later. -/
theorem add?_seconds_iff (ha : a.isLeap = false) (ht : t.isLeap = false) :
    a.add? (seconds n) = some t ↔ t.count = a.count + n * 1000000000 := by
  have hlt := nanos_lt_of_not_leap ha
  have hlt' := nanos_lt_of_not_leap ht
  constructor
  · intro h
    obtain ⟨hs, hn⟩ := add?_seconds ha h
    simp only [count, hs, hn]
    omega
  · intro h
    simp only [count] at h
    have hs : ((a.secs + n) * nanosPerSecond + a.nanos) / nanosPerSecond = t.secs := by
      simp only [nanosPerSecond]
      omega
    have hf : (((a.secs + n) * nanosPerSecond + a.nanos) % nanosPerSecond).toNat = t.nanos := by
      simp only [nanosPerSecond]
      omega
    simp only [add?, ha, Bool.false_eq_true, false_and, if_false, wholeSeconds_seconds,
      seconds_tmod, Int.add_zero, hs, hf]
    exact ofParts?_self t

/-- Whole seconds after an instant and before a readable one there is a date. -/
theorem add?_seconds_before {u : Instant} (ha : a.isLeap = false) (hn : 0 ≤ n)
    (hu : u.Readable) (h : a.count + n * 1000000000 ≤ u.count) (hleap : u.isLeap = false) :
    ∃ t, a.add? (seconds n) = some t ∧ t.isLeap = false ∧ t.secs ≤ readableSeconds := by
  have hlt := nanos_lt_of_not_leap ha
  have hlt' := nanos_lt_of_not_leap hleap
  have hfirst := a.first_le
  have hlast := hu.secs_le
  simp only [count] at h
  have hbound : a.secs + n ≤ lastSecond := by
    simp only [readableSeconds, lastSecond] at hlast ⊢
    omega
  obtain ⟨t, ht⟩ := ofParts?_isSome (show firstSecond ≤ a.secs + n by omega) hbound a.nanos_lt
  obtain ⟨hs, hf⟩ := ofParts?_some ht
  have hcalm : t.isLeap = false := by simpa only [isLeap, hf] using ha
  refine ⟨t, (add?_seconds_iff ha hcalm).mpr ?_, hcalm, by omega⟩
  simp only [count, hs, hf]
  omega

end Instant

namespace Limit

variable {l : Limit} {period : Int} {now t s : Instant}

/-- An instant a whole number of periods after the start of the limit. -/
def Boundary (l : Limit) (period : Int) (t : Instant) : Prop :=
  ∃ k : Nat, l.start.add? (Instant.seconds (k * period)) = some t

def periodsBefore (l : Limit) (period : Int) (now : Instant) : Int :=
  (now.count - l.start.count) / 1000000000 / period

theorem Boundary.not_leap (hl : l.start.isLeap = false) (h : l.Boundary period t) :
    t.isLeap = false := by
  obtain ⟨k, hk⟩ := h
  exact Instant.add?_seconds_not_leap hl hk

theorem boundary_iff (hl : l.start.isLeap = false) (ht : t.isLeap = false) :
    l.Boundary period t ↔ ∃ k : Nat, t.count = l.start.count + k * period * 1000000000 := by
  simp only [Boundary, Instant.add?_seconds_iff hl ht]

theorem start_le_boundary (hl : l.start.isLeap = false) (hpos : 0 < period)
    (h : l.Boundary period t) : l.start ≤ t := by
  have ht := h.not_leap hl
  obtain ⟨k, hk⟩ := (boundary_iff hl ht).mp h
  have hmul : 0 ≤ (k : Int) * period := Int.mul_nonneg (by omega) (by omega)
  rw [Instant.le_iff_count hl ht]
  omega

/-- An instant lies behind the periods that are over by then, and before the end of the next. -/
theorem periodsBefore_bounds (hl : l.start.isLeap = false) (hn : now.isLeap = false)
    (hpos : 0 < period) (h : l.start ≤ now) :
    0 ≤ l.periodsBefore period now ∧
      l.start.count + l.periodsBefore period now * period * 1000000000 ≤ now.count ∧
      now.count < l.start.count + (l.periodsBefore period now * period + period) * 1000000000 := by
  rw [Instant.le_iff_count hl hn] at h
  have hfloor := Int.ediv_mul_le ((now.count - l.start.count) / 1000000000) (Int.ne_of_gt hpos)
  have hnext := Int.lt_ediv_add_one_mul_self ((now.count - l.start.count) / 1000000000) hpos
  rw [Int.add_mul, Int.one_mul] at hnext
  refine ⟨Int.ediv_nonneg (Int.ediv_nonneg (by omega) (by decide)) (Int.le_of_lt hpos), ?_, ?_⟩
  all_goals
    simp only [periodsBefore]
    omega

/-- At a boundary a number of periods is over to the nanosecond. -/
theorem periodsBefore_boundary (hpos : 0 < period) {k : Nat}
    (hk : t.count = l.start.count + k * period * 1000000000) :
    l.periodsBefore period t = k := by
  have hpassed : t.count - l.start.count = k * period * 1000000000 := by omega
  rw [periodsBefore, hpassed, Int.mul_ediv_cancel _ (by decide),
    Int.mul_ediv_cancel _ (Int.ne_of_gt hpos)]

/-- From its start on, a limit finds the period of an instant by the number of those before. -/
theorem periodStart_eq (hperiod : l.frequency.period? = some period)
    (hl : l.start.isLeap = false) (hn : now.isLeap = false) (h : l.start ≤ now) :
    l.periodStart now = orDefect .instantRange
      (l.start.add? (Instant.seconds (l.periodsBefore period now * period))) := by
  have hcount := (Instant.le_iff_count hl hn).mp h
  have hwhole : (Instant.wholeSeconds (now.since l.start)).tdiv period =
      l.periodsBefore period now := by
    rw [Instant.since_eq_count hn hl, Instant.wholeSeconds_of_nonneg (by omega),
      Int.tdiv_eq_ediv_of_nonneg (Int.ediv_nonneg (by omega) (by decide)), periodsBefore]
  by_cases hlt : l.start < now
  · simp only [periodStart, hperiod, hlt, if_true, hwhole]
  · obtain rfl : l.start = now := Instant.le_antisymm h (Instant.not_lt.mp hlt)
    have hzero : l.periodsBefore period l.start = 0 := by simp [periodsBefore]
    rw [l.periodStart_start, hzero, Int.zero_mul, Instant.add?_zero]
    rfl

theorem periodStart_early (h : now < l.start) : l.periodStart now = .ok l.start := by
  have hnot : ¬ l.start < now := fun hgt => Instant.not_le.mpr hgt (Instant.le_of_lt h)
  simp only [periodStart, hnot, if_false]
  cases l.frequency.period? <;> rfl

/-- A boundary is the start of its own period. -/
theorem periodStart_boundary (hperiod : l.frequency.period? = some period)
    (hl : l.start.isLeap = false) (h : l.Boundary period t) : l.periodStart t = .ok t := by
  have hpos := period_pos hperiod
  have ht := h.not_leap hl
  obtain ⟨k, hk⟩ := (boundary_iff hl ht).mp h
  have hadd := (Instant.add?_seconds_iff (n := k * period) hl ht).mpr hk
  rw [periodStart_eq hperiod hl ht (start_le_boundary hl hpos h), periodsBefore_boundary hpos hk,
    hadd]
  rfl

/-- The period of an instant is not over at the instant. -/
theorem before_next (hperiod : l.frequency.period? = some period) (hl : l.start.isLeap = false)
    (hn : now.isLeap = false) (hs : l.periodStart now = .ok s) {next : Instant}
    (hnext : s.add? (Instant.seconds period) = some next) : now < next := by
  have hpos := period_pos hperiod
  have hlater := Instant.lt_add?_seconds hpos hnext
  by_cases hlt : now < l.start
  · obtain rfl : l.start = s := Except.ok.inj ((periodStart_early hlt).symm.trans hs)
    rw [Instant.lt_iff_rank] at hlt hlater ⊢
    omega
  · have hle : l.start ≤ now := Instant.not_lt.mp hlt
    obtain ⟨-, -, hbefore⟩ := periodsBefore_bounds hl hn hpos hle
    have hadd := orDefect_ok ((periodStart_eq hperiod hl hn hle).symm.trans hs)
    have hs' := Instant.add?_seconds_not_leap hl hadd
    have hcount := (Instant.add?_seconds_iff hl hs').mp hadd
    have hnext' := Instant.add?_seconds_not_leap hs' hnext
    have hcount' := (Instant.add?_seconds_iff hs' hnext').mp hnext
    rw [Instant.lt_iff_count hn hnext']
    omega

/-- From the start of the limit on, a readable instant lies in a period of it. -/
theorem periodStart_readable (hperiod : l.frequency.period? = some period)
    (hl : l.start.isLeap = false) (hn : now.isLeap = false) (hread : now.Readable)
    (h : l.start ≤ now) :
    ∃ s, l.periodStart now = .ok s ∧ l.Boundary period s ∧ s.secs ≤ Instant.readableSeconds ∧
      s ≤ now := by
  have hpos := period_pos hperiod
  obtain ⟨hnonneg, hle, -⟩ := periodsBefore_bounds hl hn hpos h
  obtain ⟨k, hk⟩ := Int.eq_ofNat_of_zero_le hnonneg
  rw [hk] at hle
  have hseconds : 0 ≤ (k : Int) * period := Int.mul_nonneg (by omega) (by omega)
  obtain ⟨s, hs, hcalm, hearly⟩ := Instant.add?_seconds_before hl hseconds hread hle hn
  have hcount := (Instant.add?_seconds_iff hl hcalm).mp hs
  refine ⟨s, ?_, ⟨k, hs⟩, hearly, ?_⟩
  · rw [periodStart_eq hperiod hl hn h, hk, hs]
    rfl
  · rw [Instant.le_iff_count hcalm hn]
    omega

theorem periodEnd_eq (hperiod : l.frequency.period? = some period) (hs : l.periodStart now = .ok s)
    {next : Instant} (hnext : s.add? (Instant.seconds period) = some next) :
    l.periodEnd now = .ok (some next) := by
  simp only [periodEnd, hperiod, hs, hnext, bind, Except.bind]
  rfl

/-- The period of a readable instant is found, whatever the limit. -/
theorem periodStart_total (hl : l.start.isLeap = false) (hn : now.isLeap = false)
    (hread : now.Readable) : ∃ s, l.periodStart now = .ok s := by
  cases hperiod : l.frequency.period? with
  | none => exact ⟨l.start, by simp only [periodStart, hperiod]⟩
  | some period =>
    by_cases hlt : now < l.start
    · exact ⟨l.start, periodStart_early hlt⟩
    · obtain ⟨s, hs, -⟩ := periodStart_readable hperiod hl hn hread (Instant.not_lt.mp hlt)
      exact ⟨s, hs⟩

/-- The check of a new cycle accepts the boundaries. -/
theorem isBoundary_iff (hl : l.start.isLeap = false) (ht : t.isLeap = false) (hpos : 0 < period)
    (h : l.start ≤ t) : l.isBoundary period t = true ↔ l.Boundary period t := by
  have hcount := (Instant.le_iff_count hl ht).mp h
  rw [boundary_iff hl ht]
  simp only [isBoundary, Instant.since_eq_count ht hl, Bool.and_eq_true, decide_eq_true_eq]
  constructor
  · rintro ⟨hexact, hrest⟩
    obtain ⟨m, hm⟩ : ∃ m, m = Instant.wholeSeconds (t.count - l.start.count) := ⟨_, rfl⟩
    rw [← hm] at hexact hrest
    have hpassed : t.count - l.start.count = m * 1000000000 := hexact
    obtain ⟨k, rfl⟩ := Int.dvd_of_tmod_eq_zero hrest
    have hk : 0 ≤ k := by
      refine Int.nonneg_of_mul_nonneg_right (a := period) ?_ hpos
      omega
    obtain ⟨k, rfl⟩ := Int.eq_ofNat_of_zero_le hk
    refine ⟨k, ?_⟩
    rw [Int.mul_comm (k : Int) period]
    omega
  · rintro ⟨k, hk⟩
    have hpassed : t.count - l.start.count = Instant.seconds (k * period) := by
      simp only [Instant.seconds, nanosPerSecond]
      omega
    rw [hpassed, Instant.wholeSeconds_seconds]
    exact ⟨rfl, Int.mul_tmod_left _ _⟩

/-- A start that passes the check has a cycle that lasts for a period. -/
theorem createCycle_accepted (hperiod : l.frequency.period? = some period) (hle : l.start ≤ t)
    (hboundary : l.isBoundary period t = true) {finish : Instant}
    (hfinish : t.add? (Instant.seconds period) = some finish) (id : CycleId) :
    l.createCycle id t = .ok (.fresh id l.id l.currency l.amount t (some finish)) := by
  have hnot : ¬ t < l.start := fun hlt => Instant.not_le.mpr hlt hle
  simp only [createCycle, hnot, if_false, hperiod, hboundary, if_true, hfinish]
  rfl

/-- A start that fails the check is a defect. -/
theorem createCycle_rejected (hperiod : l.frequency.period? = some period) (hle : l.start ≤ t)
    (hboundary : l.isBoundary period t = false) (id : CycleId) :
    l.createCycle id t = .error (.cycleOffPeriod t l.id l.frequency l.start) := by
  have hnot : ¬ t < l.start := fun hlt => Instant.not_le.mpr hlt hle
  simp only [createCycle, hnot, if_false, hperiod, hboundary]
  rfl

/-- At a boundary a cycle begins that lasts for a period. -/
theorem createCycle_boundary (hperiod : l.frequency.period? = some period)
    (hl : l.start.isLeap = false) (h : l.Boundary period t)
    (hsecs : t.secs ≤ Instant.readableSeconds) (id : CycleId) :
    ∃ finish, t.add? (Instant.seconds period) = some finish ∧
      l.createCycle id t = .ok (.fresh id l.id l.currency l.amount t (some finish)) := by
  have hpos := period_pos hperiod
  have hle := start_le_boundary hl hpos h
  have haccepted := (isBoundary_iff hl (h.not_leap hl) hpos hle).mpr h
  obtain ⟨finish, hfinish⟩ := Instant.add?_isSome hsecs hpos (period_le hperiod)
  exact ⟨finish, hfinish, createCycle_accepted hperiod hle haccepted hfinish id⟩

/-- A cycle can begin with the period of a readable instant. -/
theorem createCycle_periodStart (hl : l.start.isLeap = false) (hstart : l.start.Readable)
    (hn : now.isLeap = false) (hread : now.Readable) (hs : l.periodStart now = .ok s)
    (id : CycleId) : ∃ c, l.createCycle id s = .ok c := by
  by_cases hfirst : s = l.start
  · rw [hfirst]
    exact createCycle_first hstart id
  cases hperiod : l.frequency.period? with
  | none =>
    simp only [periodStart, hperiod] at hs
    exact absurd (Except.ok.inj hs).symm hfirst
  | some period =>
    have hle : l.start ≤ now := Instant.not_lt.mp fun hlt =>
      hfirst (Except.ok.inj (hs.symm.trans (periodStart_early hlt)))
    obtain ⟨s', hs', hboundary, hearly, -⟩ := periodStart_readable hperiod hl hn hread hle
    obtain rfl : s = s' := Except.ok.inj (hs.symm.trans hs')
    obtain ⟨finish, -, hcreated⟩ := createCycle_boundary hperiod hl hboundary hearly id
    exact ⟨_, hcreated⟩

/-- Off the boundaries a cycle cannot begin. -/
theorem createCycle_off (hperiod : l.frequency.period? = some period)
    (hl : l.start.isLeap = false) (ht : t.isLeap = false) (h : ¬ l.Boundary period t)
    (id : CycleId) : l.createCycle id t = .error
      (if t < l.start then .cycleBeforeLimit t l.id l.start
        else .cycleOffPeriod t l.id l.frequency l.start) := by
  by_cases hlt : t < l.start
  · simp only [createCycle, hlt, if_true]
    rfl
  · have hle : l.start ≤ t := Instant.not_lt.mp hlt
    have hrejected : l.isBoundary period t = false := by
      apply Bool.eq_false_iff.mpr
      exact fun haccepted => h ((isBoundary_iff hl ht (period_pos hperiod) hle).mp haccepted)
    rw [createCycle_rejected hperiod hle hrejected, if_neg hlt]

theorem succ_mul_period (k : Nat) (period : Int) :
    ((k + 1 : Nat) : Int) * period = period + k * period := by
  rw [Int.natCast_add, Int.add_mul]
  omega

theorem le_mul_period {k : Nat} (hpos : 0 < period) (hk : 0 < k) : period ≤ k * period := by
  cases k with
  | zero => cases hk
  | succ k =>
    have hnonneg : 0 ≤ (k : Int) * period := Int.mul_nonneg (by omega) (by omega)
    rw [succ_mul_period]
    omega

/-- Whole periods after a leap second the leap second is over, which is one second short of them. -/
theorem wholeSeconds_leap {k : Nat} (hperiod : l.frequency.period? = some period)
    (hleap : l.start.isLeap = true) (hk : 0 < k)
    (hadd : l.start.add? (Instant.seconds (k * period)) = some t) :
    Instant.wholeSeconds (t.since l.start) = k * period - 1 := by
  obtain ⟨hlong, hdays⟩ := period_days hperiod
  have hone := le_mul_period (period_pos hperiod) hk
  obtain ⟨hs, hn⟩ := Instant.add?_seconds_leap hleap (by omega) hadd
  have hday : t.secondOfDay = l.start.secondOfDay := by
    obtain ⟨days, hmul⟩ : (86400 : Int) ∣ k * period :=
      Int.dvd_mul_of_dvd_right (Int.dvd_of_emod_eq_zero hdays)
    simp only [Instant.secondOfDay]
    omega
  have hsince : t.since l.start = Instant.seconds (k * period - 1) := by
    simp only [Instant.since, hday, Instant.seconds, nanosPerSecond]
    omega
  rw [hsince, Instant.wholeSeconds_seconds]

/-- Such an instant is no boundary. -/
theorem isBoundary_leap {k : Nat} (hperiod : l.frequency.period? = some period)
    (hleap : l.start.isLeap = true) (hk : 0 < k)
    (hadd : l.start.add? (Instant.seconds (k * period)) = some t) :
    l.isBoundary period t = false := by
  obtain ⟨hlong, -⟩ := period_days hperiod
  have hwhole := wholeSeconds_leap hperiod hleap hk hadd
  have hone := le_mul_period (period_pos hperiod) hk
  have hrest : (k * period - 1).tmod period = period - 1 := by
    have hsplit : k * period - 1 = (period - 1) + (k - 1) * period := by
      rw [Int.sub_mul]
      omega
    rw [Int.tmod_eq_emod_of_nonneg (by omega), hsplit, Int.add_mul_emod_self_right]
    exact Int.emod_eq_of_lt (by omega) (by omega)
  have hne : ¬ period - 1 = 0 := by omega
  simp [isBoundary, hwhole, hrest, hne]

/-- The periods that have passed since the start of a limit, leap seconds or not. -/
theorem exists_passed (hperiod : l.frequency.period? = some period)
    (hlt : l.start < now) :
    ∃ k : Nat, (Instant.wholeSeconds (now.since l.start)).tdiv period = k ∧
      k * period ≤ Instant.wholeSeconds (now.since l.start) := by
  have hpos := period_pos hperiod
  have hnonneg := Instant.wholeSeconds_since_nonneg (Instant.le_of_lt hlt)
  obtain ⟨k, hk⟩ := Int.eq_ofNat_of_zero_le (Int.tdiv_nonneg hnonneg (Int.le_of_lt hpos))
  refine ⟨k, hk, ?_⟩
  rw [← hk, Int.tdiv_eq_ediv_of_nonneg hnonneg]
  exact Int.ediv_mul_le _ (Int.ne_of_gt hpos)

/-- The start of a readable instant's period is found by the periods that have passed, whatever
instants are inside leap seconds. -/
theorem periodStart_passed (hperiod : l.frequency.period? = some period) (hlt : l.start < now)
    (hread : now.Readable) :
    ∃ (k : Nat) (s : Instant), (Instant.wholeSeconds (now.since l.start)).tdiv period = k ∧
      l.start.add? (Instant.seconds (k * period)) = some s ∧ l.periodStart now = .ok s ∧
      s.secs ≤ Instant.readableSeconds + 2 := by
  have hpos := period_pos hperiod
  have hmost := Instant.wholeSeconds_since_le (Instant.le_of_lt hlt)
  have hlast := hread.secs_le
  obtain ⟨k, hk, hpassed⟩ := exists_passed hperiod hlt
  obtain ⟨s, hs, hearly⟩ : ∃ s, l.start.add? (Instant.seconds (k * period)) = some s ∧
      s.secs ≤ l.start.secs + k * period := by
    cases k with
    | zero => exact ⟨l.start, by simpa using Instant.add?_zero l.start, by simp⟩
    | succ k =>
      have hlater : 0 < ((k + 1 : Nat) : Int) * period := Int.mul_pos (by omega) hpos
      obtain ⟨s, hs⟩ := Instant.add?_seconds_isSome (t := l.start) hlater (by
        simp only [Instant.readableSeconds] at hlast
        simp only [Instant.lastSecond]
        omega)
      refine ⟨s, hs, ?_⟩
      cases hleap : l.start.isLeap with
      | true => exact Int.le_of_eq (Instant.add?_seconds_leap hleap hlater hs).1
      | false => exact Int.le_of_eq (Instant.add?_seconds hleap hs).1
  refine ⟨k, s, hk, hs, ?_, by omega⟩
  simp only [periodStart, hperiod, if_pos hlt, hk, hs]
  rfl

/-- A boundary that is not the first has one before it. -/
theorem exists_boundary_before {k : Nat} (hperiod : l.frequency.period? = some period)
    (hleap : l.start.isLeap = true)
    (hadd : l.start.add? (Instant.seconds ((k + 1 : Nat) * period)) = some t) :
    ∃ s, l.start.add? (Instant.seconds (k * period)) = some s ∧
      s.add? (Instant.seconds period) = some t := by
  have hpos := period_pos hperiod
  cases k with
  | zero => exact ⟨l.start, by simpa using Instant.add?_zero l.start, by simpa using hadd⟩
  | succ k =>
    have hlater : 0 < ((k + 1 : Nat) : Int) * period := Int.mul_pos (by omega) hpos
    have hlast := t.le_last
    rw [succ_mul_period] at hadd
    have hend := (Instant.add?_seconds_leap hleap (by omega) hadd).1
    obtain ⟨s, hs⟩ := Instant.add?_seconds_isSome (t := l.start) hlater (by omega)
    have hcalm := Instant.add?_leap_not_leap hleap hlater hs
    have hcalm' := Instant.add?_leap_not_leap hleap (by omega) hadd
    refine ⟨s, hs, (Instant.add?_seconds_iff hcalm hcalm').mpr ?_⟩
    rw [Instant.add?_leap_count hleap hlater hs, Instant.add?_leap_count hleap (by omega) hadd]
    omega

/-- Where a period ends that is counted from a leap second, the search still finds that period, and
no cycle can begin. -/
theorem boundary_after_leap_second {k : Nat} (hperiod : l.frequency.period? = some period)
    (hleap : l.start.isLeap = true)
    (hadd : l.start.add? (Instant.seconds ((k + 1 : Nat) * period)) = some t) :
    (∃ s, l.Boundary period s ∧ s.add? (Instant.seconds period) = some t ∧
      l.periodStart t = .ok s ∧ l.periodEnd t = .ok (some t)) ∧
    ∀ id, l.createCycle id t = .error (.cycleOffPeriod t l.id l.frequency l.start) := by
  have hpos := period_pos hperiod
  have hlt : l.start < t := Instant.lt_add?_seconds (Int.mul_pos (by omega) hpos) hadd
  have hwhole := wholeSeconds_leap hperiod hleap k.succ_pos hadd
  have hpassed : ((k + 1 : Nat) * period - 1).tdiv period = k := by
    have hone : period ≤ (k + 1 : Nat) * period := le_mul_period hpos k.succ_pos
    have hsplit : ((k + 1 : Nat) : Int) * period - 1 = (period - 1) + k * period := by
      rw [succ_mul_period]
      omega
    rw [Int.tdiv_eq_ediv_of_nonneg (by omega), hsplit,
      Int.add_mul_ediv_right _ _ (Int.ne_of_gt hpos), Int.ediv_eq_zero_of_lt (by omega) (by omega),
      Int.zero_add]
  obtain ⟨s, hs, hnext⟩ := exists_boundary_before hperiod hleap hadd
  have hfound : l.periodStart t = .ok s := by
    simp only [periodStart, hperiod, if_pos hlt, hwhole, hpassed, hs]
    rfl
  refine ⟨⟨s, ⟨k, hs⟩, hnext, hfound, periodEnd_eq hperiod hfound hnext⟩, ?_⟩
  exact createCycle_rejected hperiod (Instant.le_of_lt hlt)
    (isBoundary_leap hperiod hleap k.succ_pos hadd)

/-- A time in which so many periods have passed is shorter than one more, and no shorter than they
are if there are any. -/
theorem passed_bounds {d : Int} {k : Nat} (hpos : 0 < period) (hnonneg : 0 ≤ Instant.wholeSeconds d)
    (hk : (Instant.wholeSeconds d).tdiv period = k) :
    d < (k * period + period) * 1000000000 ∧ (0 < k → k * period * 1000000000 ≤ d) := by
  rw [Int.tdiv_eq_ediv_of_nonneg hnonneg] at hk
  have hfloor := Int.ediv_mul_le (Instant.wholeSeconds d) (Int.ne_of_gt hpos)
  have hnext := Int.lt_ediv_add_one_mul_self (Instant.wholeSeconds d) hpos
  rw [hk] at hfloor hnext
  rw [Int.add_mul, Int.one_mul] at hnext
  constructor
  · by_cases hpassed : 0 ≤ d
    · rw [Instant.wholeSeconds_of_nonneg hpassed] at hnext
      omega
    · omega
  · intro hsome
    have hone := le_mul_period hpos hsome
    rw [Instant.wholeSeconds_of_nonneg (Instant.nonneg_of_wholeSeconds (by omega))] at hfloor
    omega

/-- A limit that starts inside a leap second finds a period that has begun by the instant, and that
is over for less than a second if it is. -/
theorem periodStart_leap (hperiod : l.frequency.period? = some period)
    (hleap : l.start.isLeap = true) (hn : now.isLeap = false) (hread : now.Readable)
    (hlt : l.start < now) :
    ∃ s next, l.periodStart now = .ok s ∧ l.Boundary period s ∧
      s.add? (Instant.seconds period) = some next ∧ s ≤ now ∧
      now.count < next.count + 1000000000 := by
  have hpos := period_pos hperiod
  have hyear := period_le hperiod
  obtain ⟨k, s, hk, hadd, hs, hearly⟩ := periodStart_passed hperiod hlt hread
  obtain ⟨next, hnext⟩ := Instant.add?_seconds_isSome (t := s) hpos (by
    simp only [Instant.readableSeconds] at hearly
    simp only [Instant.lastSecond]
    omega)
  refine ⟨s, next, hs, ⟨k, hadd⟩, hnext, ?_⟩
  have hle := Instant.le_of_lt hlt
  obtain ⟨hmost, hless⟩ := Instant.since_leap hleap hn
  obtain ⟨hbefore, hafter⟩ :=
    passed_bounds hpos (Instant.wholeSeconds_since_nonneg hle) hk
  cases k with
  | zero =>
    obtain rfl : l.start = s := by simpa [Instant.add?_zero] using hadd
    have hend := Instant.add?_leap_count hleap hpos hnext
    exact ⟨hle, by omega⟩
  | succ k =>
    have hlater : 0 < ((k + 1 : Nat) : Int) * period := Int.mul_pos (by omega) hpos
    have hcalm := Instant.add?_leap_not_leap hleap hlater hadd
    have hcalm' := Instant.add?_seconds_not_leap hcalm hnext
    have hbegin := Instant.add?_leap_count hleap hlater hadd
    have hend := (Instant.add?_seconds_iff hcalm hcalm').mp hnext
    have hwhole := hafter k.succ_pos
    rw [Instant.le_iff_count hcalm hn]
    exact ⟨by omega, by omega⟩

end Limit

/-- The period of an instant starts a whole number of periods after the limit, by then and less than
a period before it, or with the limit if that starts later. It is the same for its own start, and no
earlier for a later instant. A cycle can be created at the starts of periods and nowhere else, empty
and as long as a period.

Not so for a limit that starts inside a leap second. A period that is found for it may be over, for
less than a second; it always is where the next one starts, and there no cycle can be created. -/
theorem period_boundaries {l : Limit} {period : Int} (hperiod : l.frequency.period? = some period) :
    (l.start.isLeap = false →
      (∀ now, now.isLeap = false → now.Readable → ∃ s, l.periodStart now = .ok s ∧
        l.periodStart s = .ok s ∧ (now < l.start → s = l.start) ∧
        (l.start ≤ now → l.Boundary period s ∧ ∃ next,
          s.add? (Instant.seconds period) = some next ∧ l.periodEnd now = .ok (some next) ∧
          s ≤ now ∧ now < next)) ∧
      (∀ now now' s s', now.isLeap = false → now'.isLeap = false → now ≤ now' →
        l.periodStart now = .ok s → l.periodStart now' = .ok s' → s ≤ s') ∧
      ∀ id t, t.isLeap = false → t.Readable →
        (l.Boundary period t → ∃ finish, t.add? (Instant.seconds period) = some finish ∧
          l.createCycle id t = .ok (.fresh id l.id l.currency l.amount t (some finish))) ∧
        (¬ l.Boundary period t → l.createCycle id t = .error
          (if t < l.start then .cycleBeforeLimit t l.id l.start
            else .cycleOffPeriod t l.id l.frequency l.start))) ∧
    (l.start.isLeap = true →
      (∀ now, now.isLeap = false → now.Readable → l.start < now → ∃ s next,
        l.Boundary period s ∧ s.add? (Instant.seconds period) = some next ∧
        l.periodStart now = .ok s ∧ l.periodEnd now = .ok (some next) ∧
        s ≤ now ∧ now.count < next.count + 1000000000) ∧
      ∀ (k : Nat) t, l.start.add? (Instant.seconds ((k + 1 : Nat) * period)) = some t →
        (∃ s, l.Boundary period s ∧ s.add? (Instant.seconds period) = some t ∧
          l.periodStart t = .ok s ∧ l.periodEnd t = .ok (some t)) ∧
        ∀ id, l.createCycle id t = .error (.cycleOffPeriod t l.id l.frequency l.start)) := by
  refine ⟨fun hl => ⟨fun now hn hread => ?_, fun _ _ _ _ => Limit.periodStart_mono hl,
    fun id t ht hread => ?_⟩, fun hleap => ⟨fun now hn hread hlt => ?_, fun k t hadd => ?_⟩⟩
  · by_cases hlt : now < l.start
    · refine ⟨l.start, Limit.periodStart_early hlt, l.periodStart_start, fun _ => rfl, ?_⟩
      exact fun hle => absurd hle (Instant.not_le.mpr hlt)
    · have hle : l.start ≤ now := Instant.not_lt.mp hlt
      obtain ⟨s, hs, hboundary, hearly, hsle⟩ := Limit.periodStart_readable hperiod hl hn hread hle
      obtain ⟨next, hnext⟩ :=
        Instant.add?_isSome hearly (Limit.period_pos hperiod) (Limit.period_le hperiod)
      have hlast := Limit.before_next hperiod hl hn hs hnext
      refine ⟨s, hs, Limit.periodStart_boundary hperiod hl hboundary, fun h => absurd h hlt, ?_⟩
      exact fun _ => ⟨hboundary, next, hnext, Limit.periodEnd_eq hperiod hs hnext, hsle, hlast⟩
  · exact ⟨fun h => Limit.createCycle_boundary hperiod hl h hread.secs_le id,
      fun h => Limit.createCycle_off hperiod hl ht h id⟩
  · obtain ⟨s, next, hs, hboundary, hnext, hbounds⟩ :=
      Limit.periodStart_leap hperiod hleap hn hread hlt
    exact ⟨s, next, hboundary, hnext, hs, Limit.periodEnd_eq hperiod hs hnext, hbounds⟩
  · exact Limit.boundary_after_leap_second hperiod hleap hadd

def Sample.daily (start : Instant) : Limit :=
  ⟨⟨Uuid.ofNat 1⟩, ⟨Uuid.ofNat 0⟩, .sat, 100, .daily, start, none⟩

/-- Five nanoseconds into 2025, two days later, and half a day after that. -/
def Sample.anchor : Instant := ⟨1735689600, 5, by decide, by decide, by decide⟩

def Sample.boundary : Instant := ⟨1735862400, 5, by decide, by decide, by decide⟩

def Sample.midday : Instant := ⟨1735905600, 5, by decide, by decide, by decide⟩

/-- Three quarters into the leap second of June 2015, and a day later. -/
def Sample.leapStart : Instant := ⟨1435708799, 1750000000, by decide, by decide, by decide⟩

def Sample.leapNext : Instant := ⟨1435795199, 750000000, by decide, by decide, by decide⟩

/-- The periods of a daily limit are told right when it starts at the beginning of a year. When it
starts inside a leap second, the second day is taken for the first. -/
theorem period_boundaries_daily :
    (∃ s next finish, (Sample.daily Sample.anchor).periodStart Sample.midday = .ok s ∧
      s.add? (Instant.seconds 86400) = some next ∧ s ≤ Sample.midday ∧ Sample.midday < next ∧
      (Sample.daily Sample.anchor).createCycle ⟨Uuid.ofNat 2⟩ Sample.boundary =
        .ok (.fresh ⟨Uuid.ofNat 2⟩ ⟨Uuid.ofNat 1⟩ .sat 100 Sample.boundary (some finish)) ∧
      (Sample.daily Sample.anchor).createCycle ⟨Uuid.ofNat 2⟩ Sample.midday =
        .error (.cycleOffPeriod Sample.midday ⟨Uuid.ofNat 1⟩ .daily Sample.anchor)) ∧
    (Sample.daily Sample.leapStart).start.add? (Instant.seconds 86400) = some Sample.leapNext ∧
    (Sample.daily Sample.leapStart).periodEnd Sample.leapNext = .ok (some Sample.leapNext) ∧
    (Sample.daily Sample.leapStart).createCycle ⟨Uuid.ofNat 2⟩ Sample.leapNext =
      .error (.cycleOffPeriod Sample.leapNext ⟨Uuid.ofNat 1⟩ .daily Sample.leapStart) := by
  have hanchor : Sample.anchor.isLeap = false := by decide
  have hdaily (start : Instant) : (Sample.daily start).frequency.period? = some 86400 := rfl
  have hmidday : Sample.midday.Readable := ⟨"2025-01-03T12:00:00.000000005Z", by decide +kernel⟩
  have hboundary : Sample.boundary.Readable :=
    ⟨"2025-01-03T00:00:00.000000005Z", by decide +kernel⟩
  obtain ⟨hperiods, -, hcycles⟩ := (period_boundaries (hdaily Sample.anchor)).1 hanchor
  obtain ⟨s, hs, -, -, hafter⟩ := hperiods Sample.midday (by decide) hmidday
  obtain ⟨-, next, hnext, -, hle, hlt⟩ := hafter (by decide)
  obtain ⟨finish, -, hcreated⟩ :=
    (hcycles ⟨Uuid.ofNat 2⟩ Sample.boundary (by decide) hboundary).1 ⟨2, by decide⟩
  have hoff : ¬ (Sample.daily Sample.anchor).Boundary 86400 Sample.midday := by
    rw [Limit.boundary_iff hanchor (by decide)]
    rintro ⟨k, hk⟩
    simp only [Instant.count, Sample.daily, Sample.anchor, Sample.midday] at hk
    omega
  have hrejected := (hcycles ⟨Uuid.ofNat 2⟩ Sample.midday (by decide) hmidday).2 hoff
  have hadd : (Sample.daily Sample.leapStart).start.add? (Instant.seconds 86400) =
      some Sample.leapNext := by decide
  obtain ⟨⟨-, -, -, -, hover⟩, hstops⟩ :=
    ((period_boundaries (hdaily Sample.leapStart)).2 (by decide)).2 0 Sample.leapNext hadd
  exact ⟨⟨s, next, finish, hs, hnext, hle, hlt, hcreated, hrejected⟩, hadd, hover, hstops _⟩

end WalletBudget
