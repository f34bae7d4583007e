import WalletBudget.Limit

/-!
The order of instants, and the starts of periods.

Outside leap seconds an instant is a number of nanoseconds, a duration is a difference, and the
start of a period is at most the instant it was asked for. Inside a leap second none of this is
claimed: there the start of a period may lie ahead.
-/

namespace WalletBudget

namespace Instant

variable {a b c t : Instant}

/-- Place of an instant in the order of all instants. -/
def rank (t : Instant) : Int := t.secs * 2000000000 + t.nanos

theorem le_iff_rank : a ≤ b ↔ a.rank ≤ b.rank := by
  have ha := a.nanos_lt
  have hb := b.nanos_lt
  simp only [nanosPerSecond] at ha hb
  change le a b = true ↔ _
  simp only [le, rank, Bool.or_eq_true, Bool.and_eq_true, decide_eq_true_eq]
  omega

theorem lt_iff_rank : a < b ↔ a.rank < b.rank := by
  have h : a < b ↔ ¬ b ≤ a := by
    change lt a b = true ↔ ¬ le b a = true
    simp [lt]
  rw [h, le_iff_rank]
  omega

theorem eq_of_rank (h : a.rank = b.rank) : a = b := by
  have ha := a.nanos_lt
  have hb := b.nanos_lt
  simp only [nanosPerSecond] at ha hb
  simp only [rank] at h
  obtain ⟨sa, na, _, _, _⟩ := a
  obtain ⟨sb, nb, _, _, _⟩ := b
  have hs : sa = sb := by dsimp only at *; omega
  have hn : na = nb := by dsimp only at *; omega
  subst hs hn
  rfl

theorem le_refl (a : Instant) : a ≤ a := le_iff_rank.mpr (Int.le_refl _)

theorem le_trans (hab : a ≤ b) (hbc : b ≤ c) : a ≤ c :=
  le_iff_rank.mpr (Int.le_trans (le_iff_rank.mp hab) (le_iff_rank.mp hbc))

theorem le_antisymm (hab : a ≤ b) (hba : b ≤ a) : a = b :=
  eq_of_rank (Int.le_antisymm (le_iff_rank.mp hab) (le_iff_rank.mp hba))

theorem not_le : ¬ a ≤ b ↔ b < a := by
  rw [le_iff_rank, lt_iff_rank]
  omega

theorem not_lt : ¬ a < b ↔ b ≤ a := by
  rw [← not_le]
  exact Decidable.not_not

theorem lt_of_lt_of_le (hab : a < b) (hbc : b ≤ c) : a < c :=
  not_le.mp fun hle => not_le.mpr hab (le_trans hbc hle)

theorem le_of_lt (h : a < b) : a ≤ b := by
  rw [lt_iff_rank] at h
  rw [le_iff_rank]
  omega

theorem later_le_iff : later a b ≤ c ↔ a ≤ c ∧ b ≤ c := by
  simp only [later]
  split
  · rename_i h
    exact ⟨fun hb => ⟨le_trans h hb, hb⟩, And.right⟩
  · rename_i h
    have hba : b ≤ a := le_of_lt (not_le.mp h)
    exact ⟨fun ha => ⟨ha, le_trans hba ha⟩, And.left⟩

/-- Nanoseconds since 1970, where a leap second counts as the first part of the next one. -/
def count (t : Instant) : Int := t.secs * 1000000000 + t.nanos

theorem nanos_lt_of_not_leap (h : t.isLeap = false) : t.nanos < 1000000000 :=
  Nat.not_le.mp (of_decide_eq_false h)

theorem le_iff_count (ha : a.isLeap = false) (hb : b.isLeap = false) :
    a ≤ b ↔ a.count ≤ b.count := by
  have ha := nanos_lt_of_not_leap ha
  have hb := nanos_lt_of_not_leap hb
  rw [le_iff_rank]
  simp only [rank, count]
  omega

theorem since_eq_count (ha : a.isLeap = false) (hb : b.isLeap = false) :
    a.since b = a.count - b.count := by
  have hleap : (if b.secondOfDay < a.secondOfDay then (if b.isLeap then (1 : Int) else 0)
      else if a.secondOfDay < b.secondOfDay then (if a.isLeap then -1 else 0) else 0) = 0 := by
    simp [ha, hb]
  simp only [since, hleap, count, nanosPerSecond]
  omega

theorem ofParts?_some {secs : Int} {nanos : Nat} (h : ofParts? secs nanos = some t) :
    t.secs = secs ∧ t.nanos = nanos := by
  simp only [ofParts?] at h
  split at h
  · cases h
    exact ⟨rfl, rfl⟩
  · cases h

@[simp] theorem wholeSeconds_seconds (n : Int) : wholeSeconds (seconds n) = n := by
  simp [wholeSeconds, seconds, nanosPerSecond]

@[simp] theorem seconds_tmod (n : Int) : (seconds n).tmod (nanosPerSecond : Int) = 0 := by
  simp [seconds, nanosPerSecond]

/-- Whole seconds later, an instant outside leap seconds keeps its fraction. -/
theorem add?_seconds {n : Int} (ha : a.isLeap = false) (h : a.add? (seconds n) = some t) :
    t.secs = a.secs + n ∧ t.nanos = a.nanos := by
  have hn := nanos_lt_of_not_leap ha
  simp only [add?, ha, Bool.false_eq_true, false_and, if_false, wholeSeconds_seconds,
    seconds_tmod] at h
  obtain ⟨hs, hf⟩ := ofParts?_some h
  simp only [nanosPerSecond] at hs hf
  omega

theorem ofParts?_self (t : Instant) : ofParts? t.secs t.nanos = some t := by
  simp [ofParts?, t.first_le, t.le_last, t.nanos_lt]

theorem add?_zero (t : Instant) : t.add? (seconds 0) = some t := by
  cases hleap : t.isLeap with
  | true => simpa [add?, seconds, wholeSeconds, hleap] using ofParts?_self t
  | false =>
    have hn := nanos_lt_of_not_leap hleap
    have hsecs : (t.secs * 1000000000 + t.nanos) / 1000000000 = t.secs := by omega
    have hnanos : ((t.nanos : Int) % 1000000000).toNat = t.nanos := by omega
    simpa [add?, seconds, wholeSeconds, hleap, nanosPerSecond, hsecs, hnanos] using
      ofParts?_self t

/-- Whole seconds later, an instant has left the leap second it was in. -/
theorem add?_seconds_leap {n : Int} (ha : a.isLeap = true) (hn : 0 < n)
    (h : a.add? (seconds n) = some t) :
    t.secs = a.secs + n ∧ (t.nanos : Int) = a.nanos - 1000000000 := by
  have hlt := a.nanos_lt
  have hge : 1000000000 ≤ a.nanos := of_decide_eq_true ha
  simp only [nanosPerSecond] at hlt
  have hne : ¬ n = 0 := by omega
  simp only [add?, ha, wholeSeconds_seconds, seconds_tmod, hne, false_and, and_false, if_false,
    if_true, hn, true_or] at h
  obtain ⟨hs, hf⟩ := ofParts?_some h
  simp only [nanosPerSecond] at hs hf
  omega

/-- Seconds are added in the direction of time, from leap seconds too. -/
theorem lt_add?_seconds {n : Int} (hn : 0 < n) (h : a.add? (seconds n) = some t) : a < t := by
  have ha := a.nanos_lt
  simp only [nanosPerSecond] at ha
  rw [lt_iff_rank]
  simp only [rank]
  cases hleap : a.isLeap with
  | true =>
    obtain ⟨hs, hf⟩ := add?_seconds_leap hleap hn h
    have hge : 1000000000 ≤ a.nanos := of_decide_eq_true hleap
    omega
  | false =>
    obtain ⟨hs, hf⟩ := add?_seconds hleap h
    omega

/-- Inside leap seconds a duration may be off by a second, but not by its sign. -/
theorem wholeSeconds_since_nonneg (h : a ≤ b) : 0 ≤ wholeSeconds (b.since a) := by
  have hab := le_iff_rank.mp h
  have ha := a.nanos_lt
  have hb := b.nanos_lt
  simp only [nanosPerSecond] at ha hb
  have hgt : -1000000000 < b.since a := by
    have hcast : ((nanosPerSecond : Nat) : Int) = 1000000000 := rfl
    simp only [rank] at hab
    simp only [since, secondOfDay, hcast]
    cases hleap : b.isLeap with
    | true =>
      have hge : 1000000000 ≤ b.nanos := of_decide_eq_true hleap
      omega
    | false =>
      simp only [Bool.false_eq_true, if_false]
      repeat' split
      all_goals omega
  rcases Int.le_total 0 (b.since a) with hge | hle
  · exact Int.tdiv_nonneg hge (by decide)
  · have hzero : (-(b.since a)).tdiv nanosPerSecond = 0 :=
      Int.tdiv_eq_zero_of_lt (by omega) (by simp only [nanosPerSecond]; omega)
    rw [Int.neg_tdiv] at hzero
    simp only [wholeSeconds]
    omega

end Instant

namespace Cycle

variable {c : Cycle} {s t now : Instant}

theorem hasEnded_iff : c.hasEnded now = true ↔ ∃ f, c.finish = some f ∧ f ≤ now := by
  cases h : c.finish <;> simp [hasEnded, h]

/-- What has ended stays so. -/
theorem hasEnded_mono (h : c.hasEnded s = true) (hst : s ≤ t) : c.hasEnded t = true := by
  obtain ⟨f, hf, hle⟩ := hasEnded_iff.mp h
  exact hasEnded_iff.mpr ⟨f, hf, Instant.le_trans hle hst⟩

/-- What has not ended now had not ended before. -/
theorem live_before (h : c.hasEnded t = false) (hst : s ≤ t) : c.hasEnded s = false := by
  cases hended : c.hasEnded s with
  | false => rfl
  | true =>
    rw [hasEnded_mono hended hst] at h
    cases h

/-- Closed at an instant, a cycle is over by then or by its own start. -/
theorem endAt_finish (c : Cycle) (t : Instant) :
    ∃ f, (c.endAt t).finish = some f ∧ f ≤ t.later c.start := by
  cases h : c.finish with
  | none => exact ⟨_, by simp [endAt, h], Instant.le_refl _⟩
  | some f =>
    by_cases hle : f ≤ t.later c.start
    · exact ⟨f, by simp [endAt, h, hle], hle⟩
    · exact ⟨_, by simp [endAt, h, hle], Instant.le_refl _⟩

/-- A cycle keeps the end it has, or takes an earlier one that is not before its start. -/
theorem endAt_cases (c : Cycle) (t : Instant) :
    (c.endAt t).finish = c.finish ∨ (c.endAt t).finish = some (t.later c.start) ∧
      ∀ old, c.finish = some old → t.later c.start ≤ old := by
  cases h : c.finish with
  | none => exact .inr ⟨by simp [endAt, h], by simp⟩
  | some f =>
    by_cases hle : f ≤ t.later c.start
    · exact .inl (by simp [endAt, h, hle])
    · refine .inr ⟨by simp [endAt, h, hle], ?_⟩
      simpa using Instant.le_of_lt (Instant.not_le.mp hle)

theorem endAt_fields (c : Cycle) (t : Instant) :
    c.endAt t = { c with finish := (c.endAt t).finish } := by
  obtain ⟨id, limit, currency, amount, start, finish, spent, held⟩ := c
  cases finish with
  | none => rfl
  | some f => by_cases hs : f ≤ t.later start <;> simp [endAt, hs]

end Cycle

theorem orDefect_ok {α : Type} {d : Defect} {x : Option α} {a : α} (h : orDefect d x = .ok a) :
    x = some a := by
  cases x with
  | none => cases h
  | some b => exact congrArg some (Except.ok.inj h)

namespace Limit

variable {l : Limit} {now now' s s' : Instant}

theorem period_pos {f : Frequency} {p : Int} (h : f.period? = some p) : 0 < p := by
  cases f <;> simp [Frequency.period?, Frequency.days?] at h <;> omega

/-- Periods are whole days. -/
theorem period_days {f : Frequency} {p : Int} (h : f.period? = some p) :
    86400 ≤ p ∧ p % 86400 = 0 := by
  cases f <;> simp [Frequency.period?, Frequency.days?] at h <;> omega

/-- The first period starts with the limit, in a leap second or not. -/
theorem periodStart_start (l : Limit) : l.periodStart l.start = .ok l.start := by
  have hnot : ¬ l.start < l.start := fun h => Instant.not_le.mpr h (Instant.le_refl _)
  simp only [periodStart, hnot, if_false]
  cases l.frequency.period? <;> rfl

/-- Outside leap seconds the start of a period is a whole number of periods after the start of the
limit. -/
theorem periodStart_shape (hl : l.start.isLeap = false) (hn : now.isLeap = false)
    (h : l.periodStart now = .ok s) :
    (l.frequency.period? = none ∨ ¬ l.start < now) ∧ s = l.start ∨
    ∃ p, l.frequency.period? = some p ∧ l.start < now ∧
      s.secs = l.start.secs + (now.count - l.start.count) / 1000000000 / p * p ∧
      s.nanos = l.start.nanos := by
  cases hp : l.frequency.period? with
  | none =>
    simp only [periodStart, hp] at h
    exact .inl ⟨.inl rfl, by cases h; rfl⟩
  | some p =>
    simp only [periodStart, hp] at h
    split at h
    · rename_i hlt
      right
      refine ⟨p, rfl, hlt, ?_⟩
      have hge : 0 ≤ now.count - l.start.count := by
        have := (Instant.le_iff_count hl hn).mp (Instant.le_of_lt hlt)
        omega
      have hpos := period_pos hp
      have hk : (Instant.wholeSeconds (now.since l.start)).tdiv p =
          (now.count - l.start.count) / 1000000000 / p := by
        rw [Instant.since_eq_count hn hl, Instant.wholeSeconds, Int.tdiv_eq_ediv_of_nonneg hge,
          Int.tdiv_eq_ediv_of_nonneg (Int.ediv_nonneg hge (by simp [nanosPerSecond]))]
        rfl
      rw [hk] at h
      exact Instant.add?_seconds hl (orDefect_ok h)
    · rename_i hlt
      exact .inl ⟨.inr hlt, by cases h; rfl⟩

/-- Outside leap seconds the period of an instant starts by then, or with the limit. -/
theorem periodStart_le (hl : l.start.isLeap = false) (hn : now.isLeap = false)
    (h : l.periodStart now = .ok s) : s.isLeap = false ∧ s ≤ now.later l.start := by
  rcases periodStart_shape hl hn h with ⟨_, rfl⟩ | ⟨p, hp, hlt, hs, hf⟩
  · exact ⟨hl, (Instant.later_le_iff.mp (Instant.le_refl _)).2⟩
  · have hleap : s.isLeap = false := by simpa [Instant.isLeap, hf] using hl
    refine ⟨hleap, Instant.le_trans ?_ (Instant.later_le_iff.mp (Instant.le_refl _)).1⟩
    rw [Instant.le_iff_count hleap hn]
    have hpos := period_pos hp
    have hmul := Int.ediv_mul_le ((now.count - l.start.count) / 1000000000) (Int.ne_of_gt hpos)
    have hdiv := Int.ediv_mul_le (now.count - l.start.count)
      (show (1000000000 : Int) ≠ 0 by decide)
    have hst : s.count = l.start.count +
        (now.count - l.start.count) / 1000000000 / p * p * 1000000000 := by
      simp only [Instant.count, hs, hf]
      omega
    omega

/-- Outside leap seconds a later instant lies in the same period or a later one. -/
theorem periodStart_mono (hl : l.start.isLeap = false) (hn : now.isLeap = false)
    (hn' : now'.isLeap = false) (hle : now ≤ now') (h : l.periodStart now = .ok s)
    (h' : l.periodStart now' = .ok s') : s ≤ s' := by
  have hstart : ∀ {t u : Instant}, t.isLeap = false → l.periodStart t = .ok u → l.start ≤ u := by
    intro t u ht hu
    rcases periodStart_shape hl ht hu with ⟨_, rfl⟩ | ⟨p, hp, hlt, hs, hf⟩
    · exact Instant.le_refl _
    · have hge : 0 ≤ (t.count - l.start.count) / 1000000000 / p * p := by
        have := (Instant.le_iff_count hl ht).mp (Instant.le_of_lt hlt)
        have hpos := period_pos hp
        refine Int.mul_nonneg (Int.ediv_nonneg (Int.ediv_nonneg ?_ (by decide)) ?_) ?_ <;> omega
      rw [Instant.le_iff_rank]
      simp only [Instant.rank, hs, hf]
      omega
  rcases periodStart_shape hl hn h with ⟨_, rfl⟩ | ⟨p, hp, hlt, hs, hf⟩
  · exact hstart hn' h'
  · have hlt' : l.start < now' := by
      rw [Instant.lt_iff_rank] at hlt ⊢
      rw [Instant.le_iff_rank] at hle
      omega
    obtain ⟨p', hp', _, hs', hf'⟩ : ∃ p', l.frequency.period? = some p' ∧ l.start < now' ∧
        s'.secs = l.start.secs + (now'.count - l.start.count) / 1000000000 / p' * p' ∧
        s'.nanos = l.start.nanos := by
      rcases periodStart_shape hl hn' h' with ⟨hno, _⟩ | h
      · simp [hp, hlt'] at hno
      · exact h
    obtain rfl : p = p' := Option.some.inj (hp.symm.trans hp')
    have hpos := period_pos hp
    have hcount := (Instant.le_iff_count hn hn').mp hle
    have hmono : (now.count - l.start.count) / 1000000000 / p * p ≤
        (now'.count - l.start.count) / 1000000000 / p * p := by
      refine Int.mul_le_mul_of_nonneg_right ?_ (Int.le_of_lt hpos)
      exact Int.ediv_le_ediv hpos (Int.ediv_le_ediv (by decide) (by omega))
    rw [Instant.le_iff_rank]
    simp only [Instant.rank, hs, hf, hs', hf']
    omega

end Limit

end WalletBudget
