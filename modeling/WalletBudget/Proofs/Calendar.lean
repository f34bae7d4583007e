import WalletBudget.Instant.Calendar

/-!
Days and their dates.

A day is looked for in its cycle of 400 years. The year of the cycle is estimated from the mean
length of a year and is right on every day: in a cycle of centuries, of four years each, the error
of the estimate never reaches the next first of March.
-/

namespace WalletBudget.Calendar

variable {n doe yoe doy : Int}

/-- The day of a year of the cycle. Only a year that ends with a leap day has day 365. -/
theorem day_of_year (hlow : 0 ≤ doe) (hhigh : doe ≤ 146096)
    (hyoe : yoe = (doe - doe / 1460 + doe / 36524 - doe / 146096) / 365)
    (hdoy : doy = doe - (365 * yoe + yoe / 4 - yoe / 100)) :
    0 ≤ yoe ∧ yoe ≤ 399 ∧ 0 ≤ doy ∧ doy ≤ 365 ∧
      (doy = 365 → yoe % 4 = 3 ∧ (yoe % 100 ≠ 99 ∨ yoe = 399)) := by
  by_cases hlast : doe = 146096
  · have hyear : yoe = 399 := by omega
    omega
  · -- Centuries, cycles of four years in the century, and days of that cycle.
    obtain ⟨c, k, s, rfl, hc, hc', hk, hk', hs, hs', hend⟩ : ∃ c k s : Int,
        doe = 36524 * c + 1461 * k + s ∧ 0 ≤ c ∧ c ≤ 3 ∧ 0 ≤ k ∧ k ≤ 24 ∧ 0 ≤ s ∧ s ≤ 1460 ∧
          (k = 24 → s ≤ 1459) := by
      refine ⟨doe / 36524, doe % 36524 / 1461, doe % 36524 % 1461, ?_⟩
      omega
    have hcentury : (36524 * c + 1461 * k + s) / 36524 = c := by omega
    have hcycle : (36524 * c + 1461 * k + s) / 146096 = 0 := by omega
    obtain ⟨j, hj, hj', hyear, hday⟩ : ∃ j, 0 ≤ j ∧ j ≤ 3 ∧ yoe = 100 * c + 4 * k + j ∧
        365 * j ≤ s ∧ (s ≤ 365 * j + 364 ∨ j = 3 ∧ s = 1460) := by
      refine ⟨yoe - 100 * c - 4 * k, ?_⟩
      rw [hcentury, hcycle] at hyoe
      omega
    have hfourth : yoe / 4 = 25 * c + k := by omega
    have hhundredth : yoe / 100 = c := by omega
    omega

/-- The month of a year that begins with March, and the day of the month. -/
structure MonthDay (doy mp day : Int) : Prop where
  first : 0 ≤ mp
  last : mp ≤ 11
  one_le : 1 ≤ day
  le_long : day ≤ 31
  le_short : mp = 1 ∨ mp = 3 ∨ mp = 6 ∨ mp = 8 → day ≤ 30
  le_february : mp = 11 → day ≤ 28 ∨ day = 29 ∧ doy = 365
  sum : (153 * mp + 2) / 5 + day - 1 = doy

theorem MonthDay.of_day {mp : Int} (hlow : 0 ≤ doy) (hhigh : doy ≤ 365)
    (hmp : mp = (5 * doy + 2) / 153) : MonthDay doy mp (doy - (153 * mp + 2) / 5 + 1) := by
  constructor <;> omega

/-- A day lies in a year that begins with March, and in a month of it. -/
theorem ofDayNumber_parts (n : Int) : ∃ year doy mp day : Int, MonthDay doy mp day ∧
    n = 365 * year + year / 4 - year / 100 + year / 400 + doy - 719468 ∧
    (doy = 365 → isLeap (year + 1) = true) ∧
    ofDayNumber n = ⟨year + (if 10 ≤ mp then 1 else 0), (if mp < 10 then mp + 3 else mp - 9).toNat,
      day.toNat⟩ := by
  have hlow := Int.emod_nonneg (n + 719468) (show (146097 : Int) ≠ 0 by decide)
  have hhigh := Int.emod_lt_of_pos (n + 719468) (show (0 : Int) < 146097 by decide)
  have hsplit := Int.mul_ediv_add_emod (n + 719468) 146097
  simp only [ofDayNumber]
  generalize (n + 719468) / 146097 = era at *
  generalize (n + 719468) % 146097 = doe at *
  generalize hyoe : (doe - doe / 1460 + doe / 36524 - doe / 146096) / 365 = yoe at *
  generalize hdoy : doe - (365 * yoe + yoe / 4 - yoe / 100) = doy at *
  generalize hmp : (5 * doy + 2) / 153 = mp at *
  obtain ⟨hy, hy', hd, hd', hleap⟩ := day_of_year hlow (by omega) hyoe.symm hdoy.symm
  have hmonth := MonthDay.of_day hd hd' hmp.symm
  have hfourth : (yoe + era * 400) / 4 = yoe / 4 + era * 100 := by omega
  have hhundredth : (yoe + era * 400) / 100 = yoe / 100 + era * 4 := by omega
  have hcycle : (yoe + era * 400) / 400 = era := by omega
  refine ⟨yoe + era * 400, doy, mp, _, hmonth, by omega, ?_, ?_⟩
  · intro hday
    simp only [isLeap, Bool.and_eq_true, Bool.or_eq_true, decide_eq_true_eq]
    omega
  · have hfirst := hmonth.first
    have hlast := hmonth.last
    have hnew : (if mp < 10 then mp + 3 else mp - 9) ≤ 2 ↔ 10 ≤ mp := by split <;> omega
    simp only [hnew]

theorem dayNumber_ofDayNumber (n : Int) : dayNumber (ofDayNumber n) = n := by
  obtain ⟨year, doy, mp, day, hmonth, hn, -, hdate⟩ := ofDayNumber_parts n
  obtain ⟨hfirst, hlast, hone, -, -, -, hsum⟩ := hmonth
  rw [hdate]
  simp only [dayNumber]
  by_cases hnew : 10 ≤ mp
  · have hold : ¬ mp < 10 := by omega
    have hmonth : (mp - 9).toNat ≤ 2 := by omega
    simp only [hnew, hold, if_true, if_false, hmonth]
    omega
  · have hold : mp < 10 := by omega
    have hmonth : ¬ (mp + 3).toNat ≤ 2 := by omega
    simp only [hnew, hold, if_true, if_false, hmonth]
    omega

theorem valid_ofDayNumber (n : Int) : (ofDayNumber n).valid = true := by
  obtain ⟨year, doy, mp, day, hmonth, -, hleap, hdate⟩ := ofDayNumber_parts n
  obtain ⟨hfirst, hlast, hone, hlong, hshort, hfebruary, -⟩ := hmonth
  rw [hdate]
  simp only [Date.valid, daysInMonth, Bool.and_eq_true, decide_eq_true_eq]
  by_cases hnew : 10 ≤ mp
  · have hold : ¬ mp < 10 := by omega
    simp only [hnew, hold, if_true, if_false]
    obtain rfl | rfl : mp = 10 ∨ mp = 11 := by omega
    · refine ⟨⟨⟨by decide, by decide⟩, by omega⟩, ?_⟩
      change day.toNat ≤ 31
      omega
    · refine ⟨⟨⟨by decide, by decide⟩, by omega⟩, ?_⟩
      change day.toNat ≤ if isLeap (year + 1) then 29 else 28
      split
      · omega
      · have hshortYear : doy ≠ 365 := fun hday => absurd (hleap hday) ‹_›
        omega
  · have hold : mp < 10 := by omega
    simp only [hnew, hold, if_true, if_false, Int.add_zero]
    have hmarch : (mp + 3).toNat ≠ 2 := by omega
    simp only [hmarch, if_false]
    refine ⟨⟨⟨by omega, by omega⟩, by omega⟩, ?_⟩
    split <;> omega

theorem daysInMonth_le (year : Int) (month : Nat) : daysInMonth year month ≤ 31 := by
  simp only [daysInMonth]
  repeat' split
  all_goals decide

/-- Months and days of a date are written with two digits. -/
theorem Date.two_digits {d : Date} (h : d.valid = true) : d.month < 100 ∧ d.day < 100 := by
  simp only [Date.valid, Bool.and_eq_true, decide_eq_true_eq] at h
  have hlong := daysInMonth_le d.year d.month
  omega

end WalletBudget.Calendar
