import WalletBudget.Instant.Text
import WalletBudget.Proofs.Calendar
import WalletBudget.Proofs.ReadableInstants
import WalletBudget.Proofs.WrittenDigits

/-!
Instants that are written in records and read back.

The loose reader takes each part of a stamp as it was written, and the parts are those of the
instant. A leap second can be written only where it is the last of its minute, and nowhere else is
one read from text.
-/

namespace WalletBudget

namespace Instant

variable {t : Instant} {c : Char} {n nanos width : Nat} {rest : List Char}

/-! ### Parts of a stamp -/

theorem isBlank_digit (h : c.isDigit = true) : Text.isBlank c = false := by
  simp only [Char.isDigit, Bool.and_eq_true, decide_eq_true_eq] at h
  have hlow : 48 ≤ c.toNat := h.1
  have hhigh : c.toNat ≤ 57 := h.2
  simp [Text.isBlank]
  omega

theorem trimStart_cons (h : Text.isBlank c = false) (rest : List Char) :
    Text.trimStart (c :: rest) = c :: rest := by
  simp [Text.trimStart, h]

theorem trimStart_padded (hwidth : 0 < width) (n : Nat) (rest : List Char) :
    Text.trimStart (Digits.padded width n ++ rest) = Digits.padded width n ++ rest := by
  obtain ⟨c, ds, hds, hc⟩ := Digits.padded_eq_cons hwidth n
  rw [hds]
  exact trimStart_cons (isBlank_digit hc) _

/-- A number of its full width is read whatever stands behind it. -/
theorem looseNumber_padded (hwidth : 0 < width) (hn : n < Nat.pow 10 width) (rest : List Char) :
    looseNumber width (Digits.padded width n ++ rest) = some (n, rest) := by
  have hlength := Digits.padded_length width n
  have htake : (Digits.padded width n ++ rest).take width = Digits.padded width n := by
    rw [List.take_append_of_le_length (Nat.le_of_eq hlength.symm),
      List.take_of_length_le (Nat.le_of_eq hlength)]
  have hdigits := Digits.takeWhile_digits (Digits.padded_isDigit width n) .nil
  rw [List.append_nil] at hdigits
  have hne : Digits.padded width n ≠ [] := by
    obtain ⟨c, ds, hds, -⟩ := Digits.padded_eq_cons hwidth n
    simp [hds]
  have hdrop : (Digits.padded width n ++ rest).drop (Digits.padded width n).length = rest :=
    List.drop_left
  simp only [looseNumber, trimStart_padded hwidth, htake, hdigits, hne, if_false,
    Digits.number_padded hn, hdrop]

theorem looseMark_cons (h : Text.isBlank c = false) (rest : List Char) :
    looseMark c (c :: rest) = some rest := by
  simp [looseMark, trimStart_cons h]

/-- A year of four digits has no sign, and any other year has one. -/
theorem looseYear_yearChars (year : Int) (rest : List Char) :
    looseYear (yearChars year ++ '-' :: rest) = some (year, '-' :: rest) := by
  have hspan : Digits.span (Digits.atLeast 4 year.natAbs ++ '-' :: rest) =
      (Digits.atLeast 4 year.natAbs, '-' :: rest) :=
    Digits.span_digits (Digits.atLeast_isDigit 4 _) (.cons (by decide))
  have hne : Digits.atLeast 4 year.natAbs ≠ [] := Digits.atLeast_ne_nil (by decide)
  by_cases hyear : 0 ≤ year ∧ year ≤ 9999
  · have hvalue : (year.toNat : Int) = year := by omega
    have hread := looseNumber_padded (by decide : 0 < 4) (by omega : year.toNat < 10000)
      ('-' :: rest)
    obtain ⟨c, ds, hds, hc⟩ := Digits.padded_eq_cons (by decide : 0 < 4) year.toNat
    rw [yearChars, if_pos hyear]
    rw [hds, List.cons_append] at hread ⊢
    have hminus : c ≠ '-' := fun h => by simp [h] at hc
    have hplus : c ≠ '+' := fun h => by simp [h] at hc
    simp [looseYear, trimStart_cons (isBlank_digit hc), hminus, hplus, hread, hvalue]
  · rw [yearChars, if_neg hyear]
    by_cases hneg : year < 0
    · have hvalue : -(year.natAbs : Int) = year := by omega
      simp only [hneg, if_true, List.cons_append, looseYear,
        trimStart_cons (by decide : Text.isBlank '-' = false), hspan, hne, if_false,
        Digits.number_atLeast, hvalue]
    · have hvalue : (year.natAbs : Int) = year := by omega
      simp only [hneg, if_false, List.cons_append, looseYear,
        trimStart_cons (by decide : Text.isBlank '+' = false), hspan, hne,
        Digits.number_atLeast, hvalue]

theorem fraction_padded (hwidth : 0 < width) (hwidth' : width ≤ 9) (hn : n < Nat.pow 10 width) :
    fraction (Digits.padded width n ++ ['Z']) = .ok (n * Nat.pow 10 (9 - width), ['Z']) := by
  have hlength := Digits.padded_length width n
  have hspan : Digits.span (Digits.padded width n ++ ['Z']) = (Digits.padded width n, ['Z']) :=
    Digits.span_digits (Digits.padded_isDigit width n) (.cons (by decide))
  have hnumber := Digits.number_padded hn
  obtain ⟨c, ds, hds, -⟩ := Digits.padded_eq_cons hwidth n
  rw [fraction, hspan]
  rw [hds] at hlength hnumber ⊢
  simp only [List.take_of_length_le (Nat.le_trans (Nat.le_of_eq hlength) hwidth'), hnumber, hlength]

/-- The digits of a fraction are exact, however many there are. -/
theorem fractionChars_cases (hnanos : nanos < nanosPerSecond) :
    (nanos = 0 ∧ fractionChars nanos = []) ∨
      ∃ width n, 0 < width ∧ width ≤ 9 ∧ n < Nat.pow 10 width ∧
        n * Nat.pow 10 (9 - width) = nanos ∧
        fractionChars nanos = '.' :: Digits.padded width n := by
  simp only [nanosPerSecond] at hnanos
  rw [fractionChars]
  by_cases hzero : nanos = 0
  · exact .inl ⟨hzero, if_pos hzero⟩
  · rw [if_neg hzero]
    right
    split
    · have hpart : nanos / 1000000 < 1000 := by omega
      have hwhole : nanos / 1000000 * 1000000 = nanos := by omega
      exact ⟨3, _, by decide, by decide, hpart, hwhole, rfl⟩
    · split
      · have hpart : nanos / 1000 < 1000000 := by omega
        have hwhole : nanos / 1000 * 1000 = nanos := by omega
        exact ⟨6, _, by decide, by decide, hpart, hwhole, rfl⟩
      · exact ⟨9, _, by decide, by decide, hnanos, Nat.mul_one nanos, rfl⟩

theorem looseOffset_utc : looseOffset ['Z'] = some (0, []) := rfl

/-! ### Stamps -/

/-- The parts of a stamp, in UTC. -/
def date (t : Instant) : Calendar.Date := Calendar.ofDayNumber (t.secs / 86400)

def hour (t : Instant) : Nat := t.secondOfDay.toNat / 3600

def minute (t : Instant) : Nat := t.secondOfDay.toNat / 60 % 60

def second (t : Instant) : Nat := t.secondOfDay.toNat % 60 + t.nanos / nanosPerSecond

theorem stamp_chars (t : Instant) : t.stamp.toList =
    yearChars t.date.year ++ '-' :: (Digits.padded 2 t.date.month ++ '-' ::
      (Digits.padded 2 t.date.day ++ 'T' :: (Digits.padded 2 t.hour ++ ':' ::
        (Digits.padded 2 t.minute ++ ':' :: (Digits.padded 2 t.second ++
          (fractionChars (t.nanos % nanosPerSecond) ++ ['Z'])))))) := by
  simp only [stamp, dateChars, timeChars, String.toList_ofList, List.append_assoc, List.cons_append,
    date, hour, minute, second]

theorem time_lt (t : Instant) : t.hour < 24 ∧ t.minute < 60 ∧ t.second ≤ 60 := by
  have hlow := Int.emod_nonneg t.secs (show (86400 : Int) ≠ 0 by decide)
  have hhigh := Int.emod_lt_of_pos t.secs (show (0 : Int) < 86400 by decide)
  have hnanos := t.nanos_lt
  simp only [nanosPerSecond] at hnanos
  simp only [hour, minute, second, secondOfDay, nanosPerSecond]
  omega

/-- A leap second is the last of its minute. -/
def Aligned (t : Instant) : Prop := t.isLeap = true → t.secs % 60 = 59

/-- Text names a leap second as the sixtieth of a minute, at an offset of whole minutes. -/
theorem Readable.aligned (h : t.Readable) : t.Aligned := by
  obtain ⟨p, hp⟩ := h.parts
  have hnanos := p.nanos_lt
  have hminutes := p.east_minutes
  simp only [Parts.instant?, ofLocal?, Option.bind_eq_bind, Option.bind_eq_some_iff] at hp
  obtain ⟨wall, hwall, ht⟩ := hp
  obtain ⟨hsecs, hfrac⟩ := ofParts?_some ht
  obtain ⟨hwallsecs, -⟩ := ofParts?_some hwall
  intro hleap
  have hge : nanosPerSecond ≤ t.nanos := of_decide_eq_true hleap
  split at hfrac
  · rename_i hsixty
    simp only [hsixty, if_true] at hwallsecs
    omega
  · omega

/-- The seconds of the clock, which stands still for a leap second, and the fraction behind them. -/
theorem Aligned.clock (ht : t.Aligned) :
    (if t.second = 60 then (59, t.nanos % nanosPerSecond + nanosPerSecond)
      else (t.second, t.nanos % nanosPerSecond)) = (t.secondOfDay.toNat % 60, t.nanos) := by
  have hnanos := t.nanos_lt
  have hlow := Int.emod_nonneg t.secs (show (86400 : Int) ≠ 0 by decide)
  simp only [nanosPerSecond] at hnanos
  cases hleap : t.isLeap with
  | true =>
    have hge : 1000000000 ≤ t.nanos := of_decide_eq_true hleap
    have hlast := ht hleap
    have hsixty : t.second = 60 := by
      simp only [second, secondOfDay, nanosPerSecond]
      omega
    rw [if_pos hsixty, Prod.mk.injEq]
    simp only [secondOfDay, nanosPerSecond]
    omega
  | false =>
    have hlt := nanos_lt_of_not_leap hleap
    have hplain : t.second = t.secondOfDay.toNat % 60 := by
      simp only [second, nanosPerSecond]
      omega
    have hbefore : t.second ≠ 60 := by omega
    rw [if_neg hbefore, Prod.mk.injEq]
    simp only [nanosPerSecond]
    omega

/-- The date, the time of day and the fraction of an instant make it up. -/
theorem ofLocal?_parts (ht : t.Aligned) :
    ofLocal? t.date t.hour t.minute t.second (t.nanos % nanosPerSecond) 0 = some t := by
  have hlow := Int.emod_nonneg t.secs (show (86400 : Int) ≠ 0 by decide)
  have hsecs : t.secs / 86400 * 86400 + (t.hour : Int) * 3600 + (t.minute : Int) * 60 +
      (t.secondOfDay.toNat % 60 : Nat) = t.secs := by
    simp only [hour, minute, secondOfDay]
    omega
  simp only [ofLocal?, ht.clock, date, Calendar.dayNumber_ofDayNumber, hsecs, ofParts?_self,
    Option.bind_eq_bind, Option.bind_some, Int.sub_zero]

/-- A part that is read, and how the reader goes on behind it. -/
theorem read_part {α β : Type} {x : Option α} {f : α → Option β} {a : α} {b : β} (hx : x = some a)
    (h : f a = some b) : (x >>= f) = some b := by
  rw [hx]
  exact h

theorem readLoose?_stamp (ht : t.Aligned) : readLoose? t.stamp = some t := by
  have hvalid : t.date.valid = true := Calendar.valid_ofDayNumber (t.secs / 86400)
  obtain ⟨hmonth, hday⟩ := Calendar.Date.two_digits hvalid
  obtain ⟨hhour, hminute, hsecond⟩ := t.time_lt
  have htime : timeInRange t.hour t.minute t.second = true := by
    simp [timeInRange, hhour, hminute, hsecond]
  have hparts := ofLocal?_parts ht
  rw [readLoose?, stamp_chars]
  refine read_part (looseYear_yearChars _ _) (read_part (looseMark_cons (by decide) _) ?_)
  refine read_part (looseNumber_padded (by decide) hmonth _) ?_
  refine read_part (looseMark_cons (by decide) _) ?_
  refine read_part (looseNumber_padded (by decide) hday _) ?_
  dsimp only
  rw [if_neg (by simp [hvalid])]
  refine read_part rfl ?_
  refine read_part (looseNumber_padded (by decide) (Nat.lt_trans hhour (by decide)) _) ?_
  refine read_part (looseMark_cons (by decide) _) ?_
  refine read_part (looseNumber_padded (by decide) (Nat.lt_trans hminute (by decide)) _) ?_
  refine read_part (looseMark_cons (by decide) _) ?_
  refine read_part (looseNumber_padded (by decide) (Nat.lt_of_le_of_lt hsecond (by decide)) _) ?_
  dsimp only
  -- The fraction decides how the reader goes on.
  obtain ⟨hzero, hchars⟩ | ⟨width, n, hwidth, hwidth', hn, hvalue, hchars⟩ :=
    fractionChars_cases (Nat.mod_lt t.nanos (by decide : 0 < nanosPerSecond))
  · rw [hzero] at hparts
    rw [hchars, List.nil_append]
    split
    · rename_i heq
      cases heq
    · refine read_part rfl ?_
      dsimp only
      rw [if_neg (by simp [htime])]
      exact read_part looseOffset_utc hparts
  · rw [← hvalue] at hparts
    rw [hchars, List.cons_append]
    refine read_part (congrArg Except.toOption (fraction_padded hwidth hwidth' hn)) ?_
    dsimp only
    rw [if_neg (by simp [htime])]
    exact read_part looseOffset_utc hparts

end Instant

end WalletBudget
