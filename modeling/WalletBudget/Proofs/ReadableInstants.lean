import WalletBudget.Proofs.Instants
import WalletBudget.Proofs.WrittenDigits
import WalletBudget.Validation

/-!
Instants that can be read from text are so early that every period from them on has an end.
-/

namespace WalletBudget

namespace Instant

variable {t : Instant} {n : Nat} {cs rest : List Char}

def Readable (t : Instant) : Prop := ∃ text, read text = .ok t

/-- A bound on the seconds of readable instants, as their years have four digits. -/
def readableSeconds : Int := 300000000000

/-- A part that was read, and what was made of it. -/
theorem read_parts {α β : Type} {x : Except ReadFault α} {f : α → Except ReadFault β} {b : β}
    (h : (x >>= f) = .ok b) : ∃ a, x = .ok a ∧ f a = .ok b := by
  cases x with
  | error e => cases h
  | ok a => exact ⟨a, rfl, h⟩

theorem digit_le (h : digit cs = .ok (n, rest)) : n ≤ 9 := by
  cases cs with
  | nil => cases h
  | cons c cs =>
    simp only [digit] at h
    split at h
    · rename_i hdigit
      cases h
      exact Digits.value_le hdigit
    · cases h

theorem twoDigits_le (h : twoDigits cs = .ok (n, rest)) : n ≤ 99 := by
  obtain ⟨⟨a, mid⟩, ha, h⟩ := read_parts h
  obtain ⟨⟨b, last⟩, hb, h⟩ := read_parts h
  cases h
  have := digit_le ha
  have := digit_le hb
  omega

theorem fourDigits_le (h : fourDigits cs = .ok (n, rest)) : n ≤ 9999 := by
  obtain ⟨⟨a, mid⟩, ha, h⟩ := read_parts h
  obtain ⟨⟨b, last⟩, hb, h⟩ := read_parts h
  cases h
  have := twoDigits_le ha
  have := twoDigits_le hb
  omega

theorem dayNumber_le {year month day : Nat} (hyear : year ≤ 9999) (hmonth : month ≤ 99)
    (hday : day ≤ 99) : Calendar.dayNumber ⟨year, month, day⟩ ≤ 3000000 := by
  simp only [Calendar.dayNumber]
  split <;> omega

/-- A check that was passed. -/
theorem read_checked {α : Type} {c : Prop} [Decidable c] {e : ReadFault}
    {f : PUnit → Except ReadFault α} {x : Except ReadFault α} {a : α}
    (h : (if c then throw e >>= f else x) = .ok a) :
    ¬ c ∧ x = .ok a := by
  split at h
  · cases h
  · exact ⟨‹_›, h⟩

theorem ofLocal?_le {date : Calendar.Date} {hour minute second nanos : Nat} {east : Int}
    (hdate : Calendar.dayNumber date ≤ 3000000) (hhour : hour ≤ 99) (hminute : minute ≤ 99)
    (hsecond : second ≤ 99) (heast : east.natAbs < 86400)
    (h : ofLocal? date hour minute second nanos east = some t) : t.secs ≤ readableSeconds := by
  simp only [ofLocal?, Option.bind_eq_bind, Option.bind_eq_some_iff] at h
  obtain ⟨wall, hwall, h⟩ := h
  have hsecs := (ofParts?_some h).1
  have hwallsecs := (ofParts?_some hwall).1
  -- The days come to 259200000000 seconds at most; the time of day and the offset are far less than
  -- what is left.
  simp only [readableSeconds]
  split at hwallsecs <;> dsimp only at hwallsecs <;> omega

theorem fraction_lt (h : fraction cs = .ok (n, rest)) : n < nanosPerSecond := by
  simp only [fraction] at h
  split at h
  · cases h
  · cases h
  · rename_i ds tail _ _ hspan
    cases h
    have hds : ∀ c ∈ ds, c.isDigit = true := by
      intro c hc
      simp only [Digits.span, Prod.mk.injEq] at hspan
      exact List.all_eq_true.mp List.all_takeWhile c (hspan.1 ▸ hc)
    have hlength : (ds.take 9).length ≤ 9 := List.length_take_le 9 ds
    have hnumber : Digits.number (ds.take 9) < Nat.pow 10 (ds.take 9).length :=
      Digits.number_lt fun c hc => hds c (List.mem_of_mem_take hc)
    calc Digits.number (ds.take 9) * Nat.pow 10 (9 - (ds.take 9).length)
        < Nat.pow 10 (ds.take 9).length * Nat.pow 10 (9 - (ds.take 9).length) :=
          Nat.mul_lt_mul_of_pos_right hnumber (Nat.pow_pos (by decide))
      _ = nanosPerSecond := by
          simp only [Nat.pow_eq]
          rw [← Nat.pow_add, Nat.add_sub_cancel' hlength]
          rfl

/-- An offset from UTC is a whole number of minutes. -/
theorem offset_minutes {separator : List Char → Except ReadFault (List Char)} {east : Int}
    (h : offset separator cs = .ok (east, rest)) : east % 60 = 0 := by
  cases cs with
  | nil => cases h
  | cons c cs =>
    simp only [offset] at h
    split at h
    · cases h
      rfl
    · split at h
      · obtain ⟨⟨hours, cs⟩, -, h⟩ := read_parts h
        obtain ⟨cs, -, h⟩ := read_parts h
        obtain ⟨⟨minutes, cs⟩, -, h⟩ := read_parts h
        obtain ⟨-, h⟩ := read_checked h
        cases h
        split <;> omega
      · cases h

/-- The parts of a text with fixed positions, in the ranges that these allow. -/
structure Parts where
  year : Nat
  month : Nat
  day : Nat
  hour : Nat
  minute : Nat
  second : Nat
  nanos : Nat
  east : Int
  year_le : year ≤ 9999
  month_le : month ≤ 99
  day_le : day ≤ 99
  hour_le : hour ≤ 99
  minute_le : minute ≤ 99
  second_le : second ≤ 99
  nanos_lt : nanos < nanosPerSecond
  east_lt : east.natAbs < 86400
  east_minutes : east % 60 = 0

def Parts.instant? (p : Parts) : Option Instant :=
  ofLocal? ⟨p.year, p.month, p.day⟩ p.hour p.minute p.second p.nanos p.east

theorem readStrict_parts {text : String} (h : readStrict text = .ok t) :
    ∃ p : Parts, p.instant? = some t := by
  simp only [readStrict] at h
  obtain ⟨-, h⟩ := read_checked h
  obtain ⟨⟨year, cs⟩, hyear, h⟩ := read_parts h
  obtain ⟨cs, -, h⟩ := read_parts h
  obtain ⟨⟨month, cs⟩, hmonth, h⟩ := read_parts h
  obtain ⟨cs, -, h⟩ := read_parts h
  obtain ⟨⟨day, cs⟩, hday, h⟩ := read_parts h
  obtain ⟨-, h⟩ := read_checked h
  obtain ⟨cs, -, h⟩ := read_parts h
  obtain ⟨⟨hour, cs⟩, hhour, h⟩ := read_parts h
  obtain ⟨cs, -, h⟩ := read_parts h
  obtain ⟨⟨minute, cs⟩, hminute, h⟩ := read_parts h
  obtain ⟨cs, -, h⟩ := read_parts h
  obtain ⟨⟨second, cs⟩, hsecond, h⟩ := read_parts h
  have hlast : ∀ {nanos : Nat} {east : Int}, nanos < nanosPerSecond → east % 60 = 0 →
      ¬ east.natAbs ≥ 86400 →
      whenOutOfRange (ofLocal? ⟨year, month, day⟩ hour minute second nanos east) = .ok t →
        ∃ p : Parts, p.instant? = some t := by
    intro nanos east hnanos hminutes heast h
    refine ⟨⟨year, month, day, hour, minute, second, nanos, east, fourDigits_le hyear,
      twoDigits_le hmonth, twoDigits_le hday, twoDigits_le hhour, twoDigits_le hminute,
      twoDigits_le hsecond, hnanos, Nat.not_le.mp heast, hminutes⟩, ?_⟩
    rw [Parts.instant?]
    cases ht : ofLocal? ⟨year, month, day⟩ hour minute second nanos east with
    | none =>
      rw [ht] at h
      cases h
    | some t' =>
      rw [ht] at h
      cases h
      rfl
  split at h
  · obtain ⟨⟨nanos, cs⟩, hnanos, h⟩ := read_parts h
    obtain ⟨-, h⟩ := read_checked h
    obtain ⟨⟨east, cs⟩, hoffset, h⟩ := read_parts h
    obtain ⟨-, h⟩ := read_checked h
    obtain ⟨heast, h⟩ := read_checked h
    exact hlast (fraction_lt hnanos) (offset_minutes hoffset) heast h
  · obtain ⟨⟨nanos, cs⟩, hnanos, h⟩ := read_parts h
    cases hnanos
    obtain ⟨-, h⟩ := read_checked h
    obtain ⟨⟨east, cs⟩, hoffset, h⟩ := read_parts h
    obtain ⟨-, h⟩ := read_checked h
    obtain ⟨heast, h⟩ := read_checked h
    exact hlast (show 0 < nanosPerSecond by decide) (offset_minutes hoffset) heast h

theorem Readable.parts (h : t.Readable) : ∃ p : Parts, p.instant? = some t := by
  obtain ⟨text, htext⟩ := h
  simp only [read] at htext
  split at htext
  · rename_i hstrict
    cases htext
    exact readStrict_parts hstrict
  · cases htext

theorem Readable.secs_le (h : t.Readable) : t.secs ≤ readableSeconds := by
  obtain ⟨p, hp⟩ := h.parts
  exact ofLocal?_le (dayNumber_le p.year_le p.month_le p.day_le) p.hour_le p.minute_le p.second_le
    p.east_lt hp

theorem ofParts?_isSome {secs : Int} {nanos : Nat} (hfirst : firstSecond ≤ secs)
    (hlast : secs ≤ lastSecond) (hnanos : nanos < 2 * nanosPerSecond) :
    ∃ t, ofParts? secs nanos = some t := by
  simp only [ofParts?, hfirst, hlast, hnanos, and_self, dite_true]
  exact ⟨_, rfl⟩

/-- A number of seconds later there is a date, unless the last one has passed by then. -/
theorem add?_seconds_isSome {n : Int} (hpos : 0 < n) (hlast : t.secs + n < lastSecond) :
    ∃ u, t.add? (seconds n) = some u := by
  have hne : ¬ n = 0 := by omega
  have hfirst := t.first_le
  have hnanos := t.nanos_lt
  simp only [firstSecond, lastSecond, nanosPerSecond] at hfirst hnanos hlast
  -- The seconds are whole, so they leave the part of a second that the instant has.
  simp only [add?, wholeSeconds_seconds, seconds_tmod, hne, false_and, and_false, if_false, hpos,
    true_or, if_true]
  apply ofParts?_isSome
  all_goals
    simp only [firstSecond, lastSecond, nanosPerSecond]
    cases hleap : t.isLeap
    all_goals
      simp only [Bool.false_eq_true, if_false, if_true]
      omega

/-- A period of a year at most, from an early enough instant on, has an end. -/
theorem add?_isSome {n : Int} (ht : t.secs ≤ readableSeconds) (hpos : 0 < n) (hle : n ≤ 31536000) :
    ∃ u, t.add? (seconds n) = some u := by
  apply add?_seconds_isSome hpos
  simp only [readableSeconds] at ht
  simp only [lastSecond]
  omega

end Instant

namespace Limit

theorem period_le {f : Frequency} {p : Int} (h : f.period? = some p) : p ≤ 31536000 := by
  cases f <;> simp [Frequency.period?, Frequency.days?] at h <;> omega

theorem isBoundary_start (l : Limit) (period : Int) : l.isBoundary period l.start = true := by
  simp [isBoundary, Instant.since, Instant.wholeSeconds, Instant.seconds]

/-- The first cycle of a limit that starts at a readable instant can be opened. -/
theorem createCycle_first {l : Limit} (h : l.start.Readable) (id : CycleId) :
    ∃ c, l.createCycle id l.start = .ok c := by
  have hstart : ¬ l.start < l.start := fun h => Instant.not_le.mpr h (Instant.le_refl _)
  cases hperiod : l.frequency.period? with
  | none =>
    simp only [createCycle, hstart, if_false, hperiod]
    exact ⟨_, rfl⟩
  | some period =>
    obtain ⟨finish, hfinish⟩ :=
      Instant.add?_isSome h.secs_le (period_pos hperiod) (period_le hperiod)
    simp only [createCycle, hstart, if_false, hperiod, isBoundary_start, if_true, hfinish]
    exact ⟨_, rfl⟩

end Limit

end WalletBudget
