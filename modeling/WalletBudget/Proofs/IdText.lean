import WalletBudget.Identity.Basic
import Mathlib.Data.List.Induction
import Mathlib.Data.String.Basic

/-!
Texts of identifiers.

An identifier of 128 bits is read from its digits alone, from its digits in groups, and from the
groups in braces or in a URN. No such text holds a low line. The tag of a kind ends in one, so a
text has the tag of one kind at most, and only that kind is read from it.
-/

namespace WalletBudget

namespace Ascii

variable {sep : Char} {part start cs rest : List Char}

theorem toLower_cases (c : Char) : c.toLower = c ∨ c.toNat < 128 := by
  unfold Char.toLower
  split
  · rename_i hc
    have hle : c.toNat ≤ 90 := hc.2
    exact .inr (by omega)
  · exact .inl rfl

theorem utf8Size_toLower (c : Char) : c.toLower.utf8Size = c.utf8Size := by
  rcases toLower_cases c with hsame | hsmall
  · rw [hsame]
  · have hall : ∀ n < 128, (Char.ofNat n).toLower.utf8Size = (Char.ofNat n).utf8Size := by decide
    simpa using hall c.toNat hsmall

theorem strip?_eq_some : strip? start cs = some rest ↔ cs = start ++ rest := by
  induction start generalizing cs with
  | nil => simp [strip?]
  | cons s start ih =>
    cases cs with
    | nil => simp [strip?]
    | cons c cs =>
      by_cases hc : s = c
      · simp [strip?, hc, ih]
      · simp [strip?, hc, Ne.symm hc]

theorem split_part (h : sep ∉ part) : split sep part = [part] := by
  induction part with
  | nil => rfl
  | cons c part ih =>
    have hc : c ≠ sep := fun heq => h (heq ▸ List.mem_cons_self)
    simp [split, hc, ih (List.not_mem_of_not_mem_cons h)]

theorem split_first (h : sep ∉ part) (rest : List Char) :
    split sep (part ++ sep :: rest) = part :: split sep rest := by
  induction part with
  | nil => simp [split]
  | cons c part ih =>
    have hc : c ≠ sep := fun heq => h (heq ▸ List.mem_cons_self)
    simp [split, hc, ih (List.not_mem_of_not_mem_cons h)]

theorem split_ne_nil (sep : Char) (cs : List Char) : split sep cs ≠ [] := by
  cases cs with
  | nil => simp [split]
  | cons c cs =>
    unfold split
    split
    · simp
    · split <;> simp

/-- The parts of a text make it up again. -/
theorem intercalate_split (sep : Char) (cs : List Char) :
    List.intercalate [sep] (split sep cs) = cs := by
  induction cs with
  | nil => simp [split]
  | cons c cs ih =>
    obtain ⟨first, parts, hparts⟩ := List.exists_cons_of_ne_nil (split_ne_nil sep cs)
    rw [hparts] at ih
    by_cases hc : c = sep
    · rw [split, if_pos hc, hparts, List.intercalate_cons_cons, ih, hc]
      rfl
    · rw [split, if_neg hc, hparts, ← ih]
      cases parts <;> simp [List.intercalate_cons_cons]

/-- A text of characters of one byte has as many bytes as characters. -/
theorem utf8Len_eq_length {cs : List Char} (h : ∀ c ∈ cs, c.utf8Size = 1) :
    String.utf8Len cs = cs.length := by
  induction cs with
  | nil => rfl
  | cons c cs ih =>
    obtain ⟨hc, hcs⟩ := List.forall_mem_cons.mp h
    rw [String.utf8Len_cons, ih hcs, hc, List.length_cons]

end Ascii

namespace Hex

variable {n width : Nat} {c : Char} {cs : List Char}

theorem digit?_lower (hn : n < 16) : digit? (lower n) = some n :=
  (by decide : ∀ n < 16, digit? (lower n) = some n) n hn

theorem number_append (cs : List Char) (c : Char) :
    number (cs ++ [c]) = 16 * number cs + (digit? c).getD 0 := by
  simp [number, List.foldl_append]

theorem padded_length (width n : Nat) : (padded width n).length = width := by
  induction width generalizing n with
  | zero => rfl
  | succ width ih => simp [padded, ih]

/-- Each digit is one of the sixteen. -/
theorem mem_padded {c : Char} (h : c ∈ padded width n) : ∃ d < 16, c = lower d := by
  induction width generalizing n with
  | zero => cases h
  | succ width ih =>
    rcases List.mem_append.mp h with h | h
    · exact ih h
    · exact ⟨n % 16, Nat.mod_lt _ (by decide), List.mem_singleton.mp h⟩

theorem number_padded (hn : n < 16 ^ width) : number (padded width n) = n := by
  induction width generalizing n with
  | zero =>
    have hzero : n = 0 := by simpa using hn
    rw [hzero]
    rfl
  | succ width ih =>
    have hrest : n / 16 < 16 ^ width := by
      rw [Nat.div_lt_iff_lt_mul (by decide), ← Nat.pow_succ]
      exact hn
    rw [padded, number_append, ih hrest, digit?_lower (Nat.mod_lt _ (by decide)), Option.getD_some]
    omega

/-- A digit is in the range of ASCII, and its value is written as it is in lower case. -/
theorem digit?_some (h : digit? c = some n) : c.toNat < 128 ∧ n < 16 ∧ lower n = c.toLower := by
  have hsmall : c.toNat < 128 := by
    unfold digit? at h
    split at h
    · rename_i hc
      have hle : c.toNat ≤ 57 := (of_decide_eq_true (Bool.and_eq_true_iff.mp hc).2 :)
      omega
    · split at h
      · rename_i hc
        have hle : c.toNat ≤ 102 := hc.2
        omega
      · split at h
        · rename_i hc
          have hle : c.toNat ≤ 70 := hc.2
          omega
        · cases h
  have hall : ∀ m < 128, (digit? (Char.ofNat m)).all
      (fun n => n < 16 ∧ lower n = (Char.ofNat m).toLower) = true := by decide
  have hc := hall c.toNat hsmall
  rw [Char.ofNat_toNat, h] at hc
  exact ⟨hsmall, by simpa using hc⟩

theorem isDigit_char (h : isDigit c = true) : c ≠ '-' ∧ c ≠ '_' ∧ c.utf8Size = 1 := by
  obtain ⟨n, hn⟩ := Option.isSome_iff_exists.mp h
  have hle : c.val ≤ 127 := Nat.le_of_lt_succ (digit?_some hn).1
  refine ⟨?_, ?_, Char.utf8Size_eq_one_iff.mpr hle⟩
  · rintro rfl
    exact absurd h (by decide)
  · rintro rfl
    exact absurd h (by decide)

theorem digit?_toLower (c : Char) : digit? c.toLower = digit? c := by
  rcases Ascii.toLower_cases c with hsame | hsmall
  · rw [hsame]
  · have hall : ∀ m < 128, digit? (Char.ofNat m).toLower = digit? (Char.ofNat m) := by decide
    simpa using hall c.toNat hsmall

theorem number_toLower (cs : List Char) : number (cs.map Char.toLower) = number cs := by
  simp [number, List.foldl_map, digit?_toLower]

/-- A row of digits and the digits of its number are the same in lower case. -/
theorem padded_number (h : ∀ c ∈ cs, isDigit c = true) :
    number cs < 16 ^ cs.length ∧ padded cs.length (number cs) = cs.map Char.toLower := by
  induction cs using List.reverseRecOn with
  | nil => exact ⟨by decide, rfl⟩
  | append_singleton cs c ih =>
    obtain ⟨d, hd⟩ := Option.isSome_iff_exists.mp (h c (by simp))
    obtain ⟨-, hlt, hlower⟩ := digit?_some hd
    obtain ⟨hnumber, hpadded⟩ := ih fun c hc => h c (by simp [hc])
    rw [number_append, hd, Option.getD_some, List.length_append, List.length_singleton]
    have hrest : (16 * number cs + d) / 16 = number cs := by omega
    have hlast : (16 * number cs + d) % 16 = d := by omega
    constructor
    · rw [Nat.pow_succ]
      omega
    · rw [padded, hrest, hlast, hpadded, hlower]
      simp

end Hex

namespace Uuid

variable {u : Uuid} {ds start cs rest : List Char} {c : Char} {s : String}

def digits (u : Uuid) : List Char := Hex.padded 32 u.number

/-- Digits that stand for an identifier, in letters of either case. -/
def DigitsOf (u : Uuid) (ds : List Char) : Prop := ds.map Char.toLower = u.digits

instance : Decidable (DigitsOf u ds) := inferInstanceAs (Decidable (_ = _))

theorem digits_length (u : Uuid) : u.digits.length = 32 := Hex.padded_length 32 u.number

theorem mem_digits (h : c ∈ u.digits) : Hex.isDigit c = true ∧ c.toLower = c := by
  obtain ⟨d, hd, rfl⟩ := Hex.mem_padded h
  exact (by decide : ∀ d < 16, Hex.isDigit (Hex.lower d) = true ∧
    (Hex.lower d).toLower = Hex.lower d) d hd

theorem digitsOf_digits (u : Uuid) : DigitsOf u u.digits :=
  (List.map_congr_left fun _ hc => (mem_digits hc).2).trans (List.map_id _)

namespace DigitsOf

theorem length (h : DigitsOf u ds) : ds.length = 32 := by
  simpa [digits_length] using congrArg List.length h

theorem isDigit (h : DigitsOf u ds) (hc : c ∈ ds) : Hex.isDigit c = true := by
  have hlower : c.toLower ∈ u.digits := h ▸ List.mem_map_of_mem hc
  simpa [Hex.isDigit, Hex.digit?_toLower] using (mem_digits hlower).1

theorem hyphen_notMem (h : DigitsOf u ds) : '-' ∉ ds := fun hc =>
  (Hex.isDigit_char (h.isDigit hc)).1 rfl

end DigitsOf

theorem readPlain?_eq_some : readPlain? ds = some u ↔ DigitsOf u ds := by
  constructor
  · intro h
    unfold readPlain? at h
    split at h
    · rename_i hplain
      cases h
      obtain ⟨hlt, hpadded⟩ := Hex.padded_number (List.all_eq_true.mp hplain.2)
      rw [hplain.1] at hlt hpadded
      have hnumber : (ofNat (Hex.number ds)).number = Hex.number ds := Nat.mod_eq_of_lt hlt
      rw [DigitsOf, digits, hnumber, hpadded]
    · cases h
  · intro h
    have hall : ds.all Hex.isDigit = true := List.all_eq_true.mpr fun _ => h.isDigit
    have hnumber : Hex.number ds = u.number := by
      rw [← Hex.number_toLower, h, digits, Hex.number_padded u.lt]
    rw [readPlain?, if_pos ⟨h.length, hall⟩, hnumber]
    obtain ⟨n, hn⟩ := u
    simp [ofNat, Nat.mod_eq_of_lt hn]

/-! ### Groups -/

def group (ds : List Char) (first size : Nat) : List Char := (ds.drop first).take size

def grouped (ds : List Char) : List Char := group ds 0 8 ++ '-' :: (group ds 8 4 ++ '-' ::
  (group ds 12 4 ++ '-' :: (group ds 16 4 ++ '-' :: group ds 20 12)))

theorem mem_of_mem_group {first size : Nat} (h : c ∈ group ds first size) : c ∈ ds :=
  List.mem_of_mem_drop (List.mem_of_mem_take h)

theorem mem_grouped (h : c ∈ grouped ds) : c ∈ ds ∨ c = '-' := by
  simp only [grouped, List.mem_append, List.mem_cons] at h
  rcases h with h | rfl | h | rfl | h | rfl | h | rfl | h
  all_goals first | exact .inr rfl | exact .inl (mem_of_mem_group h)

theorem group_length (hlength : ds.length = 32) {first size : Nat} (h : first + size ≤ 32) :
    (group ds first size).length = size := by
  simp only [group, List.length_take, List.length_drop, hlength]
  omega

theorem grouped_length (hlength : ds.length = 32) : (grouped ds).length = 36 := by
  simp [grouped, group_length hlength]

theorem split_grouped (hfree : '-' ∉ ds) : Ascii.split '-' (grouped ds) =
    [group ds 0 8, group ds 8 4, group ds 12 4, group ds 16 4, group ds 20 12] := by
  have hgroup : ∀ first size, '-' ∉ group ds first size := fun _ _ h => hfree (mem_of_mem_group h)
  rw [grouped]
  simp only [Ascii.split_first (hgroup _ _), Ascii.split_part (hgroup _ _)]

theorem groups_flatten (hlength : ds.length = 32) :
    [group ds 0 8, group ds 8 4, group ds 12 4, group ds 16 4, group ds 20 12].flatten = ds := by
  have hnext : ∀ first size, group ds first size ++ ds.drop (first + size) = ds.drop first := by
    intro first size
    rw [group, ← List.drop_drop, List.take_append_drop]
  have hend : ds.drop 32 = [] := List.drop_eq_nil_of_le (Nat.le_of_eq hlength)
  simp only [List.flatten_cons, List.flatten_nil]
  rw [← hend, hnext 20 12, hnext 16 4, hnext 12 4, hnext 8 4, hnext 0 8, List.drop_zero]

theorem group_between (before part rest : List Char) :
    group (before ++ part ++ rest) before.length part.length = part := by
  simp [group]

/-- Groups of the right lengths are those of the digits in them. -/
theorem eq_grouped (h : (Ascii.split '-' cs).map List.length = groupLengths) :
    cs = grouped (Ascii.split '-' cs).flatten := by
  have hparts := Ascii.intercalate_split '-' cs
  revert h hparts
  generalize Ascii.split '-' cs = groups
  intro h hparts
  obtain ⟨a, b, c, d, e, rfl⟩ : ∃ a b c d e, groups = [a, b, c, d, e] := by
    have hcount : groups.length = 5 := by simpa [groupLengths] using congrArg List.length h
    match groups, hcount with
    | [a, b, c, d, e], _ => exact ⟨a, b, c, d, e, rfl⟩
  simp only [groupLengths, List.map_cons, List.map_nil, List.cons.injEq, and_true] at h
  obtain ⟨ha, hb, hc, hd, he⟩ := h
  have hfirst : group (a ++ b ++ c ++ d ++ e) 0 8 = a := by
    simpa [ha] using group_between [] a (b ++ c ++ d ++ e)
  have hsecond : group (a ++ b ++ c ++ d ++ e) 8 4 = b := by
    simpa [ha, hb] using group_between a b (c ++ d ++ e)
  have hthird : group (a ++ b ++ c ++ d ++ e) 12 4 = c := by
    simpa [ha, hb, hc] using group_between (a ++ b) c (d ++ e)
  have hfourth : group (a ++ b ++ c ++ d ++ e) 16 4 = d := by
    simpa [ha, hb, hc, hd] using group_between (a ++ b ++ c) d e
  have hfifth : group (a ++ b ++ c ++ d ++ e) 20 12 = e := by
    simpa [ha, hb, hc, hd, he] using group_between (a ++ b ++ c ++ d) e []
  have hflat : [a, b, c, d, e].flatten = a ++ b ++ c ++ d ++ e := by simp
  rw [hflat, grouped, hfirst, hsecond, hthird, hfourth, hfifth, ← hparts]
  simp [List.intercalate_cons_cons]

theorem readGrouped?_eq_some :
    readGrouped? cs = some u ↔ ∃ ds, DigitsOf u ds ∧ cs = grouped ds := by
  constructor
  · intro h
    simp only [readGrouped?] at h
    split at h
    · rename_i hlengths
      exact ⟨_, readPlain?_eq_some.mp h, eq_grouped hlengths⟩
    · cases h
  · rintro ⟨ds, hds, rfl⟩
    have hlengths : (Ascii.split '-' (grouped ds)).map List.length = groupLengths := by
      simp [split_grouped hds.hyphen_notMem, group_length hds.length, groupLengths]
    rw [readGrouped?, if_pos hlengths, split_grouped hds.hyphen_notMem,
      groups_flatten hds.length, readPlain?_eq_some]
    exact hds

/-! ### Forms -/

/-- The texts of an identifier. What a URN starts with may be in letters of either case too. -/
inductive Spelled (u : Uuid) : List Char → Prop
  | plain (ds : List Char) (hds : DigitsOf u ds) : Spelled u ds
  | grouped (ds : List Char) (hds : DigitsOf u ds) : Spelled u (grouped ds)
  | braced (ds : List Char) (hds : DigitsOf u ds) : Spelled u ('{' :: (Uuid.grouped ds ++ ['}']))
  | urn (start ds : List Char) (hstart : start.map Char.toLower = urnStart)
    (hds : DigitsOf u ds) : Spelled u (start ++ Uuid.grouped ds)

theorem mem_start (hstart : start.map Char.toLower = urnStart) (hc : c ∈ start) :
    c ≠ '_' ∧ c.utf8Size = 1 := by
  have hlower : c.toLower ∈ urnStart := hstart ▸ List.mem_map_of_mem hc
  have hall : urnStart.all (fun d => d ≠ '_' ∧ d.utf8Size = 1) = true := by decide
  obtain ⟨hclear, hsize⟩ := of_decide_eq_true (List.all_eq_true.mp hall _ hlower)
  refine ⟨?_, Ascii.utf8Size_toLower c ▸ hsize⟩
  rintro rfl
  exact hclear rfl

namespace Spelled

/-- No low line stands in a text of an identifier, and all its characters are of one byte. -/
theorem mem (h : Spelled u cs) (hc : c ∈ cs) : c ≠ '_' ∧ c.utf8Size = 1 := by
  have hdigits : ∀ {ds}, DigitsOf u ds → c ∈ ds → c ≠ '_' ∧ c.utf8Size = 1 := fun hds hc =>
    (Hex.isDigit_char (hds.isDigit hc)).2
  have hgrouped : ∀ {ds}, DigitsOf u ds → c ∈ Uuid.grouped ds → c ≠ '_' ∧ c.utf8Size = 1 := by
    intro ds hds hc
    rcases mem_grouped hc with hc | rfl
    · exact hdigits hds hc
    · decide
  cases h with
  | plain _ hds => exact hdigits hds hc
  | grouped ds hds => exact hgrouped hds hc
  | braced ds hds =>
    simp only [List.mem_cons, List.mem_append, List.not_mem_nil, or_false] at hc
    rcases hc with rfl | hc | rfl
    · decide
    · exact hgrouped hds hc
    · decide
  | urn start ds hstart hds =>
    rcases List.mem_append.mp hc with hc | hc
    · exact mem_start hstart hc
    · exact hgrouped hds hc

theorem size (h : Spelled u cs) : (String.ofList cs).utf8ByteSize = cs.length := by
  rw [String.utf8ByteSize_ofList, Ascii.utf8Len_eq_length fun _ hc => (h.mem hc).2]

end Spelled

theorem unbraced?_eq_some : unbraced? cs = some rest ↔ cs = '{' :: (rest ++ ['}']) := by
  constructor
  · intro h
    unfold unbraced? at h
    split at h
    · rename_i inner
      split at h
      · rename_i hlast
        cases h
        rw [List.dropLast_append_getLast? _ hlast]
      · cases h
    · cases h
  · rintro rfl
    simp [unbraced?]

theorem behindUrn?_eq_some : behindUrn? cs = some rest ↔
    ∃ start, start.map Char.toLower = urnStart ∧ cs = start ++ rest := by
  constructor
  · intro h
    obtain ⟨behind, hstrip, rfl⟩ := Option.map_eq_some_iff.mp h
    have hstart := Ascii.strip?_eq_some.mp hstrip
    have hshort : ((cs.take urnStart.length).map Char.toLower).length ≤ urnStart.length := by
      simp
    have hbehind : behind = [] := by
      rw [hstart, List.length_append] at hshort
      exact List.length_eq_zero_iff.mp (by omega)
    rw [hbehind, List.append_nil] at hstart
    exact ⟨_, hstart, (List.take_append_drop _ cs).symm⟩
  · rintro ⟨start, hstart, rfl⟩
    have hlength : start.length = urnStart.length := by
      simpa using congrArg List.length hstart
    have hfront : (start ++ rest).take urnStart.length = start := by simp [← hlength]
    have hbehind : (start ++ rest).drop urnStart.length = rest := by simp [← hlength]
    have hstrip : Ascii.strip? urnStart urnStart = some [] := by decide
    rw [behindUrn?, hfront, hbehind, hstart, hstrip, Option.map_some]

/-- The size of a text leads to the form that it has. -/
theorem readLayout?_spelled (h : Spelled u cs) : readLayout? (layout cs.length cs) = some u := by
  cases h with
  | plain _ hds =>
    rw [hds.length]
    simpa [layout, readLayout?] using readPlain?_eq_some.mpr hds
  | grouped ds hds =>
    rw [grouped_length hds.length]
    simpa [layout, readLayout?] using readGrouped?_eq_some.mpr ⟨ds, hds, rfl⟩
  | braced ds hds =>
    have hsize : ('{' :: (Uuid.grouped ds ++ ['}'])).length = 38 := by
      simp [grouped_length hds.length]
    rw [hsize]
    simpa [layout, readLayout?, unbraced?_eq_some.mpr rfl] using
      readGrouped?_eq_some.mpr ⟨ds, hds, rfl⟩
  | urn start ds hstart hds =>
    have hlength : start.length = 9 := by
      rw [← List.length_map Char.toLower, hstart]
      rfl
    have hsize : (start ++ Uuid.grouped ds).length = 45 := by
      simp [grouped_length hds.length, hlength]
    rw [hsize]
    simpa [layout, readLayout?, behindUrn?_eq_some.mpr ⟨start, hstart, rfl⟩] using
      readGrouped?_eq_some.mpr ⟨ds, hds, rfl⟩

theorem spelled_of_readLayout? {size : Nat} (h : readLayout? (layout size cs) = some u) :
    Spelled u cs := by
  unfold layout at h
  split at h
  · exact .plain cs (readPlain?_eq_some.mp h)
  split at h
  · obtain ⟨ds, hds, rfl⟩ := readGrouped?_eq_some.mp h
    exact .grouped ds hds
  split at h
  · cases hinner : unbraced? cs with
    | none => simp [hinner, readLayout?] at h
    | some inner =>
      obtain rfl := unbraced?_eq_some.mp hinner
      obtain ⟨ds, hds, rfl⟩ := readGrouped?_eq_some.mp (by simpa [hinner, readLayout?] using h)
      exact .braced ds hds
  split at h
  · cases hinner : behindUrn? cs with
    | none => simp [hinner, readLayout?] at h
    | some inner =>
      obtain ⟨start, hstart, rfl⟩ := behindUrn?_eq_some.mp hinner
      obtain ⟨ds, hds, rfl⟩ := readGrouped?_eq_some.mp (by simpa [hinner, readLayout?] using h)
      exact .urn start ds hstart hds
  · cases h

/-- Read are the texts of an identifier, and nothing else. -/
theorem read_eq_ok : read (String.ofList cs) = .ok u ↔ Spelled u cs := by
  constructor
  · intro h
    unfold read at h
    split at h
    · rename_i hlayout
      cases h
      simpa using spelled_of_readLayout? hlayout
    · cases h
  · intro h
    simp only [read, h.size, String.toList_ofList, readLayout?_spelled h]

theorem chars_grouped (u : Uuid) : u.chars = grouped u.digits := by
  have hlast : group u.digits 20 12 = u.digits.drop 20 := by
    refine List.take_of_length_le ?_
    simp [digits_length]
  rw [grouped, hlast]
  simp [chars, group, digits]

/-- The text that is written is one of them. -/
theorem spelled_chars (u : Uuid) : Spelled u u.chars := by
  rw [chars_grouped]
  exact .grouped _ u.digitsOf_digits

theorem mem_chars (h : c ∈ u.chars) : Hex.isDigit c = true ∨ c = '-' := by
  rw [chars_grouped] at h
  exact (mem_grouped h).imp_left fun hc => (mem_digits hc).1

theorem read_text (u : Uuid) : read u.text = .ok u := by
  unfold text
  exact read_eq_ok.mpr u.spelled_chars

end Uuid

namespace Kind

theorem lowLine_notMem (kind : Kind) : '_' ∉ kind.tag.toList := by
  cases kind <;> decide

theorem tag_injective : Function.Injective tag := by
  intro kind other h
  cases kind <;> cases other <;> first | rfl | exact absurd h (by decide)

/-- The tag in front of a text tells the kind. -/
theorem eq_of_tagged {kind other : Kind} {s t : String}
    (h : kind.tag ++ "_" ++ s = other.tag ++ "_" ++ t) : kind = other := by
  have hchars : kind.tag.toList ++ '_' :: s.toList = other.tag.toList ++ '_' :: t.toList := by
    simpa using congrArg String.toList h
  have hparts := congrArg (Ascii.split '_') hchars
  rw [Ascii.split_first kind.lowLine_notMem, Ascii.split_first other.lowLine_notMem] at hparts
  exact tag_injective (String.toList_injective (List.cons.inj hparts).1)

end Kind

namespace Id

variable {kind other : Kind} {s : String} {u : Uuid} {cs : List Char}

theorem untagged_tagged (kind : Kind) (cs : List Char) :
    untagged kind (kind.tag ++ "_" ++ String.ofList cs) = String.ofList cs := by
  have hstrip : Ascii.strip? (kind.tag ++ "_").toList
      (kind.tag ++ "_" ++ String.ofList cs).toList = some cs :=
    Ascii.strip?_eq_some.mpr (by simp)
  rw [untagged, hstrip]

/-- No tag stands in front of a text that holds no low line. -/
theorem untagged_of_notMem (kind : Kind) (h : '_' ∉ s.toList) : untagged kind s = s := by
  unfold untagged
  split
  · rename_i hstrip
    refine absurd ?_ h
    rw [Ascii.strip?_eq_some.mp hstrip]
    simp
  · rfl

theorem eq_untagged (kind : Kind) (s : String) :
    s = untagged kind s ∨ s = kind.tag ++ "_" ++ untagged kind s := by
  unfold untagged
  split
  · rename_i hstrip
    refine .inr (String.toList_injective ?_)
    rw [Ascii.strip?_eq_some.mp hstrip]
    simp
  · exact .inl rfl

/-- Nothing in a written identifier has a meaning in a path. -/
theorem text_plain (id : Id kind) : '/' ∉ id.text.toList ∧ '%' ∉ id.text.toList := by
  have htag : '/' ∉ kind.tag.toList ∧ '%' ∉ kind.tag.toList := by
    cases kind <;> decide
  have hchars : '/' ∉ id.uuid.chars ∧ '%' ∉ id.uuid.chars := by
    refine ⟨fun h => ?_, fun h => ?_⟩
    all_goals exact absurd (Uuid.mem_chars h) (by decide)
  simpa [text, Uuid.text, htag] using hchars

theorem read_eq_uuid : read kind s = .ok ⟨u⟩ ↔ Uuid.read (untagged kind s) = .ok u := by
  unfold read
  cases Uuid.read (untagged kind s) <;> simp [Functor.map, Except.map]

/-- Read are the texts of an identifier, with the tag of the kind in front of them or without. -/
theorem read_eq_ok : read kind s = .ok ⟨u⟩ ↔
    ∃ cs, Uuid.Spelled u cs ∧
      (s = String.ofList cs ∨ s = kind.tag ++ "_" ++ String.ofList cs) := by
  rw [read_eq_uuid]
  constructor
  · intro h
    rw [← String.ofList_toList (s := untagged kind s)] at h
    refine ⟨_, Uuid.read_eq_ok.mp h, ?_⟩
    rw [String.ofList_toList]
    exact eq_untagged kind s
  · rintro ⟨cs, hcs, rfl | rfl⟩
    · have hclear : '_' ∉ (String.ofList cs).toList := by
        rw [String.toList_ofList]
        exact fun hc => (hcs.mem hc).1 rfl
      rw [untagged_of_notMem kind hclear]
      exact Uuid.read_eq_ok.mpr hcs
    · rw [untagged_tagged]
      exact Uuid.read_eq_ok.mpr hcs

/-- What stands behind the tag of another kind is not read, whatever it is. -/
theorem read_other (hother : other ≠ kind) (s : String) :
    ∃ fault, read other (kind.tag ++ "_" ++ s) = .error fault := by
  cases hread : read other (kind.tag ++ "_" ++ s) with
  | error fault => exact ⟨fault, rfl⟩
  | ok id =>
    exfalso
    obtain ⟨cs, hcs, hplain | htagged⟩ := read_eq_ok.mp hread
    · have hline : '_' ∈ (String.ofList cs).toList := by
        rw [← hplain]
        simp
      rw [String.toList_ofList] at hline
      exact (hcs.mem hline).1 rfl
    · exact hother (Kind.eq_of_tagged htagged).symm

/-- An identifier is read from its own text, from every text of its digits with the tag of its kind
or without, and from nothing else. No other kind reads its text, or anything behind its tag. -/
theorem texts_typed (kind : Kind) (u : Uuid) :
    read kind (⟨u⟩ : Id kind).text = .ok ⟨u⟩ ∧
    (∀ s, read kind s = .ok ⟨u⟩ ↔ ∃ cs, Uuid.Spelled u cs ∧
      (s = String.ofList cs ∨ s = kind.tag ++ "_" ++ String.ofList cs)) ∧
    ∀ other ≠ kind, ∀ s, ∃ fault, read other (kind.tag ++ "_" ++ s) = .error fault := by
  refine ⟨?_, fun _ => read_eq_ok, fun _ hother s => read_other hother s⟩
  exact read_eq_ok.mpr ⟨_, u.spelled_chars, .inr rfl⟩

/-- A tag may start like a number in hexadecimal digits. -/
theorem texts_typed_cycle :
    read .cycle "cycle_URN:uuid:00000000-0000-0000-0000-00000000ABCD" =
      .ok ⟨Uuid.ofNat 0xabcd⟩ ∧
    (∃ fault, read .cycle (⟨Uuid.ofNat 0xabcd⟩ : Id .connection).text = .error fault) := by
  have htyped := texts_typed .cycle (Uuid.ofNat 0xabcd)
  refine ⟨(htyped.2.1 _).mpr ⟨_, .urn "URN:uuid:".toList
    ("0000000000000000000000000000ABCD".toList) (by decide) ?_, .inr ?_⟩, ?_⟩
  · decide
  · decide
  · exact (texts_typed .connection (Uuid.ofNat 0xabcd)).2.2 .cycle (by decide) _

end Id

end WalletBudget
