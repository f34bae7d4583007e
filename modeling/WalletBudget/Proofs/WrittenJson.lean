import WalletBudget.Json.Record
import WalletBudget.Json.Write
import WalletBudget.Proofs.HoldPolicy
import WalletBudget.Proofs.WrittenDigits

/-!
JSON values that are read back as they were written.

The values are those that records are written as: their numbers are amounts, and none of them stands
for a text that broke off. Each of the three readers takes exactly what its writer wrote.
-/

namespace WalletBudget.Json

variable {c : Char} {rest : List Char} {fuel : Nat}

/-! ### Strings -/

theorem unit?_lower {n : Nat} (hn : n < 32) :
    unit? '0' '0' (Hex.lower (n / 16)) (Hex.lower (n % 16)) = some n :=
  (by decide : ∀ n < 32, unit? '0' '0' (Hex.lower (n / 16)) (Hex.lower (n % 16)) = some n) n hn

/-- What follows an escape by number is of use only where it is another one. -/
theorem readLiteral_cases (rest : List Char) :
    (∃ e f g h more, rest = '\\' :: 'u' :: e :: f :: g :: h :: more) ∨
      ∀ e f g h more, rest = '\\' :: 'u' :: e :: f :: g :: h :: more → False := by
  by_cases hnext : ∃ e f g h more, rest = '\\' :: 'u' :: e :: f :: g :: h :: more
  · exact .inl hnext
  · exact .inr fun e f g h more heq => hnext ⟨e, f, g, h, more, heq⟩

theorem readLiteral_noUnit {a b d e : Char} (hu : unit? a b d e = none) (rest : List Char) :
    readLiteral ('\\' :: 'u' :: a :: b :: d :: e :: rest) = none := by
  obtain ⟨_, _, _, _, _, rfl⟩ | hlast := readLiteral_cases rest
  · rw [readLiteral.eq_3, hu]
  · rw [readLiteral.eq_4 _ _ _ _ _ hlast, hu]

/-- An escape that names a character below the surrogates is that character, whatever follows. -/
theorem readLiteral_unit {a b d e : Char} {u : Nat} (hu : unit? a b d e = some u)
    (hlt : u < 0xD800) (rest : List Char) :
    readLiteral ('\\' :: 'u' :: a :: b :: d :: e :: rest) =
      (readLiteral rest).map (.cons (Char.ofNat u)) := by
  have hhigh : isHigh u = false := by simp [isHigh]; omega
  have hlow : isLow u = false := by simp [isLow]; omega
  obtain ⟨i, j, k, l, _, rfl⟩ | hlast := readLiteral_cases rest
  · rw [readLiteral.eq_3, hu]
    cases hv : unit? i j k l with
    | none => simp only [readLiteral_noUnit hv, Option.map_none]
    | some v => simp only [hhigh, hlow, Bool.false_eq_true, if_false]
  · rw [readLiteral.eq_4 _ _ _ _ _ hlast, hu]
    simp only [hhigh, hlow, Bool.or_false, Bool.false_eq_true, if_false]

theorem readLiteral_escape (c : Char) (rest : List Char) :
    readLiteral (escape c ++ rest) = (readLiteral rest).map (.cons c) := by
  unfold escape
  split
  · simp [readLiteral, shortEscape?]
  · simp [readLiteral, shortEscape?]
  · simp [readLiteral, shortEscape?]
  · simp [readLiteral, shortEscape?]
  · simp [readLiteral, shortEscape?]
  · simp [readLiteral, shortEscape?]
  · simp [readLiteral, shortEscape?]
  · rename_i hquote hsolidus _ _ _ _ _
    split
    · rename_i hcontrol
      have hunit := readLiteral_unit (unit?_lower hcontrol) (by omega) rest
      rwa [Char.ofNat_toNat] at hunit
    · rename_i hplain
      rw [List.singleton_append, readLiteral.eq_6]
      · simp [hplain, show c ≠ '\\' from hsolidus]
      · exact hquote
      · exact fun _ _ _ _ _ _ _ _ _ h _ => hsolidus h
      · exact fun _ _ _ _ _ h _ => hsolidus h
      · exact fun _ _ h _ => hsolidus h

theorem readLiteral_quoted (cs : List Char) (rest : List Char) :
    readLiteral (cs.flatMap escape ++ '"' :: rest) = some ⟨cs, true, rest⟩ := by
  induction cs with
  | nil => simp [readLiteral]
  | cons c cs ih =>
    rw [List.flatMap_cons, List.append_assoc, readLiteral_escape, ih]
    rfl

/-! ### Numbers -/

namespace Number

def isAmount (n : Number) : Bool :=
  let value : Int := if n.negative then -(Digits.number n.whole : Int) else Digits.number n.whole
  n = .ofInt value && inRange value

theorem isAmount_iff {n : Number} : n.isAmount = true ↔ ∃ i, n = .ofInt i ∧ inRange i = true := by
  simp only [isAmount, Bool.and_eq_true, decide_eq_true_eq]
  constructor
  · exact fun h => ⟨_, h⟩
  · rintro ⟨i, rfl, hrange⟩
    have hvalue : (if (ofInt i).negative = true then -(Digits.number (ofInt i).whole : Int)
        else Digits.number (ofInt i).whole) = i := by
      simp only [ofInt, Digits.number_ofNat, decide_eq_true_eq]
      split <;> omega
    rw [hvalue]
    exact ⟨rfl, hrange⟩

/-- Nothing stands at the front that could go on with a number. -/
def Ends (rest : List Char) : Prop :=
  ∀ c, rest.head? = some c → c.isDigit = false ∧ c ≠ '.' ∧ c ≠ 'e' ∧ c ≠ 'E'

theorem Ends.nil : Ends [] := by simp [Ends]

theorem Ends.digits (h : Ends rest) : Digits.Ends rest := fun c hc => (h c hc).1

theorem chars_ofInt (i : Int) :
    (ofInt i).chars = (if i < 0 then ['-'] else []) ++ Digits.ofNat i.natAbs := by
  simp [chars, ofInt]

theorem value?_ofInt {i : Int} (hi : inRange i = true) : (ofInt i).value? = some (.whole i) := by
  have hrange := inRange_iff.mp hi
  simp only [leastAmount, largestAmount] at hrange
  simp only [value?, ofInt, Digits.number_ofNat, Word.largest64, and_self, if_true]
  by_cases hneg : i < 0
  · have hlarge : i.natAbs ≤ 0x8000000000000000 := by omega
    have hsome : 0 < i.natAbs := by omega
    have hvalue : -(i.natAbs : Int) = i := by omega
    rw [if_neg (by simp [hneg]), if_pos ⟨decide_eq_true hneg, hsome, hlarge⟩, hvalue]
  · have hlarge : i.natAbs ≤ 0xFFFFFFFFFFFFFFFF := by omega
    have hvalue : (i.natAbs : Int) = i := by omega
    rw [if_pos ⟨decide_eq_false hneg, hlarge⟩, hvalue]

end Number

/-- A row of digits with a sign or none. The first digit is not zero unless it is the only one. -/
theorem readNumber?_digits {ds : List Char} (hds : ∀ c ∈ ds, c.isDigit = true)
    (hwhole : ¬ (ds = [] ∨ ds.length > 1 ∧ ds.head? = some '0')) (hrest : Number.Ends rest)
    (sign : Bool) :
    readNumber? ((if sign then ['-'] else []) ++ (ds ++ rest)) =
      some (⟨sign, ds, [], none⟩, rest) := by
  have hspan : Digits.span (ds ++ rest) = (ds, rest) := Digits.span_digits hds hrest.digits
  have hunsigned : ∀ more, ds ++ rest = '-' :: more → False := by
    intro more heq
    cases ds with
    | nil => exact hwhole (.inl rfl)
    | cons c ds =>
      cases heq
      exact absurd (hds '-' (by simp)) (by decide)
  cases sign
  all_goals
    simp only [Bool.false_eq_true, if_true, if_false, List.nil_append, List.singleton_append,
      readNumber?, hspan, hwhole]
    cases rest with
    | nil => rfl
    | cons c rest =>
      obtain ⟨-, hpoint, hsmall, hlarge⟩ := hrest c rfl
      simp [hpoint, hsmall, hlarge]

theorem readNumber?_ofInt (i : Int) (hrest : Number.Ends rest) :
    readNumber? ((Number.ofInt i).chars ++ rest) = some (.ofInt i, rest) := by
  have hwhole : ¬ (Digits.ofNat i.natAbs = [] ∨
      (Digits.ofNat i.natAbs).length > 1 ∧ (Digits.ofNat i.natAbs).head? = some '0') := by
    rintro (hnil | ⟨hlong, hzero⟩)
    · exact Digits.ofNat_ne_nil _ hnil
    · rcases Nat.eq_zero_or_pos i.natAbs with h | h
      · rw [h, Digits.ofNat] at hlong
        exact absurd hlong (by decide)
      · exact Digits.ofNat_head h hzero
  have hread := readNumber?_digits (Digits.ofNat_isDigit _) hwhole hrest (decide (i < 0))
  rw [Number.chars_ofInt, List.append_assoc]
  simpa [Number.ofInt] using hread

/-! ### Values -/

def isPlain (j : Json) : Bool :=
  j.every (fun
    | .null => true
    | .bool _ => true
    | .str _ => true
    | .num n => n.isAmount
    | _ => false)

theorem skipBlanks_cons (h : isBlank c = false) (cs : List Char) :
    skipBlanks (c :: cs) = c :: cs := by
  simp [skipBlanks, h]

theorem ne_of_number (h : c.isDigit = true ∨ c = '-') {d : Char} (hdigit : d.isDigit = false)
    (hsign : d ≠ '-') : c ≠ d := by
  rintro rfl
  rcases h with h | h
  · rw [hdigit] at h
    cases h
  · exact hsign h

theorem isBlank_number (h : c.isDigit = true ∨ c = '-') : isBlank c = false := by
  have hne := fun d => ne_of_number h (d := d)
  simp [isBlank, hne ' ' (by decide) (by decide), hne '\n' (by decide) (by decide),
    hne '\t' (by decide) (by decide), hne '\r' (by decide) (by decide)]

theorem readValue_number (h : c.isDigit = true ∨ c = '-') (cs : List Char) :
    readValue (fuel + 1) (c :: cs) =
      match readNumber? (c :: cs) with
      | some (n, rest) => ⟨.num n, some rest⟩
      | none => ⟨.cut, none⟩ := by
  rw [readValue, skipBlanks_cons (isBlank_number h)]
  split
  case h_7 => rfl
  all_goals
    rename_i heq
    cases heq
    exact absurd rfl (ne_of_number h (by decide) (by decide))

theorem Number.Ends.comma (rest : List Char) : Number.Ends (',' :: rest) := by
  simp [Number.Ends]

theorem Number.Ends.bracket (rest : List Char) : Number.Ends (']' :: rest) := by
  simp [Number.Ends]

theorem Number.Ends.brace (rest : List Char) : Number.Ends ('\x7d' :: rest) := by
  simp [Number.Ends]

theorem isPlain_num {n : Number} :
    (num n).isPlain = true ↔ ∃ i, n = .ofInt i ∧ inRange i = true := by
  rw [← Number.isAmount_iff]
  rfl

theorem isPlain_arr {item : Json} {items : List Json} : (arr (item :: items)).isPlain = true ↔
    item.isPlain = true ∧ (arr items).isPlain = true := by
  simp only [isPlain, every, everyItem, Bool.and_eq_true]

theorem isPlain_obj {name : String} {value : Json} {entries : List (String × Json)} :
    (obj ((name, value) :: entries)).isPlain = true ↔
      value.isPlain = true ∧ (obj entries).isPlain = true := by
  simp only [isPlain, every, everyEntry, Bool.and_eq_true]

/-- A number is written with a digit or a minus sign in front. -/
theorem chars_ofInt_head (i : Int) :
    ∃ c cs, (Number.ofInt i).chars = c :: cs ∧ (c.isDigit = true ∨ c = '-') := by
  rw [Number.chars_ofInt]
  by_cases hneg : i < 0
  · exact ⟨'-', Digits.ofNat i.natAbs, by simp [hneg], .inr rfl⟩
  · cases hds : Digits.ofNat i.natAbs with
    | nil => exact absurd hds (Digits.ofNat_ne_nil _)
    | cons c ds =>
      have hc := Digits.ofNat_isDigit i.natAbs c (by simp [hds])
      exact ⟨c, ds, by simp [hneg], .inl hc⟩

/-- No value is written with a blank or a closing mark in front. -/
theorem chars_head (j : Json) (hj : j.isPlain = true) :
    ∃ c cs, j.chars = c :: cs ∧ isBlank c = false ∧ c ≠ ']' := by
  cases j with
  | null => exact ⟨_, _, rfl, by decide, by decide⟩
  | bool b => cases b <;> exact ⟨_, _, rfl, by decide, by decide⟩
  | num n =>
    obtain ⟨i, rfl, -⟩ := isPlain_num.mp hj
    obtain ⟨c, cs, hcs, hc⟩ := chars_ofInt_head i
    refine ⟨c, cs, hcs, isBlank_number hc, ?_⟩
    exact ne_of_number hc (by decide) (by decide)
  | str s => exact ⟨_, _, rfl, by decide, by decide⟩
  | arr items => cases items <;> exact ⟨_, _, rfl, by decide, by decide⟩
  | obj entries => cases entries <;> exact ⟨_, _, rfl, by decide, by decide⟩
  | unpaired => cases hj
  | unnamed j => cases hj
  | cut => cases hj

theorem itemChars_ends (items : List Json) (rest : List Char) :
    Number.Ends (itemChars items ++ ']' :: rest) := by
  cases items with
  | nil => exact .bracket rest
  | cons item items => exact .comma _

theorem entryChars_ends (entries : List (String × Json)) (rest : List Char) :
    Number.Ends (entryChars entries ++ '\x7d' :: rest) := by
  cases entries with
  | nil => exact .brace rest
  | cons entry entries => exact .comma _

mutual

/-- The text is longer than the value is deep, so the fuel that it gives is enough. -/
theorem readValue_chars : ∀ (j : Json) (fuel : Nat) (rest : List Char), j.isPlain = true →
    2 * j.chars.length ≤ fuel → Number.Ends rest → readValue fuel (j.chars ++ rest) = ⟨j, some rest⟩
  | j, 0, rest, hj, hfuel, _ => by
    obtain ⟨c, cs, hcs, -⟩ := chars_head j hj
    simp [hcs] at hfuel
  | .null, fuel + 1, rest, _, _, _ => by simp [chars, readValue, skipBlanks, isBlank]
  | .bool true, fuel + 1, rest, _, _, _ => by simp [chars, readValue, skipBlanks, isBlank]
  | .bool false, fuel + 1, rest, _, _, _ => by simp [chars, readValue, skipBlanks, isBlank]
  | .num n, fuel + 1, rest, hj, _, hrest => by
    obtain ⟨i, rfl, -⟩ := isPlain_num.mp hj
    obtain ⟨c, cs, hcs, hc⟩ := chars_ofInt_head i
    have hread := readNumber?_ofInt i hrest
    rw [chars, hcs] at *
    rw [List.cons_append] at *
    rw [readValue_number hc, hread]
  | .str s, fuel + 1, rest, _, _, _ => by
    rw [chars, quoted, List.cons_append, List.append_assoc, readValue, skipBlanks_cons (by decide)]
    simp [readLiteral_quoted]
  | .arr [], fuel + 1, rest, _, _, _ => by simp [chars, readValue, skipBlanks, isBlank]
  | .arr (item :: items), fuel + 1, rest, hj, hfuel, _ => by
    have hlength : 2 * (itemChars (item :: items)).length ≤ fuel := by
      simp only [chars, itemChars, List.length_cons, List.length_append, List.length_nil] at hfuel ⊢
      omega
    have hread := readItems_chars (item :: items) fuel rest
      (item.chars ++ (itemChars items ++ ']' :: rest)) hj hlength (by simp [itemChars])
    obtain ⟨c, cs, hcs, hblank, hclose⟩ := chars_head item (isPlain_arr.mp hj).1
    simp only [chars, List.cons_append, List.append_assoc, List.nil_append, hcs] at hread ⊢
    rw [readValue, skipBlanks_cons (by decide)]
    simp only [skipBlanks_cons hblank]
    split
    · rename_i heq
      cases heq
      exact absurd rfl hclose
    · rw [hread]
  | .obj [], fuel + 1, rest, _, _, _ => by simp [chars, readValue, skipBlanks, isBlank]
  | .obj ((name, value) :: entries), fuel + 1, rest, hj, hfuel, _ => by
    have hlength : 2 * (entryChars ((name, value) :: entries)).length ≤ fuel := by
      simp only [chars, entryChars, List.length_cons, List.length_append,
        List.length_nil] at hfuel ⊢
      omega
    have hread := readEntries_chars ((name, value) :: entries) fuel rest
      (quoted name ++ ':' :: (value.chars ++ (entryChars entries ++ '\x7d' :: rest))) hj hlength
      (by simp [entryChars])
    simp only [chars, quoted, List.cons_append, List.append_assoc, List.nil_append] at hread ⊢
    rw [readValue, skipBlanks_cons (by decide)]
    simp only [skipBlanks_cons (by decide : isBlank '"' = false)]
    split
    · rename_i heq
      cases heq
    · rw [hread]

theorem readItems_chars : ∀ (items : List Json) (fuel : Nat) (rest text : List Char),
    (arr items).isPlain = true → 2 * (itemChars items).length ≤ fuel →
    itemChars items ++ ']' :: rest = ',' :: text → readItems fuel text = ⟨items, some rest⟩
  | [], fuel, rest, text, _, _, htext => by cases htext
  | item :: items, 0, rest, text, _, hfuel, _ => by simp [itemChars] at hfuel
  | item :: items, fuel + 1, rest, text, hitems, hfuel, htext => by
    simp only [itemChars, List.cons_append, List.append_assoc, List.cons.injEq, true_and] at htext
    simp only [itemChars, List.length_cons, List.length_append] at hfuel
    obtain ⟨hitem, hitems⟩ := isPlain_arr.mp hitems
    have hread := readValue_chars item fuel (itemChars items ++ ']' :: rest) hitem (by omega)
      (itemChars_ends items rest)
    rw [← htext, readItems, hread]
    cases items with
    | nil => simp [itemChars, skipBlanks, isBlank]
    | cons next items =>
      have htail := readItems_chars (next :: items) fuel rest
        (next.chars ++ (itemChars items ++ ']' :: rest)) hitems (by omega) (by simp [itemChars])
      simp only [itemChars, List.cons_append, List.append_assoc,
        skipBlanks_cons (by decide : isBlank ',' = false), htail]

theorem readEntries_chars : ∀ (entries : List (String × Json)) (fuel : Nat) (rest text : List Char),
    (obj entries).isPlain = true → 2 * (entryChars entries).length ≤ fuel →
    entryChars entries ++ '\x7d' :: rest = ',' :: text →
    readEntries fuel text = ⟨entries, some rest⟩
  | [], fuel, rest, text, _, _, htext => by cases htext
  | (name, value) :: entries, 0, rest, text, _, hfuel, _ => by simp [entryChars] at hfuel
  | (name, value) :: entries, fuel + 1, rest, text, hentries, hfuel, htext => by
    simp only [entryChars, List.cons_append, List.append_assoc, List.cons.injEq, true_and] at htext
    simp only [entryChars, List.length_cons, List.length_append] at hfuel
    obtain ⟨hvalue, hentries⟩ := isPlain_obj.mp hentries
    have hread := readValue_chars value fuel (entryChars entries ++ '\x7d' :: rest) hvalue
      (by omega) (entryChars_ends entries rest)
    rw [← htext, readEntries, quoted, List.cons_append, List.append_assoc,
      skipBlanks_cons (by decide)]
    simp only [List.singleton_append, readLiteral_quoted, if_true, String.ofList_toList,
      skipBlanks_cons (by decide : isBlank ':' = false), hread]
    cases entries with
    | nil => simp [entryChars, skipBlanks, isBlank]
    | cons next entries =>
      obtain ⟨nextName, nextValue⟩ := next
      have htail := readEntries_chars ((nextName, nextValue) :: entries) fuel rest
        (quoted nextName ++ ':' :: (nextValue.chars ++ (entryChars entries ++ '\x7d' :: rest)))
        hentries (by omega) (by simp [entryChars])
      simp only [entryChars, List.cons_append, List.append_assoc,
        skipBlanks_cons (by decide : isBlank ',' = false), htail]

end

/-- A written value is read back, and nothing is left behind it. -/
theorem readAll_write {j : Json} (hj : j.isPlain = true) : readAll (write j) = (j, true) := by
  have hread := readValue_chars j (2 * j.chars.length + 2) [] hj (by omega) .nil
  rw [List.append_nil] at hread
  simp only [readAll, readPrefix, write, String.toList_ofList, hread]
  rfl

/-- A text is decoded as the value that it was written for. -/
theorem decode_write {α : Type} {j : Json} (hj : j.isPlain = true) (decoder : Decoder α) :
    decode decoder (write j) = decoder j := by
  simp only [decode, readAll_write hj, if_true]
  cases decoder j <;> rfl

/-! ### Values that are kept whole -/

mutual

theorem every_mono {p q : Json → Bool} (h : ∀ j, p j = true → q j = true) :
    ∀ j : Json, j.every p = true → j.every q = true
  | .arr items, hj => everyItem_mono h items hj
  | .obj entries, hj => everyEntry_mono h entries hj
  | .null, hj => h _ hj
  | .bool _, hj => h _ hj
  | .num _, hj => h _ hj
  | .str _, hj => h _ hj
  | .unpaired, hj => h _ hj
  | .unnamed _, hj => h _ hj
  | .cut, hj => h _ hj

theorem everyItem_mono {p q : Json → Bool} (h : ∀ j, p j = true → q j = true) :
    ∀ items : List Json, everyItem p items = true → everyItem q items = true
  | [], _ => rfl
  | item :: items, hitems => by
    simp only [everyItem, Bool.and_eq_true] at hitems ⊢
    exact ⟨every_mono h item hitems.1, everyItem_mono h items hitems.2⟩

theorem everyEntry_mono {p q : Json → Bool} (h : ∀ j, p j = true → q j = true) :
    ∀ entries : List (String × Json), everyEntry p entries = true → everyEntry q entries = true
  | [], _ => rfl
  | (name, value) :: entries, hentries => by
    simp only [everyEntry, Bool.and_eq_true] at hentries ⊢
    exact ⟨every_mono h value hentries.1, everyEntry_mono h entries hentries.2⟩

end

/-- The number of an amount has a value. -/
theorem isSound_of_plain {j : Json} (hj : j.isPlain = true) (hdepth : j.depth ≤ maxDepth) :
    j.isSound = true := by
  simp only [isSound, hdepth, decide_true, Bool.and_true]
  refine every_mono (fun scalar hscalar => ?_) j hj
  cases scalar with
  | num n =>
    obtain ⟨i, rfl, hi⟩ := Number.isAmount_iff.mp hscalar
    simp [wrongKind, Number.value?_ofInt hi]
  | null => rfl
  | bool b => rfl
  | str s => rfl
  | arr items => cases hscalar
  | obj entries => cases hscalar
  | unpaired => cases hscalar
  | unnamed value => cases hscalar
  | cut => cases hscalar

end WalletBudget.Json
