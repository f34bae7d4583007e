import Mathlib.Data.List.Basic
import WalletBudget.Text.Form

/-!
Escapes of bytes that are written and read back.

A text that was escaped decodes to what the text itself decodes to, as long as percent signs and
hexadecimal digits are written as they are. So it comes back unchanged if and only if no percent
sign in it stood for an escape already. A form leaves no percent sign as it is, and every pair comes
back.
-/

namespace WalletBudget

variable {b high low : UInt8} {bs part rest : List UInt8} {parts : List (List UInt8)}
  {text : List Char} {escaped : UInt8 → Bool}

namespace Percent

theorem toList_loop (data : ByteArray) (i : Nat) (done : List UInt8) :
    ByteArray.toList.loop data i done = done.reverse ++ data.data.toList.drop i := by
  fun_induction ByteArray.toList.loop data i done with
  | case1 i done hlt ih =>
    have hnext : data.data.toList.drop i = data.get! i :: data.data.toList.drop (i + 1) := by
      rw [List.drop_eq_getElem_cons (by simpa using hlt)]
      simp [ByteArray.get!, getElem!_pos data.data i hlt]
    rw [ih, hnext, List.reverse_cons, List.append_assoc, List.singleton_append]
  | case2 i done hend =>
    rw [List.drop_of_length_le (by simpa using hend), List.append_nil]

theorem bytes_ofList (text : List Char) :
    bytes (String.ofList text) = text.flatMap String.utf8EncodeChar := by
  rw [bytes, String.toUTF8, ByteArray.toList, toList_loop]
  simp [List.utf8Encode]

def byte (c : Char) : UInt8 := UInt8.ofNat c.toNat

theorem bytes_ascii (h : ∀ c ∈ text, c.toNat < 128) :
    bytes (String.ofList text) = text.map byte := by
  rw [bytes_ofList, List.map_eq_flatMap]
  apply List.flatMap_congr
  intro c hc
  have hle : c.val.toNat ≤ 127 := Nat.le_of_lt_succ (h c hc)
  simp only [String.utf8EncodeChar, hle, if_true]
  rfl

theorem char_byte_ascii {c : Char} (h : c.toNat < 128) : char (byte c) = c := by
  have hval : (UInt8.ofNat c.toNat).toNat = c.toNat := UInt8.toNat_ofNat_of_lt' (by
    simp only [UInt8.size]
    omega)
  rw [char, byte, hval, Char.ofNat_toNat]

/-- A byte in the range of ASCII is one of a character of that range. -/
theorem char_mem_of_mem_bytes (hb : b < 128) (h : b ∈ bytes (String.ofList text)) :
    char b ∈ text := by
  rw [bytes_ofList] at h
  obtain ⟨c, hc, hmem⟩ := List.mem_flatMap.mp h
  have hlt : b.toNat < 128 := hb
  have hsmall : ∀ n, 128 ≤ n → n < 256 → b ≠ UInt8.ofNat n := by
    rintro n hn hn' rfl
    rw [UInt8.toNat_ofNat_of_lt' hn'] at hlt
    omega
  simp only [String.utf8EncodeChar] at hmem
  split at hmem
  · rename_i hle
    obtain rfl := List.mem_singleton.mp hmem
    have hsame : char (UInt8.ofNat c.val.toNat) = c := char_byte_ascii (Nat.lt_succ_of_le hle)
    rwa [hsame]
  · -- Every byte of a longer character is out of the range.
    exfalso
    split at hmem
    · simp only [List.mem_cons, List.not_mem_nil, or_false] at hmem
      rcases hmem with h | h
      all_goals exact hsmall _ (by omega) (by omega) h
    split at hmem
    · simp only [List.mem_cons, List.not_mem_nil, or_false] at hmem
      rcases hmem with h | h | h
      all_goals exact hsmall _ (by omega) (by omega) h
    · simp only [List.mem_cons, List.not_mem_nil, or_false] at hmem
      rcases hmem with h | h | h | h
      all_goals exact hsmall _ (by omega) (by omega) h

theorem char_byte (hb : b < 128) : byte (char b) = b ∧ (char b).toNat < 128 := by
  have hlt : b.toNat < 128 := hb
  have hvalid : b.toNat.isValidChar := .inl (by omega)
  have hchar : (char b).toNat = b.toNat := by
    rw [char, Char.ofNat, dif_pos hvalid]
    rfl
  exact ⟨by rw [byte, hchar, UInt8.ofNat_toNat], by omega⟩

theorem hex_digit {n : Nat} (hn : n < 16) : (Hex.upper n).toNat < 128 ∧
    digit? (byte (Hex.upper n)) = some n ∧ byte (Hex.upper n) ≠ 37 ∧ byte (Hex.upper n) ≠ 43 :=
  (by decide : ∀ n < 16, (Hex.upper n).toNat < 128 ∧
    digit? (byte (Hex.upper n)) = some n ∧ byte (Hex.upper n) ≠ 37 ∧ byte (Hex.upper n) ≠ 43) n hn

theorem digit?_lt (h : (digit? b).isSome = true) : b < 128 ∧ b ≠ 37 := by
  have hall : ∀ n < 256, (digit? (UInt8.ofNat n)).isSome = true →
      UInt8.ofNat n < 128 ∧ UInt8.ofNat n ≠ 37 := by decide +kernel
  simpa using hall b.toNat b.toNat_lt (by simpa using h)

/-! ### Decoding -/

/-- Two hexadecimal digits stand at the front. -/
def Opens (bs : List UInt8) : Prop :=
  ∃ high low rest, bs = high :: low :: rest ∧ (digit? high).isSome = true ∧
    (digit? low).isSome = true

theorem decode_plain (h : b = 37 → ¬ Opens bs) : decode (b :: bs) = b :: decode bs := by
  by_cases hb : b = 37
  · subst hb
    match bs with
    | [] => rfl
    | [_] => rfl
    | high :: low :: rest =>
      rw [decode]
      split
      · rename_i h' l' hhigh hlow
        exact absurd ⟨high, low, rest, rfl, by simp [hhigh], by simp [hlow]⟩ (h rfl)
      · rfl
  · rw [decode]
    simp [hb]

def Unescaped (bs : List UInt8) : Prop :=
  ∀ before rest, bs = before ++ 37 :: rest → ¬ Opens rest

theorem unescaped_cons : Unescaped (b :: bs) ↔ (b = 37 → ¬ Opens bs) ∧ Unescaped bs := by
  constructor
  · intro h
    exact ⟨fun hb => h [] bs (by rw [hb]; rfl), fun before rest hbs =>
      h (b :: before) rest (by rw [hbs]; rfl)⟩
  · rintro ⟨hfirst, hlater⟩ before rest hbs
    cases before with
    | nil =>
      obtain ⟨rfl, rfl⟩ := List.cons.inj hbs
      exact hfirst rfl
    | cons c before => exact hlater before rest (List.cons.inj hbs).2

/-- A row of bytes is decoded from the left: an escape at the front, or a byte that stands for
itself. -/
@[elab_as_elim]
theorem decode_induction {motive : List UInt8 → Prop} (nil : motive [])
    (escape : ∀ high low rest h l, digit? high = some h → digit? low = some l → motive rest →
      motive (37 :: high :: low :: rest))
    (plain : ∀ b rest, (b = 37 → ¬ Opens rest) → motive rest → motive (b :: rest))
    (bs : List UInt8) : motive bs := by
  induction bs using decode.induct with
  | case1 high low rest h l hlow hhigh ih => exact escape high low rest h l hhigh hlow ih
  | case2 high low rest hnone ih =>
    refine plain 37 _ (fun _ => ?_) ih
    rintro ⟨high', low', rest', heq, hhigh, hlow⟩
    cases heq
    obtain ⟨h, hhigh⟩ := Option.isSome_iff_exists.mp hhigh
    obtain ⟨l, hlow⟩ := Option.isSome_iff_exists.mp hlow
    exact hnone h l hhigh hlow
  | case3 b rest hnone ih =>
    refine plain b rest (fun hb => ?_) ih
    rintro ⟨high, low, rest', hrest, -⟩
    exact hnone high low rest' hb hrest
  | case4 => exact nil

theorem decode_escape {h l : Nat} (hhigh : digit? high = some h) (hlow : digit? low = some l)
    (rest : List UInt8) :
    decode (37 :: high :: low :: rest) = UInt8.ofNat (16 * h + l) :: decode rest := by
  simp only [decode, hhigh, hlow]

theorem length_decode_le (bs : List UInt8) : (decode bs).length ≤ bs.length := by
  induction bs using decode_induction with
  | nil => simp [decode]
  | escape high low rest h l hhigh hlow ih =>
    rw [decode_escape hhigh hlow]
    simp only [List.length_cons]
    omega
  | plain b rest hplain ih =>
    rw [decode_plain hplain]
    simpa using ih

/-- Bytes decode to themselves if and only if there is no escape among them. -/
theorem decode_eq_self : decode bs = bs ↔ Unescaped bs := by
  induction bs using decode_induction with
  | nil => simp [decode, Unescaped]
  | escape high low rest h l hhigh hlow ih =>
    refine iff_of_false (fun heq => ?_) fun hfree => ?_
    · have hlength := congrArg List.length heq
      have hle := length_decode_le rest
      rw [decode_escape hhigh hlow] at hlength
      simp only [List.length_cons] at hlength
      omega
    · exact (unescaped_cons.mp hfree).1 rfl ⟨high, low, rest, rfl, by simp [hhigh], by simp [hlow]⟩
  | plain b rest hplain ih =>
    rw [decode_plain hplain, unescaped_cons, ← ih, List.cons_inj_right, and_iff_right hplain]

theorem unescaped_of_notMem (h : 37 ∉ bs) : Unescaped bs := by
  rintro before rest rfl
  exact absurd (by simp) h

/-- A text without percent signs decodes to itself. -/
theorem decodeText?_self {s : String} (h : '%' ∉ s.toList) : decodeText? s = some s := by
  have hfree : 37 ∉ bytes s := by
    intro hmem
    rw [← String.ofList_toList (s := s)] at hmem
    exact h (char_mem_of_mem_bytes (by decide) hmem)
  have hdata : ByteArray.mk (bytes s).toArray = s.toByteArray := by
    rw [bytes, ByteArray.toList, toList_loop]
    rfl
  rw [decodeText?, decode_eq_self.mpr (unescaped_of_notMem hfree), hdata, String.fromUTF8?,
    dif_pos s.isValidUTF8]
  rfl

/-! ### What is written for a byte -/

def written (escaped : UInt8 → Bool) (b : UInt8) : List UInt8 :=
  if b ≥ 128 || escaped b then (escape b).map byte else [b]

theorem written_cases (escaped : UInt8 → Bool) (b : UInt8) :
    written escaped b = (escape b).map byte ∨ written escaped b = [b] ∧ escaped b = false := by
  unfold written
  split
  · exact .inl rfl
  · exact .inr ⟨rfl, by simp_all⟩

theorem escape_ascii (b : UInt8) : ∀ c ∈ escape b, c.toNat < 128 := by
  have hb := b.toNat_lt
  have hhigh := (hex_digit (n := b.toNat / 16) (by omega)).1
  have hlow := (hex_digit (n := b.toNat % 16) (by omega)).1
  simp only [escape, List.mem_cons, List.not_mem_nil, or_false]
  rintro c (rfl | rfl | rfl)
  · decide
  · exact hhigh
  · exact hlow

theorem bytes_encode (escaped : UInt8 → Bool) (bs : List UInt8) :
    bytes (String.ofList (encode escaped bs)) = bs.flatMap (written escaped) := by
  have hone : ∀ b, (∀ c ∈ if b ≥ 128 || escaped b then escape b else [char b], c.toNat < 128) ∧
      (if b ≥ 128 || escaped b then escape b else [char b]).map byte = written escaped b := by
    intro b
    unfold written
    split
    · exact ⟨escape_ascii b, rfl⟩
    · rename_i hplain
      have hb : b < 128 := by simp_all
      simpa using (char_byte hb).symm
  rw [bytes_ascii, encode, List.map_flatMap]
  · exact List.flatMap_congr fun b _ => (hone b).2
  · intro c hc
    obtain ⟨b, -, hc⟩ := List.mem_flatMap.mp hc
    exact (hone b).1 c hc

theorem decode_map_escape (b : UInt8) (rest : List UInt8) :
    decode ((escape b).map byte ++ rest) = b :: decode rest := by
  have hb := b.toNat_lt
  obtain ⟨-, hhigh, -⟩ := hex_digit (n := b.toNat / 16) (by omega)
  obtain ⟨-, hlow, -⟩ := hex_digit (n := b.toNat % 16) (by omega)
  have hvalue : 16 * (b.toNat / 16) + b.toNat % 16 = b.toNat := by omega
  have h := decode_escape hhigh hlow rest
  rw [hvalue, UInt8.ofNat_toNat] at h
  exact h

theorem written_digit (hdigit : ∀ b, (digit? b).isSome = true → escaped b = false)
    (hb : (digit? b).isSome = true) : written escaped b = [b] := by
  have hlt := (digit?_lt hb).1
  simp [written, hdigit b hb, UInt8.not_le.mpr hlt]

/-- What is written for another byte does not begin with a digit. -/
theorem written_other (escaped : UInt8 → Bool) (hb : digit? b = none) :
    ∃ c rest, written escaped b = c :: rest ∧ digit? c = none := by
  rcases written_cases escaped b with hwritten | ⟨hwritten, -⟩
  · exact ⟨37, _, hwritten, by decide⟩
  · exact ⟨b, [], hwritten, hb⟩

/-- A digit at the front of what is written was a digit at the front. -/
theorem digit_written (hdigit : ∀ b, (digit? b).isSome = true → escaped b = false)
    (h : bs.flatMap (written escaped) = b :: rest) (hb : (digit? b).isSome = true) :
    ∃ after, bs = b :: after ∧ rest = after.flatMap (written escaped) := by
  cases bs with
  | nil => cases h
  | cons c after =>
    rw [List.flatMap_cons] at h
    cases hc : digit? c with
    | none =>
      obtain ⟨d, ds, hwritten, hd⟩ := written_other escaped hc
      rw [hwritten, List.cons_append] at h
      obtain ⟨rfl, -⟩ := List.cons.inj h
      rw [hd] at hb
      cases hb
    | some n =>
      rw [written_digit hdigit (by simp [hc]), List.singleton_append] at h
      obtain ⟨rfl, rfl⟩ := List.cons.inj h
      exact ⟨after, rfl, rfl⟩

theorem opens_written (hdigit : ∀ b, (digit? b).isSome = true → escaped b = false)
    (h : Opens (bs.flatMap (written escaped))) : Opens bs := by
  obtain ⟨high, low, rest, heq, hhigh, hlow⟩ := h
  obtain ⟨after, rfl, heq'⟩ := digit_written hdigit heq hhigh
  obtain ⟨after, rfl, -⟩ := digit_written hdigit heq'.symm hlow
  exact ⟨high, low, after, rfl, hhigh, hlow⟩

/-- An escaped text decodes to what the text itself decodes to. -/
theorem decode_written (hsign : escaped 37 = false)
    (hdigit : ∀ b, (digit? b).isSome = true → escaped b = false) (bs : List UInt8) :
    decode (bs.flatMap (written escaped)) = decode bs := by
  induction bs using decode_induction with
  | nil => rfl
  | escape high low rest h l hhigh hlow ih =>
    have hsigns : written escaped 37 = [37] := by simp [written, hsign]
    rw [List.flatMap_cons, List.flatMap_cons, List.flatMap_cons, hsigns,
      written_digit hdigit (by simp [hhigh]), written_digit hdigit (by simp [hlow])]
    simp only [List.singleton_append]
    rw [decode_escape hhigh hlow, decode_escape hhigh hlow, ih]
  | plain b rest hplain ih =>
    rw [decode_plain hplain, List.flatMap_cons, ← ih]
    rcases written_cases escaped b with hwritten | ⟨hwritten, -⟩
    · rw [hwritten, decode_map_escape]
    · rw [hwritten]
      exact decode_plain fun hb hopens => hplain hb (opens_written hdigit hopens)

/-- Where every percent sign is escaped, the text comes back. -/
theorem decode_written_all (hsign : escaped 37 = true) (bs : List UInt8) :
    decode (bs.flatMap (written escaped)) = bs := by
  induction bs with
  | nil => rfl
  | cons b rest ih =>
    rw [List.flatMap_cons]
    rcases written_cases escaped b with hwritten | ⟨hwritten, hb⟩
    · rw [hwritten, decode_map_escape, ih]
    · rw [hwritten, List.singleton_append, decode_plain, ih]
      rintro rfl
      rw [hsign] at hb
      cases hb

end Percent

namespace Form

open Percent

/-- What is escaped in a form, where blanks are written in a way of their own. -/
def escapedInForm (b : UInt8) : Bool := b ≠ 32 && !plain b

def writtenPart (b : UInt8) : List Char :=
  if b = 32 then ['+'] else if b < 128 && plain b then [char b] else escape b

theorem writtenPart_bytes (b : UInt8) :
    (∀ c ∈ writtenPart b, c.toNat < 128 ∧ byte c ≠ 38 ∧ byte c ≠ 61) ∧
      ((writtenPart b).map byte).map (fun b => if b = 43 then 32 else b) =
        written escapedInForm b := by
  have hall : ∀ n < 256, (writtenPart (UInt8.ofNat n)).all
        (fun c => c.toNat < 128 ∧ byte c ≠ 38 ∧ byte c ≠ 61) = true ∧
      ((writtenPart (UInt8.ofNat n)).map byte).map (fun b => if b = 43 then 32 else b) =
        written escapedInForm (UInt8.ofNat n) := by decide +kernel
  simpa using hall b.toNat b.toNat_lt

/-- No separator of a form is written for a part. -/
theorem mem_encodePart {s : String} {c : Char} (h : c ∈ encodePart s) :
    c.toNat < 128 ∧ byte c ≠ 38 ∧ byte c ≠ 61 := by
  obtain ⟨b, -, hc⟩ := List.mem_flatMap.mp h
  exact (writtenPart_bytes b).1 c hc

theorem decodePart_encodePart (s : String) : decodePart ((encodePart s).map byte) = bytes s := by
  have hwritten : encodePart s = (bytes s).flatMap writtenPart := rfl
  rw [decodePart, hwritten, List.map_flatMap, List.map_flatMap,
    List.flatMap_congr fun b _ => (writtenPart_bytes b).2, decode_written_all (by decide)]

theorem splitAt_free {sep : UInt8} (h : sep ∉ part) : splitAt sep part = [part] := by
  induction part with
  | nil => rfl
  | cons b part ih =>
    rw [List.mem_cons, not_or] at h
    obtain ⟨hb, hpart⟩ := h
    rw [splitAt, if_neg (Ne.symm hb), ih hpart]

theorem splitAt_append {sep : UInt8} (h : sep ∉ part) :
    splitAt sep (part ++ sep :: rest) = part :: splitAt sep rest := by
  induction part with
  | nil => rw [List.nil_append, splitAt, if_pos rfl]
  | cons b part ih =>
    rw [List.mem_cons, not_or] at h
    obtain ⟨hb, hpart⟩ := h
    rw [List.cons_append, splitAt, if_neg (Ne.symm hb), ih hpart]

theorem splitAt_intercalate {sep : UInt8} (hparts : parts ≠ []) (h : ∀ p ∈ parts, sep ∉ p) :
    splitAt sep (List.intercalate [sep] parts) = parts := by
  induction parts with
  | nil => exact absurd rfl hparts
  | cons p parts ih =>
    have hp := h p List.mem_cons_self
    cases parts with
    | nil => simpa [List.intercalate] using splitAt_free hp
    | cons q parts =>
      rw [List.intercalate_cons_cons, List.append_assoc, List.singleton_append, splitAt_append hp,
        ih (by simp) fun q hq => h q (List.mem_cons_of_mem _ hq)]

def writtenPair (p : String × String) : List Char := encodePart p.1 ++ '=' :: encodePart p.2

theorem mem_writtenPair {p : String × String} {c : Char} (h : c ∈ writtenPair p) :
    c.toNat < 128 ∧ byte c ≠ 38 := by
  rcases List.mem_append.mp h with hc | hc
  · exact ⟨(mem_encodePart hc).1, (mem_encodePart hc).2.1⟩
  rcases List.mem_cons.mp hc with rfl | hc
  · decide
  · exact ⟨(mem_encodePart hc).1, (mem_encodePart hc).2.1⟩

/-- A pair is parted at its first equals sign. -/
theorem span_writtenPair (p : String × String) :
    ((writtenPair p).map byte).takeWhile (· ≠ 61) = (encodePart p.1).map byte ∧
      (((writtenPair p).map byte).dropWhile (· ≠ 61)).drop 1 = (encodePart p.2).map byte := by
  have hname : ∀ b ∈ (encodePart p.1).map byte, decide (b ≠ 61) = true := by
    intro b hb
    obtain ⟨c, hc, rfl⟩ := List.mem_map.mp hb
    simpa using (mem_encodePart hc).2.2
  rw [writtenPair, List.map_append, List.map_cons, List.takeWhile_append_of_pos hname,
    List.dropWhile_append_of_pos hname]
  exact ⟨List.append_nil _, rfl⟩

theorem bytes_encode (pairs : List (String × String)) : bytes (String.ofList (encode pairs)) =
    List.intercalate [38] (pairs.map fun p => (writtenPair p).map byte) := by
  have hpair : ∀ p, (writtenPair p).flatMap String.utf8EncodeChar = (writtenPair p).map byte :=
    fun p => by rw [← bytes_ofList, bytes_ascii fun c hc => (mem_writtenPair hc).1]
  have hencode : encode pairs = List.intercalate ['&'] (pairs.map writtenPair) := rfl
  rw [bytes_ofList, hencode]
  induction pairs with
  | nil => rfl
  | cons p pairs ih =>
    cases pairs with
    | nil => simpa [List.intercalate] using hpair p
    | cons q pairs =>
      have hand : String.utf8EncodeChar '&' = [38] := by decide
      simp only [List.map_cons] at ih ⊢
      rw [List.intercalate_cons_cons, List.intercalate_cons_cons, List.flatMap_append,
        List.flatMap_append, hpair p, ih rfl, List.flatMap_singleton, hand]

/-- The pairs of a form come back. -/
theorem decode_encode (pairs : List (String × String)) :
    decode (String.ofList (encode pairs)) = pairs.map fun p => (bytes p.1, bytes p.2) := by
  have hfree : ∀ part ∈ pairs.map fun p => (writtenPair p).map byte, (38 : UInt8) ∉ part := by
    intro part hpart hmem
    obtain ⟨p, -, rfl⟩ := List.mem_map.mp hpart
    obtain ⟨c, hc, hbyte⟩ := List.mem_map.mp hmem
    exact (mem_writtenPair hc).2 hbyte
  rw [decode, bytes_encode]
  cases hpairs : pairs with
  | nil => rfl
  | cons p rest =>
    rw [← hpairs, splitAt_intercalate (by simp [hpairs]) hfree, List.filterMap_map,
      ← List.filterMap_eq_map (f := fun p : String × String => (bytes p.1, bytes p.2))]
    apply List.filterMap_congr
    intro q _
    have hne : (writtenPair q).map byte ≠ [] := by simp [writtenPair]
    obtain ⟨hname, hvalue⟩ := span_writtenPair q
    simp only [Function.comp_apply, hne, if_false, hname, hvalue, decodePart_encodePart]

end Form

end WalletBudget
