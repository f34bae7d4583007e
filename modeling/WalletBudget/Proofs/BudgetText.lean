import WalletBudget.Limit
import WalletBudget.Proofs.WrittenDigits

/-!
The short text form of budgets.

A text is read if and only if it is a row of digits for an amount, with a currency code behind a
point or without one, and with the name of a frequency behind a slash or without one. No separator
can stand inside one of the three parts, so a text has one reading at most. The text that is written
for a budget is one of its spellings: what was read once is read again from it, in every field.
-/

namespace WalletBudget

variable {sep c : Char} {cs ds before after : List Char} {part code name : Option (List Char)}
  {s whole : String} {n : Int} {k : Currency} {f : Frequency} {b : Budget}

namespace Ascii

theorem splitOnce_none : splitOnce sep cs = none ↔ sep ∉ cs := by
  induction cs with
  | nil => simp [splitOnce]
  | cons c rest ih =>
    by_cases hc : c = sep
    · simp [splitOnce, hc]
    · simp [splitOnce, hc, ih, Ne.symm hc]

theorem splitOnce_some :
    splitOnce sep cs = some (before, after) ↔ cs = before ++ sep :: after ∧ sep ∉ before := by
  induction cs generalizing before with
  | nil => simp [splitOnce]
  | cons c rest ih =>
    by_cases hc : c = sep
    · cases before <;> simp_all [splitOnce]
    · cases before with
      | nil => simp [splitOnce, hc]
      | cons d before =>
        simp only [splitOnce, hc, if_false, Option.map_eq_some_iff, Prod.exists, Prod.mk.injEq]
        grind

/-- A part that may stand behind a separator. -/
def behind (sep : Char) : Option (List Char) → List Char
  | none => []
  | some part => sep :: part

theorem toNat_lt (h : c.isAlpha = true) : c.toNat < 128 := by
  have hupper : c.isUpper = true → c.toNat ≤ 90 := fun h => (of_decide_eq_true h).2
  have hlower : c.isLower = true → c.toNat ≤ 122 := fun h =>
    of_decide_eq_true (Bool.and_eq_true_iff.mp h).2
  rcases Bool.or_eq_true_iff.mp h with h | h
  · exact Nat.lt_of_le_of_lt (hupper h) (by decide)
  · exact Nat.lt_of_le_of_lt (hlower h) (by decide)

theorem toUpper_letter (h : c.isAlpha = true) :
    c.toUpper.isAlpha = true ∧ c.toUpper.toUpper = c.toUpper := by
  have hall : ∀ n < 128, (Char.ofNat n).isAlpha = true → (Char.ofNat n).toUpper.isAlpha = true ∧
      (Char.ofNat n).toUpper.toUpper = (Char.ofNat n).toUpper := by decide
  have hc := hall c.toNat (toNat_lt h)
  rw [Char.ofNat_toNat] at hc
  exact hc h

end Ascii

namespace Currency

inductive Coded : Option (List Char) → Currency → Prop
  | absent : Coded none .sat
  | letters (cs : List Char) (hlength : cs.length = 3) (hletters : ∀ c ∈ cs, c.isAlpha = true) :
    Coded (some cs) (describe (Ascii.upperText (String.ofList cs)))

theorem ofCode_eq_ok : ofCode (String.ofList cs) = .ok k ↔ Coded (some cs) k := by
  have hcode : isCode (String.ofList cs) = true ↔ cs.length = 3 ∧ ∀ c ∈ cs, c.isAlpha = true := by
    simp [isCode, Ascii.isLetter]
  constructor
  · intro h
    unfold ofCode at h
    split at h
    · obtain ⟨hlength, hletters⟩ := hcode.mp ‹_›
      cases h
      exact .letters cs hlength hletters
    · cases h
  · rintro ⟨⟩
    rw [ofCode, if_pos (hcode.mpr ⟨‹_›, ‹_›⟩)]

@[simp] theorem describe_code (code : String) : (describe code).code = code := by
  unfold describe
  cases h : known.find? (fun c => c.code = code) with
  | none => rfl
  | some c => simpa using List.find?_some h

/-- The code of a currency that was found by a code stands for the currency. -/
theorem Coded.canonical (h : Coded code k) : Coded (some k.code.toList) k := by
  cases h with
  | absent => exact ofCode_eq_ok.mp (by decide)
  | letters cs hlength hletters =>
    have hupper : ∀ c ∈ cs.map Char.toUpper, c.isAlpha = true := by
      intro c hc
      obtain ⟨d, hd, rfl⟩ := List.mem_map.mp hc
      exact (Ascii.toUpper_letter (hletters d hd)).1
    have htwice : (cs.map Char.toUpper).map Char.toUpper = cs.map Char.toUpper := by
      rw [List.map_map]
      exact List.map_congr_left fun c hc => (Ascii.toUpper_letter (hletters c hc)).2
    have h := Coded.letters (cs.map Char.toUpper) (by simpa using hlength) hupper
    simpa [Ascii.upperText, htwice] using h

end Currency

namespace Frequency

inductive Named : Option (List Char) → Frequency → Prop
  | absent : Named none .never
  | word (cs : List Char) (f : Frequency) (hname : cs.map Char.toLower = f.name.toList) :
    Named (some cs) f

theorem ofName?_eq_some : ofName? s = some f ↔ f.name = s := by
  constructor
  · intro h
    simpa using List.find?_some h
  · rintro rfl
    cases f <;> rfl

theorem read_eq_ok : read (String.ofList cs) = .ok f ↔ Named (some cs) f := by
  have hname : ofName? (Ascii.lowerText (String.ofList cs)) = some f ↔
      cs.map Char.toLower = f.name.toList := by
    rw [ofName?_eq_some, Ascii.lowerText, String.toList_ofList, ← String.toList_inj,
      String.toList_ofList, eq_comm]
  constructor
  · intro h
    unfold read at h
    split at h
    · cases h
      exact .word cs f (hname.mp ‹_›)
    · cases h
  · rintro ⟨⟩
    rw [read, hname.mpr ‹_›]

theorem Named.canonical (f : Frequency) : Named (some f.name.toList) f :=
  .word _ f (by cases f <;> rfl)

end Frequency

namespace Budget

/-- A row of digits, however many zeros it begins with, and the amount that it stands for. -/
structure Counted (ds : List Char) (n : Int) : Prop where
  nonempty : ds ≠ []
  digits : ∀ c ∈ ds, c.isDigit = true
  number : n = Digits.number ds
  positive : 1 ≤ n
  inRange : n ≤ largestAmount

inductive Spelled : List Char → Budget → Prop
  | parts (ds : List Char) (code name : Option (List Char)) (n : Int) (k : Currency) (f : Frequency)
      (hn : Counted ds n) (hk : Currency.Coded code k) (hf : Frequency.Named name f) :
    Spelled (ds ++ Ascii.behind '.' code ++ Ascii.behind '/' name) ⟨n, k, f⟩

theorem cut_eq_iff :
    cut sep cs = (before, part) ↔ cs = before ++ Ascii.behind sep part ∧ sep ∉ before := by
  constructor
  · intro h
    unfold cut at h
    split at h
    · obtain ⟨rfl, rfl⟩ := Prod.mk.inj h
      exact Ascii.splitOnce_some.mp ‹_›
    · obtain ⟨rfl, rfl⟩ := Prod.mk.inj h
      exact ⟨(List.append_nil _).symm, Ascii.splitOnce_none.mp ‹_›⟩
  · rintro ⟨rfl, hfree⟩
    cases part with
    | none => simp [cut, Ascii.behind, Ascii.splitOnce_none.mpr hfree]
    | some part => simp [cut, Ascii.behind, Ascii.splitOnce_some.mpr ⟨rfl, hfree⟩]

theorem frequencyOf_eq_ok : frequencyOf whole name = .ok f ↔ Frequency.Named name f := by
  match name with
  | none =>
    constructor
    · rintro ⟨⟩
      exact .absent
    · rintro ⟨⟩
      rfl
  | some [] =>
    constructor
    · rintro ⟨⟩
    · rintro ⟨⟩
      cases f <;> contradiction
  | some (c :: cs) => exact Frequency.read_eq_ok

theorem currencyOf_eq_ok : currencyOf whole code = .ok k ↔ Currency.Coded code k := by
  match code with
  | none =>
    constructor
    · rintro ⟨⟩
      exact .absent
    · rintro ⟨⟩
      rfl
  | some [] =>
    constructor
    · rintro ⟨⟩
    · rintro ⟨⟩
      contradiction
  | some (c :: cs) => exact Currency.ofCode_eq_ok

theorem amountOf_eq_ok : amountOf ds = .ok n ↔ Counted ds n := by
  have hread : ∀ m, Digits.read? ds = some m ↔
      (ds ≠ [] ∧ ∀ c ∈ ds, c.isDigit = true) ∧ Digits.number ds = m := by
    simp [Digits.read?]
  constructor
  · intro h
    unfold amountOf at h
    split at h
    · cases h
    split at h
    · cases h
    rename_i m hm
    obtain ⟨⟨hnonempty, hdigits⟩, rfl⟩ := (hread m).mp hm
    split at h
    · cases h
    split at h
    · cases h
    cases h
    exact ⟨hnonempty, hdigits, rfl, by omega, by omega⟩
  · rintro ⟨hnonempty, hdigits, rfl, hpositive, hle⟩
    rw [amountOf, if_neg hnonempty, (hread _).mpr ⟨⟨hnonempty, hdigits⟩, rfl⟩]
    simp only
    rw [if_neg (by omega), if_neg (by omega)]

/-- The three readers each have their part. -/
theorem read_eq_ok : read s = .ok b ↔
    ∃ head ds code name, cut '/' s.toList = (head, name) ∧ cut '.' head = (ds, code) ∧
      frequencyOf s name = .ok b.frequency ∧ currencyOf s code = .ok b.currency ∧
      amountOf ds = .ok b.amount := by
  obtain ⟨n, k, f⟩ := b
  rcases hslash : cut '/' s.toList with ⟨head, name⟩
  rcases hpoint : cut '.' head with ⟨ds, code⟩
  simp only [read, hslash, hpoint, bind, Except.bind]
  cases hf : frequencyOf s name <;> cases hk : currencyOf s code <;> cases hn : amountOf ds <;>
    simp_all [pure, Except.pure, throw, throwThe, MonadExceptOf.throw]
  grind

theorem Counted.free (h : Counted ds n) (hc : c.isDigit = false) : c ∉ ds := fun hmem => by
  rw [h.digits c hmem] at hc
  cases hc

theorem slash_free (h : Currency.Coded code k) : '/' ∉ Ascii.behind '.' code := by
  cases h with
  | absent => simp [Ascii.behind]
  | letters cs _ hletters =>
    simp only [Ascii.behind, List.mem_cons, not_or]
    exact ⟨by decide, fun hmem => absurd (hletters _ hmem) (by decide)⟩

/-- A text is read as the budget that it spells. -/
theorem read_spelled : read s = .ok b ↔ Spelled s.toList b := by
  rw [read_eq_ok]
  constructor
  · rintro ⟨head, ds, code, name, hslash, hpoint, hf, hk, hn⟩
    obtain ⟨hs, -⟩ := cut_eq_iff.mp hslash
    obtain ⟨rfl, -⟩ := cut_eq_iff.mp hpoint
    rw [hs]
    exact .parts ds code name _ _ _ (amountOf_eq_ok.mp hn) (currencyOf_eq_ok.mp hk)
      (frequencyOf_eq_ok.mp hf)
  · generalize s.toList = cs
    rintro ⟨ds, code, name, n, k, f, hn, hk, hf⟩
    have hslash : '/' ∉ ds ++ Ascii.behind '.' code := by
      rw [List.mem_append, not_or]
      exact ⟨hn.free (by decide), slash_free hk⟩
    exact ⟨_, ds, code, name, cut_eq_iff.mpr ⟨rfl, hslash⟩,
      cut_eq_iff.mpr ⟨rfl, hn.free (by decide)⟩, frequencyOf_eq_ok.mpr hf,
      currencyOf_eq_ok.mpr hk, amountOf_eq_ok.mpr hn⟩

theorem Counted.ofNat (hpositive : 1 ≤ n) (hle : n ≤ largestAmount) :
    Counted (Digits.ofNat n.toNat) n where
  nonempty := Digits.ofNat_ne_nil _
  digits := Digits.ofNat_isDigit _
  number := by rw [Digits.number_ofNat]; omega
  positive := hpositive
  inRange := hle

theorem text_toList (hpositive : 1 ≤ b.amount) : b.text.toList =
    Digits.ofNat b.amount.toNat ++ Ascii.behind '.' (some b.currency.code.toList) ++
      Ascii.behind '/' (some b.frequency.name.toList) := by
  have hsigned : Digits.signed b.amount = Digits.text b.amount.toNat := by
    match hamount : b.amount with
    | .ofNat n => rfl
    | .negSucc n => omega
  simp [text, hsigned, Digits.text, Ascii.behind]

/-- The text that is written for a budget spells it. -/
theorem spelled_text (hpositive : 1 ≤ b.amount) (hle : b.amount ≤ largestAmount)
    (hk : Currency.Coded code b.currency) : Spelled b.text.toList b := by
  rw [text_toList hpositive]
  exact .parts _ _ _ _ _ _ (.ofNat hpositive hle) hk.canonical (.canonical _)

theorem Spelled.amount (h : Spelled cs b) : 1 ≤ b.amount ∧ b.amount ≤ largestAmount := by
  cases h with
  | parts ds code name n k f hn => exact ⟨hn.positive, hn.inRange⟩

theorem Spelled.text (h : Spelled cs b) : Spelled b.text.toList b := by
  obtain ⟨hpositive, hle⟩ := h.amount
  cases h with
  | parts ds code name n k f _ hk => exact spelled_text hpositive hle hk

/-- A limit of a positive amount has the budget that it was made of. -/
theorem ofBudget_budget (hpositive : 1 ≤ b.amount) (id : LimitId) (connection : ConnectionId)
    (start : Instant) : ∃ l, Limit.ofBudget id connection b start = .ok l ∧ l.budget = b := by
  have hcheck : checkLimitAmount b.amount = .ok () := by
    rw [checkLimitAmount, if_neg (by omega)]
  exact ⟨⟨id, connection, b.currency, b.amount, b.frequency, start, none⟩,
    by simp only [Limit.ofBudget, Limit.create, hcheck]; rfl, rfl⟩

/-- A text is read if and only if it spells a budget, and then as the one that it spells. Any other
text is refused. -/
theorem read_exact (s : String) :
    (∀ b, read s = .ok b ↔ Spelled s.toList b) ∧
      ((¬ ∃ b, Spelled s.toList b) ↔ ∃ e, read s = .error e) := by
  refine ⟨fun b => read_spelled, ?_⟩
  simp only [← read_spelled]
  cases read s <;> simp

/-- A separator stands once at most, and a sign is no digit. -/
example : read "100.USD.EUR/daily" = .error (.currencyCode "USD.EUR") ∧
    read "+100/daily" = .error (.budgetText "+100/daily" .amountNotInteger) := by decide

/-- A budget in a currency that was found by its code is read from its text, in every field. What
was read from a text is read from its own text again, and a limit that is made of it has it. -/
theorem text_canonical :
    (∀ n f code k, 1 ≤ n → n ≤ largestAmount → Currency.ofCode code = .ok k →
      read (text ⟨n, k, f⟩) = .ok ⟨n, k, f⟩) ∧
    ∀ s b, read s = .ok b → read b.text = .ok b ∧ (read b.text).map text = .ok b.text ∧
      ∀ id connection start, ∃ l, Limit.ofBudget id connection b start = .ok l ∧ l.budget = b := by
  constructor
  · intro n f code k hpositive hle hcode
    rw [← code.ofList_toList] at hcode
    exact read_spelled.mpr (spelled_text hpositive hle (Currency.ofCode_eq_ok.mp hcode))
  · intro s b h
    have hspelled := read_spelled.mp h
    have hread : read b.text = .ok b := read_spelled.mpr hspelled.text
    exact ⟨hread, by rw [hread]; rfl, ofBudget_budget hspelled.amount.1⟩

/-- Leading zeros and letters of both cases do not come back, and a code that is not known describes
itself. -/
theorem text_canonical_weekly :
    Currency.ofCode "xyz" = .ok ⟨"XYZ", "XYZ", "XYZ", 2⟩ ∧
    read (text ⟨largestAmount, ⟨"XYZ", "XYZ", "XYZ", 2⟩, .never⟩) =
      .ok ⟨largestAmount, ⟨"XYZ", "XYZ", "XYZ", 2⟩, .never⟩ ∧
    ∃ b, read "00100.usd/Weekly" = .ok b ∧ b.text = "100.USD/weekly" ∧ read b.text = .ok b ∧
      ∃ l, Limit.ofBudget ⟨Uuid.ofNat 1⟩ ⟨Uuid.ofNat 0⟩ b
        ⟨0, 0, by decide, by decide, by decide⟩ = .ok l ∧ l.budget = b := by
  have hcode : Currency.ofCode "xyz" = .ok ⟨"XYZ", "XYZ", "XYZ", 2⟩ := by decide
  have hread : read "00100.usd/Weekly" = .ok ⟨100, ⟨"USD", "$", "US Dollar", 2⟩, .weekly⟩ := by
    decide
  obtain ⟨hagain, -, hlimit⟩ := text_canonical.2 _ _ hread
  exact ⟨hcode, text_canonical.1 _ _ _ _ (by decide) (by decide) hcode, _, hread, by decide +kernel,
    hagain, hlimit _ _ _⟩

end Budget

end WalletBudget
