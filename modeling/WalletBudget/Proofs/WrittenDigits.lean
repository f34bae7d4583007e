import Mathlib.Data.List.Induction
import WalletBudget.Text.Digits

/-!
Numbers that are written in digits and read back.

A row of digits stands for a number from the left, so every writer is followed from its last digit.
-/

namespace WalletBudget.Digits

variable {n width : Nat} {c : Char} {cs ds rest : List Char}

theorem value_char (hn : n < 10) : value (char n) = n :=
  (by decide : ∀ n < 10, value (char n) = n) n hn

theorem isDigit_char (hn : n < 10) : (char n).isDigit = true :=
  (by decide : ∀ n < 10, (char n).isDigit = true) n hn

theorem number_append (cs : List Char) (c : Char) :
    number (cs ++ [c]) = 10 * number cs + value c := by
  simp [number, List.foldl_append]

theorem toNat_le (h : c.isDigit = true) : c.toNat ≤ 57 := by
  simp only [Char.isDigit, Bool.and_eq_true, decide_eq_true_eq] at h
  exact h.2

theorem value_le (h : c.isDigit = true) : value c ≤ 9 := by
  have hlast := toNat_le h
  simp only [value]
  omega

theorem number_lt (hds : ∀ c ∈ ds, c.isDigit = true) : number ds < Nat.pow 10 ds.length := by
  induction ds using List.reverseRecOn with
  | nil => exact Nat.one_pos
  | append_singleton ds c ih =>
    have hc := value_le (hds c (by simp))
    have hds := ih fun d hd => hds d (by simp [hd])
    rw [number_append, List.length_append, List.length_singleton]
    change _ < Nat.pow 10 ds.length * 10
    omega

/-! ### A number without leading zeros -/

theorem number_ofNat (n : Nat) : number (ofNat n) = n := by
  induction n using ofNat.induct with
  | case1 n h =>
    rw [ofNat, if_pos h]
    simp [number, value_char h]
  | case2 n h ih =>
    rw [ofNat, if_neg h, number_append, ih, value_char (Nat.mod_lt _ (by decide))]
    omega

theorem ofNat_isDigit (n : Nat) : ∀ c ∈ ofNat n, c.isDigit = true := by
  induction n using ofNat.induct with
  | case1 n h =>
    rw [ofNat, if_pos h]
    simpa using isDigit_char h
  | case2 n h ih =>
    rw [ofNat, if_neg h]
    intro c hc
    rcases List.mem_append.mp hc with hc | hc
    · exact ih c hc
    · rw [List.mem_singleton.mp hc]
      exact isDigit_char (Nat.mod_lt _ (by decide))

theorem ofNat_ne_nil (n : Nat) : ofNat n ≠ [] := by
  rw [ofNat]
  split <;> simp

/-- Zero is the one number that begins with the digit zero. -/
theorem ofNat_head (hn : 0 < n) : (ofNat n).head? ≠ some '0' := by
  induction n using ofNat.induct with
  | case1 n h =>
    rw [ofNat, if_pos h]
    exact (by decide : ∀ n < 10, 0 < n → [char n].head? ≠ some '0') n h hn
  | case2 n h ih =>
    rw [ofNat, if_neg h]
    have hhead := ih (by omega)
    cases hfirst : ofNat (n / 10) with
    | nil => exact absurd hfirst (ofNat_ne_nil _)
    | cons c rest => simpa [hfirst] using hhead

/-- A number that is not too large comes back from its digits. -/
theorem readUpTo?_ofNat {largest : Nat} (h : n ≤ largest) :
    readUpTo? largest (ofNat n) = some n := by
  have hread : read? (ofNat n) = some n := by
    rw [read?, if_pos ⟨ofNat_ne_nil n, List.all_eq_true.mpr (ofNat_isDigit n)⟩, number_ofNat]
  unfold readUpTo?
  split
  · rename_i hsign
    cases ofNat_isDigit n '+' (by simp [hsign])
  · simp [hread, h]

/-! ### A number of some width -/

theorem padded_length (width n : Nat) : (padded width n).length = width := by
  induction width generalizing n with
  | zero => rfl
  | succ width ih => simp [padded, ih]

theorem padded_isDigit (width n : Nat) : ∀ c ∈ padded width n, c.isDigit = true := by
  induction width generalizing n with
  | zero => simp [padded]
  | succ width ih =>
    intro c hc
    rcases List.mem_append.mp hc with hc | hc
    · exact ih _ c hc
    · rw [List.mem_singleton.mp hc]
      exact isDigit_char (Nat.mod_lt _ (by decide))

theorem padded_eq_cons (hwidth : 0 < width) (n : Nat) :
    ∃ c ds, padded width n = c :: ds ∧ c.isDigit = true := by
  have hlength := padded_length width n
  cases hds : padded width n with
  | nil =>
    rw [hds, List.length_nil] at hlength
    omega
  | cons c ds => exact ⟨c, ds, rfl, padded_isDigit width n c (by simp [hds])⟩

theorem number_padded (hn : n < Nat.pow 10 width) : number (padded width n) = n := by
  induction width generalizing n with
  | zero =>
    rw [Nat.lt_one_iff.mp hn]
    rfl
  | succ width ih =>
    have htenth : n / 10 < Nat.pow 10 width := (Nat.div_lt_iff_lt_mul (by decide)).mpr hn
    rw [padded, number_append, ih htenth, value_char (Nat.mod_lt _ (by decide))]
    omega

theorem number_atLeast (width n : Nat) : number (atLeast width n) = n := by
  rw [atLeast]
  split
  · exact number_padded ‹_›
  · exact number_ofNat n

theorem atLeast_isDigit (width n : Nat) : ∀ c ∈ atLeast width n, c.isDigit = true := by
  rw [atLeast]
  split
  · exact padded_isDigit width n
  · exact ofNat_isDigit n

theorem atLeast_ne_nil (hwidth : 0 < width) : atLeast width n ≠ [] := by
  rw [atLeast]
  split
  · obtain ⟨c, ds, hds, -⟩ := padded_eq_cons hwidth n
    simp [hds]
  · exact ofNat_ne_nil n

/-! ### Digits at the front -/

def Ends (rest : List Char) : Prop := ∀ c, rest.head? = some c → c.isDigit = false

theorem Ends.nil : Ends [] := by simp [Ends]

theorem Ends.cons (h : c.isDigit = false) : Ends (c :: rest) := by simp [Ends, h]

theorem Ends.dropWhile (h : Ends rest) : rest.takeWhile Char.isDigit = [] ∧
    rest.dropWhile Char.isDigit = rest := by
  cases rest with
  | nil => exact ⟨rfl, rfl⟩
  | cons c rest =>
    have hc : c.isDigit = false := h c rfl
    simp [hc]

theorem takeWhile_digits (hds : ∀ c ∈ ds, c.isDigit = true) (hrest : Ends rest) :
    (ds ++ rest).takeWhile Char.isDigit = ds := by
  rw [List.takeWhile_append_of_pos hds, hrest.dropWhile.1, List.append_nil]

theorem span_digits (hds : ∀ c ∈ ds, c.isDigit = true) (hrest : Ends rest) :
    span (ds ++ rest) = (ds, rest) := by
  rw [span, takeWhile_digits hds hrest, List.dropWhile_append_of_pos hds, hrest.dropWhile.2]

end WalletBudget.Digits
