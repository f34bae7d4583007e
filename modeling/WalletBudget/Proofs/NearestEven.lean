import WalletBudget.Rounding
import Mathlib.Data.Rat.Floor

/-!
Quotients rounded to the nearest whole number, once, or to some decimal places first.

The first of two roundings can come to a half that the quotient only lies near. The second then
takes the even neighbour of the half, which may lie on its far side. This is the one way in which
two roundings differ from one.
-/

namespace WalletBudget

/-- The whole number nearest to a quotient; at the same distance from two, the even one. -/
structure NearestEven (q : ℚ) (n : ℤ) : Prop where
  near : |q - n| ≤ 1 / 2
  even : |q - n| = 1 / 2 → Even n

/-- A quotient behind the half next to an even number, by half a unit of the last place at most. -/
def Strays (q : ℚ) (places : Nat) (n : ℤ) : Prop :=
  Even n ∧ 1 / 2 < |q - n| ∧ |q - n| ≤ 1 / 2 + 1 / (2 * 10 ^ places)

section

variable {q : ℚ} {n other m r : ℤ} {num den places : Nat}

theorem NearestEven.unique (h : NearestEven q n) (h' : NearestEven q other) : n = other := by
  by_contra hne
  have hapart : (1 : ℚ) ≤ |(n : ℚ) - other| := by
    exact_mod_cast Int.one_le_abs (sub_ne_zero.mpr hne)
  have hbetween := abs_sub_le (n : ℚ) q other
  rw [abs_sub_comm (n : ℚ) q] at hbetween
  -- Both are half a unit away, on either side, and two neighbours are not both even.
  have hn : |q - n| = 1 / 2 := by linarith [h.near, h'.near]
  have hother : |q - other| = 1 / 2 := by linarith [h.near, h'.near]
  have hone : |n - other| = 1 := by
    have : |(n : ℚ) - other| = 1 := by linarith
    exact_mod_cast this
  obtain ⟨a, rfl⟩ := h.even hn
  obtain ⟨b, rfl⟩ := h'.even hother
  rcases abs_eq (by decide) |>.mp hone with h1 | h1 <;> omega

/-- The distance of a quotient from a whole number, in units of its denominator. -/
theorem quotient_distance (num n : ℤ) (hden : 0 < den) :
    |(num : ℚ) / den - n| = ((num - n * den).natAbs : ℚ) / den := by
  have hpos : (0 : ℚ) < den := by exact_mod_cast hden
  have hdifference : (num : ℚ) / den - n = ((num - n * den : ℤ) : ℚ) / den := by
    push_cast
    field_simp
  rw [hdifference, abs_div, abs_of_pos hpos, Nat.cast_natAbs, Int.cast_abs]

theorem nearestEven_quotient (num n : ℤ) (hden : 0 < den) :
    NearestEven (num / den) n ↔ 2 * (num - n * den).natAbs ≤ den ∧
      (2 * (num - n * den).natAbs = den → Even n) := by
  have hpos : (0 : ℚ) < den := by exact_mod_cast hden
  have hnear : |(num : ℚ) / den - n| ≤ 1 / 2 ↔ 2 * (num - n * den).natAbs ≤ den := by
    rw [quotient_distance num n hden, div_le_div_iff₀ hpos two_pos, one_mul, mul_comm]
    exact_mod_cast Iff.rfl
  have hhalf : |(num : ℚ) / den - n| = 1 / 2 ↔ 2 * (num - n * den).natAbs = den := by
    rw [quotient_distance num n hden, div_eq_div_iff hpos.ne' two_ne_zero, one_mul, mul_comm]
    exact_mod_cast Iff.rfl
  exact ⟨fun h => ⟨hnear.mp h.near, fun he => h.even (hhalf.mpr he)⟩,
    fun h => ⟨hnear.mpr h.1, fun he => h.2 (hhalf.mp he)⟩⟩

theorem nearestEven_roundHalfEven (num : Nat) (hden : 0 < den) :
    NearestEven (num / den) (roundHalfEven num den) := by
  have hrest := Nat.mod_lt num hden
  have hsplit : (num : ℤ) = (num / den : Nat) * den + (num % den : Nat) := by
    exact_mod_cast (Nat.div_add_mod' num den).symm
  have hequiv := nearestEven_quotient num (roundHalfEven num den) hden
  rw [Int.cast_natCast] at hequiv
  rw [hequiv, Int.even_coe_nat, Nat.even_iff, hsplit]
  simp only [roundHalfEven]
  generalize num / den = whole
  generalize num % den = rest at *
  split
  · have habove : (whole : ℤ) * den + rest - (whole + 1 : Nat) * den = rest - den := by
      push_cast
      ring
    omega
  · have hbelow : (whole : ℤ) * den + rest - whole * den = rest := by ring
    omega

/-- The half behind which a quotient strays, in units of the last place. -/
theorem Strays.half {units : Nat} (h : Strays q places n) (hten : 10 ^ places = 2 * units) :
    ∃ half : ℤ, half.natAbs = units ∧
      |q * (10 ^ places : Nat) - (n * (10 ^ places : Nat) + half : ℤ)| ≤ 1 / 2 := by
  obtain ⟨-, hbehind, hclose⟩ := h
  have hpos : (0 : ℚ) < (10 ^ places : Nat) := by positivity
  have hbeyond : 0 ≤ (|q - n| - 1 / 2) * (10 ^ places : Nat) :=
    mul_nonneg (by linarith) hpos.le
  have hnear : (|q - n| - 1 / 2) * (10 ^ places : Nat) ≤ 1 / 2 :=
    calc (|q - n| - 1 / 2) * (10 ^ places : Nat)
        ≤ 1 / (2 * 10 ^ places) * (10 ^ places : Nat) :=
          mul_le_mul_of_nonneg_right (by linarith) hpos.le
      _ = 1 / 2 := by
        push_cast
        field_simp
  rw [hten] at hbeyond hnear ⊢
  rcases le_total (n : ℚ) q with hle | hle
  · refine ⟨units, by simp, ?_⟩
    have hoffset : q * (2 * units : Nat) - (n * (2 * units : Nat) + units : ℤ) =
        (|q - n| - 1 / 2) * (2 * units : Nat) := by
      rw [abs_of_nonneg (sub_nonneg.mpr hle)]
      push_cast
      ring
    rwa [hoffset, abs_of_nonneg hbeyond]
  · refine ⟨-units, by simp, ?_⟩
    have hoffset : q * (2 * units : Nat) - (n * (2 * units : Nat) + -units : ℤ) =
        -((|q - n| - 1 / 2) * (2 * units : Nat)) := by
      rw [abs_of_nonpos (sub_nonpos.mpr hle)]
      push_cast
      ring
    rwa [hoffset, abs_neg, abs_of_nonneg hbeyond]

section Twice

variable (hm : NearestEven (q * (10 ^ places : Nat)) m)
  (hr : NearestEven (m / (10 ^ places : Nat)) r)
include hm hr

/-- Two roundings are off by no more than both halves. -/
theorem twice_near : |q - r| ≤ 1 / 2 + 1 / (2 * 10 ^ places) := by
  have hpos : (0 : ℚ) < (10 ^ places : Nat) := by positivity
  have hfirst : |q - m / (10 ^ places : Nat)| ≤ 1 / (2 * 10 ^ places) := by
    have hscaled : q - m / (10 ^ places : Nat) =
        (q * (10 ^ places : Nat) - m) / (10 ^ places : Nat) := by
      field_simp
    rw [hscaled, abs_div, abs_of_pos hpos, div_le_iff₀ hpos]
    refine hm.near.trans (le_of_eq ?_)
    push_cast
    field_simp
  linarith [abs_sub_le q (m / (10 ^ places : Nat)) r, hr.near]

/-- A result that is half a unit away or more comes from a half, so it is even. -/
theorem twice_even (hplaces : 1 ≤ places) (haway : 1 / 2 ≤ |q - r|) : Even r := by
  obtain ⟨more, rfl⟩ := Nat.exists_eq_add_of_le' hplaces
  have hten : 10 ^ (more + 1) = 2 * (5 * 10 ^ more) := by ring
  have hpos : 0 < 5 * 10 ^ more := by positivity
  rw [hten] at hm hr
  generalize 5 * 10 ^ more = half at *
  obtain ⟨hnear, heven⟩ := (nearestEven_quotient m r (by omega)).mp hr
  by_contra hodd
  -- Anywhere but at the half, the first result keeps a unit of distance from it.
  have hkept : (m - r * (2 * half : Nat)).natAbs + 1 ≤ half := by
    have hne : 2 * (m - r * (2 * half : Nat)).natAbs ≠ 2 * half := fun he => hodd (heven he)
    omega
  have hkept' : |(m : ℚ) - r * (2 * half : Nat)| + 1 ≤ half := by
    have hcast : ((m - r * (2 * half : Nat)).natAbs : ℚ) + 1 ≤ half := by exact_mod_cast hkept
    simpa using hcast
  have hscaled : |q * (2 * half : Nat) - r * (2 * half : Nat)| = |q - r| * (2 * half) := by
    rw [← sub_mul, abs_mul, Nat.abs_cast]
    push_cast
    rfl
  have hbetween := abs_sub_le (q * (2 * half : Nat)) m (r * (2 * half : Nat))
  have hhalf : (half : ℚ) ≤ |q - r| * (2 * half) := by nlinarith [Nat.cast_nonneg (α := ℚ) half]
  linarith [hm.near]

omit hr in
/-- From a quotient that strays behind a half, the first rounding comes to the half. The half is an
even number of units of the last place, also where the quotient is as near to the unit behind it. -/
theorem Strays.first (h : Strays q places n) (hplaces : 2 ≤ places) :
    2 * (m - n * (10 ^ places : Nat)).natAbs = 10 ^ places := by
  obtain ⟨more, rfl⟩ := Nat.exists_eq_add_of_le' hplaces
  have hten : 10 ^ (more + 2) = 2 * (2 * (25 * 10 ^ more)) := by ring
  obtain ⟨half, hhalf, hnear⟩ := h.half hten
  have heven : Even half := Int.natAbs_even.mp (hhalf ▸ even_two_mul _)
  have hfirst : m = n * (10 ^ (more + 2) : Nat) + half := by
    refine hm.unique ⟨hnear, fun _ => Even.add (Even.mul_left ?_ n) heven⟩
    rw [hten]
    simp
  rw [hfirst]
  omega

/-- The second rounding then takes the even number next to the half. -/
theorem Strays.twice (h : Strays q places n) (hplaces : 2 ≤ places) : r = n := by
  have hfirst := h.first hm hplaces
  exact hr.unique ((nearestEven_quotient _ _ (by positivity)).mpr ⟨hfirst.le, fun _ => h.1⟩)

/-- The two roundings are the one exactly where the quotient does not stray. -/
theorem twice_ne_iff {exact : ℤ} (hexact : NearestEven q exact) (hplaces : 2 ≤ places) :
    r ≠ exact ↔ ∃ n, Strays q places n := by
  constructor
  · intro hne
    have hbehind : 1 / 2 < |q - r| := by
      by_contra hnear
      refine hne (NearestEven.unique ⟨not_lt.mp hnear, fun hhalf => ?_⟩ hexact)
      exact twice_even hm hr (by omega) hhalf.ge
    exact ⟨r, twice_even hm hr (by omega) hbehind.le, hbehind, twice_near hm hr⟩
  · rintro ⟨n, hstrays⟩ rfl
    obtain rfl := hstrays.twice hm hr hplaces
    exact absurd hexact.near (not_le.mpr hstrays.2.1)

/-- And where they differ, they are neighbours. -/
theorem twice_close {exact : ℤ} (hexact : NearestEven q exact) (hplaces : 1 ≤ places) :
    |r - exact| ≤ 1 := by
  have hten : (10 : ℚ) ≤ 10 ^ places := by
    simpa using pow_le_pow_right₀ (by norm_num : (1 : ℚ) ≤ 10) hplaces
  have hsmall : (1 : ℚ) / (2 * 10 ^ places) < 1 := by
    rw [div_lt_one (by positivity)]
    linarith
  have hbetween := abs_sub_le (r : ℚ) q exact
  rw [abs_sub_comm (r : ℚ) q] at hbetween
  have hless : |(r : ℚ) - exact| < 2 := by linarith [twice_near hm hr, hexact.near]
  have hless' : |r - exact| < 2 := by exact_mod_cast hless
  omega

end Twice

/-- Between a half and a quotient there is a whole number of parts of the denominator, so one that
strays has a denominator of as many digits as there are places. -/
theorem Strays.le_den {num : ℤ} (h : Strays (num / den) places n) (hden : 0 < den) :
    10 ^ places ≤ den := by
  obtain ⟨-, hbehind, hclose⟩ := h
  have hpos : (0 : ℚ) < den := by exact_mod_cast hden
  have hten : (0 : ℚ) < 10 ^ places := by positivity
  rw [quotient_distance num n hden] at hbehind hclose
  generalize (num - n * den).natAbs = parts at *
  have hmore : den + 1 ≤ 2 * parts := by
    rw [div_lt_div_iff₀ two_pos hpos] at hbehind
    have : den < 2 * parts := by exact_mod_cast (by linarith : (den : ℚ) < 2 * parts)
    omega
  have hmost : 2 * parts * 10 ^ places ≤ den * 10 ^ places + den := by
    have hsum : (1 : ℚ) / 2 + 1 / (2 * 10 ^ places) =
        (10 ^ places + 1) / (2 * 10 ^ places) := by field_simp
    rw [hsum, div_le_div_iff₀ hpos (by positivity)] at hclose
    exact_mod_cast (by linarith : (2 * parts * 10 ^ places : ℚ) ≤ den * 10 ^ places + den)
  have hproduct := Nat.mul_le_mul_right (10 ^ places) hmore
  linarith

end

end WalletBudget
