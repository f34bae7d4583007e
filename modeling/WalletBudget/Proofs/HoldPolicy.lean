import WalletBudget.HoldPolicy

/-!
The sign and the size of a hold. A product of decimals that are not negative is not negative,
however its last places are rounded. Rounded or not, a whole number times a factor of at least one
is not below the whole number, because whole numbers are rounded to themselves.
-/

namespace WalletBudget

theorem inRange_iff {n : Int} : inRange n = true ↔ leastAmount ≤ n ∧ n ≤ largestAmount := by
  simp [inRange]

namespace Decimal

variable {x y d : Decimal}

theorem unit_pos (d : Decimal) : (0 : Int) < d.unit :=
  Int.natCast_pos.mpr (Nat.pow_pos (by decide))

theorem ceil_nonneg (h : d.negative = false) : 0 ≤ d.ceil := by
  have hdiv : -(d.mantissa : Int) / d.unit ≤ 0 :=
    Int.ediv_nonpos_of_nonpos_of_neg (by omega) d.unit_pos
  simp only [ceil, coefficient, h, Bool.false_eq_true, if_false]
  omega

theorem ofParts?_some {negative : Bool} {mantissa scale : Nat}
    (h : ofParts? negative mantissa scale = some d) :
    d.negative = (negative && mantissa ≠ 0) ∧ d.mantissa = mantissa ∧ d.scale = scale := by
  simp only [ofParts?] at h
  split at h
  · split at h
    · cases h
      exact ⟨rfl, rfl, rfl⟩
    · cases h
  · cases h

theorem ofParts?_sign {negative : Bool} {mantissa scale : Nat}
    (h : ofParts? negative mantissa scale = some d) (hsign : negative = false) :
    d.negative = false := by
  simp [(ofParts?_some h).1, hsign]

theorem ofParts?_isSome {negative : Bool} {mantissa scale : Nat} (hm : mantissa < mantissaBound)
    (hs : scale ≤ maxScale) : ∃ d, ofParts? negative mantissa scale = some d := by
  have hs' : scale ≤ 28 := hs
  simp only [ofParts?, hm, hs', dite_true]
  exact ⟨_, rfl⟩

theorem ofInt?_some {n : Int} (h : ofInt? n = some d) :
    d.negative = decide (n < 0) ∧ d.mantissa = n.natAbs ∧ d.scale = 0 := by
  obtain ⟨hsign, hmantissa, hscale⟩ := ofParts?_some h
  refine ⟨?_, hmantissa, hscale⟩
  rw [hsign]
  by_cases hneg : n < 0
  · have hne : n ≠ 0 := by omega
    simp [hneg, hne]
  · simp [hneg]

/-- Every amount is a decimal. -/
theorem ofInt?_isSome {n : Int} (h : inRange n = true) : ∃ d, ofInt? n = some d := by
  obtain ⟨hleast, hlargest⟩ := inRange_iff.mp h
  simp only [leastAmount, largestAmount] at hleast hlargest
  have hbound : n.natAbs < mantissaBound := by
    simp only [mantissaBound]
    omega
  exact ofParts?_isSome hbound (by decide)

theorem ofInt?_sign {n : Int} (hn : 0 ≤ n) (h : ofInt? n = some d) : d.negative = false :=
  ofParts?_sign h (by simpa using hn)

theorem times?_sign (hx : x.negative = false) (hy : y.negative = false)
    (h : x.times? y = some d) : d.negative = false := by
  simp only [times?] at h
  split at h
  · cases h
    rfl
  · obtain ⟨fitted, -, hparts⟩ := Option.bind_eq_some_iff.mp h
    exact ofParts?_sign hparts (by simp [hx, hy])

theorem le_roundHalfEven (num den : Nat) : num / den ≤ roundHalfEven num den := by
  simp only [roundHalfEven]
  split <;> omega

/-- As many places are dropped as leave the rest in range, and the last one kept is rounded. -/
theorem fit_some {mantissa scale drop fuel m left : Nat}
    (h : fit mantissa scale drop fuel = some (m, left)) :
    ∃ dropped, left + dropped = scale ∧ m = roundHalfEven mantissa (Nat.pow 10 dropped) := by
  induction fuel generalizing drop with
  | zero => cases h
  | succ fuel ih =>
    simp only [fit] at h
    split at h
    · cases h
    · split at h
      · cases h
        exact ⟨drop, by omega, rfl⟩
      · exact ih h

/-- A whole number times a factor of at least one is not below the whole number. -/
theorem times?_ge (hx : x.scale = 0) (hy : y.unit ≤ y.mantissa) (h : x.times? y = some d) :
    x.mantissa * d.unit ≤ d.mantissa := by
  simp only [times?] at h
  split at h
  · rename_i hzero
    cases h
    have hone : 0 < y.unit := Nat.pow_pos (by decide)
    rcases hzero with hzero | hzero
    · simp [hzero]
    · omega
  · obtain ⟨⟨m, left⟩, hfit, hparts⟩ := Option.bind_eq_some_iff.mp h
    obtain ⟨-, hm, hscale⟩ := ofParts?_some hparts
    obtain ⟨dropped, hplaces, hround⟩ := fit_some hfit
    have hpos : 0 < Nat.pow 10 dropped := Nat.pow_pos (by decide)
    have hpow : y.unit = Nat.pow 10 left * Nat.pow 10 dropped := by
      have hsum : left + dropped = y.scale := by omega
      simp only [unit, ← hsum, Nat.pow_eq, Nat.pow_add]
    calc x.mantissa * d.unit
        = x.mantissa * Nat.pow 10 left := by rw [unit, hscale]
      _ = x.mantissa * y.unit / Nat.pow 10 dropped := by
        rw [hpow, ← Nat.mul_assoc, Nat.mul_div_cancel _ hpos]
      _ ≤ x.mantissa * y.mantissa / Nat.pow 10 dropped :=
        Nat.div_le_div_right (Nat.mul_le_mul_left _ hy)
      _ ≤ d.mantissa := by
        rw [hm, hround]
        exact le_roundHalfEven ..

theorem le_ceil {n : Int} (hsign : d.negative = false) (h : n * d.unit ≤ d.mantissa) :
    n ≤ d.ceil := by
  have hdiv : -(d.mantissa : Int) / d.unit ≤ -n := by
    refine Int.ediv_le_of_le_mul d.unit_pos ?_
    rw [Int.neg_mul]
    omega
  simp only [ceil, coefficient, hsign, Bool.false_eq_true, if_false]
  omega

theorem belowOne_of_negative (h : d.negative = true) : d.belowOne = true := by
  have hunit := d.unit_pos
  simp only [belowOne, coefficient, h, if_true, decide_eq_true_eq]
  omega

end Decimal

namespace HoldPolicy

variable {policy : HoldPolicy} {estimate hold : Int}

theorem multiplier_sign (h : policy.validate = .ok ()) : policy.multiplier.negative = false := by
  cases hneg : policy.multiplier.negative with
  | false => rfl
  | true => simp [validate, Decimal.belowOne_of_negative hneg] at h

theorem multiplier_ge (h : policy.validate = .ok ()) :
    policy.multiplier.unit ≤ policy.multiplier.mantissa := by
  have hsign := multiplier_sign h
  cases hbelow : policy.multiplier.belowOne with
  | true => simp [validate, hbelow] at h
  | false =>
    simp only [Decimal.belowOne, Decimal.coefficient, hsign, Bool.false_eq_true, if_false,
      decide_eq_false_iff_not] at hbelow
    omega

/-- A hold is the product of its estimate and the factor, rounded up. -/
theorem holdFor_ok (h : policy.holdFor estimate = .ok (.ok hold)) :
    ∃ n d, Decimal.ofInt? estimate = some n ∧ n.times? policy.multiplier = some d ∧
      hold = d.ceil := by
  simp only [holdFor, bind, Except.bind, pure, Except.pure] at h
  split at h
  · cases h
  · rename_i product hproduct
    split at h
    · cases h
      simp only [HoldPolicy.product, orDefect] at hproduct
      split at hproduct
      · rename_i d hd
        cases hproduct
        obtain ⟨n, hn, htimes⟩ := Option.bind_eq_some_iff.mp hd
        exact ⟨n, product, hn, htimes, rfl⟩
      · cases hproduct
    · cases h

theorem holdFor_error {d : Defect} (h : policy.holdFor estimate = .error d) :
    d = .productRange := by
  simp only [holdFor, HoldPolicy.product, orDefect, bind, Except.bind, pure, Except.pure] at h
  split at h
  · rename_i hproduct
    cases h
    split at hproduct
    · cases hproduct
    · cases hproduct
      rfl
  · cases h

/-- A valid policy holds nothing negative. -/
theorem hold_nonneg (hvalid : policy.validate = .ok ()) (hestimate : 0 ≤ estimate)
    (h : policy.holdFor estimate = .ok (.ok hold)) : 0 ≤ hold := by
  obtain ⟨n, d, hn, htimes, rfl⟩ := holdFor_ok h
  exact Decimal.ceil_nonneg
    (Decimal.times?_sign (Decimal.ofInt?_sign hestimate hn) (multiplier_sign hvalid) htimes)

/-- Nor does it hold less than the estimate. -/
theorem estimate_le_hold (hvalid : policy.validate = .ok ()) (hestimate : 0 ≤ estimate)
    (h : policy.holdFor estimate = .ok (.ok hold)) : estimate ≤ hold := by
  obtain ⟨n, d, hn, htimes, rfl⟩ := holdFor_ok h
  obtain ⟨-, hmantissa, hscale⟩ := Decimal.ofParts?_some hn
  have hge := Decimal.times?_ge hscale (multiplier_ge hvalid) htimes
  have hsign := Decimal.times?_sign (Decimal.ofInt?_sign hestimate hn) (multiplier_sign hvalid)
    htimes
  refine Decimal.le_ceil hsign ?_
  have hnat : (n.mantissa : Int) = estimate := by omega
  rw [← hnat]
  exact_mod_cast hge

end HoldPolicy

end WalletBudget
