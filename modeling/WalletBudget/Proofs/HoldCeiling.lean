import WalletBudget.Proofs.HoldPolicy
import Mathlib.Data.Rat.Floor

/-!
How close a hold is to the product of its estimate and the factor, rounded up.

The product is formed as a decimal, which may have to drop places before anything is rounded up.
They are rounded to the nearest, so a small part above a whole number can be lost with them, and the
hold is then one unit short. A hold is never above the exact one, and a factor of nine places at
most never loses a part, as holds are amounts.
-/

namespace WalletBudget

theorem roundHalfEven_le (num den : Nat) : roundHalfEven num den ≤ num / den + 1 := by
  simp only [roundHalfEven]
  split <;> omega

/-- A number of whole units and up to one unit more, rounded up. -/
theorem ceil_units {unit above : Nat} (whole : Nat) (hunit : 0 < unit) (habove : above ≤ unit) :
    -(-((unit * whole + above : Nat) : Int) / unit) = whole + if above = 0 then 0 else 1 := by
  have hpos : (0 : Int) < unit := by exact_mod_cast hunit
  split
  · rename_i hzero
    have hquotient : -((unit * whole + above : Nat) : Int) / unit = -(whole : Int) := by
      refine Int.ediv_eq_of_eq_mul_right hpos.ne' ?_
      rw [hzero]
      push_cast
      ring
    omega
  · have hsome : (0 : Int) < above := by omega
    have hquotient : -((unit * whole + above : Nat) : Int) / unit = -(whole + 1 : Int) := by
      rw [Int.ediv_eq_iff_of_pos hpos]
      push_cast
      constructor <;> nlinarith
    omega

section Rounded

variable (num : Nat) {lead dropped : Nat}

/-- Places are dropped from a number, of which `lead * dropped` are one unit. What is left is
between the whole units and one unit more. -/
theorem roundHalfEven_units (hlead : 0 < lead) (hdropped : 0 < dropped) :
    ∃ above ≤ lead, roundHalfEven num dropped = lead * (num / (lead * dropped)) + above ∧
      (num % (lead * dropped) = 0 → above = 0) ∧
      (lead % 2 = 0 ∨ dropped = 1 → (above = 0 ↔ 2 * (num % (lead * dropped)) ≤ dropped)) := by
  generalize hwhole : num / (lead * dropped) = whole
  generalize hpart : num % (lead * dropped) = part
  have hsplit : num = dropped * (lead * whole) + part := by
    rw [← Nat.mul_assoc, Nat.mul_comm dropped, ← hwhole, ← hpart]
    exact (Nat.div_add_mod ..).symm
  have hquotient : num / dropped = lead * whole + part / dropped := by
    rw [hsplit, Nat.mul_add_div hdropped]
  have hrest : num % dropped = part % dropped := by rw [hsplit, Nat.mul_add_mod]
  have hsmall : part / dropped < lead := by
    rw [Nat.div_lt_iff_lt_mul hdropped, ← hpart]
    exact Nat.mod_lt _ (Nat.mul_pos hlead hdropped)
  have hparity : lead % 2 = 0 → (lead * whole) % 2 = 0 := fun h => by
    rw [Nat.mul_mod, h, Nat.zero_mul, Nat.zero_mod]
  have hcases : part / dropped = 0 ∧ part % dropped = part ∨
      part / dropped ≠ 0 ∧ dropped ≤ part := by
    rcases Nat.lt_or_ge part dropped with h | h
    · exact .inl ⟨Nat.div_eq_of_lt h, Nat.mod_eq_of_lt h⟩
    · exact .inr ⟨(Nat.div_pos h hdropped).ne', h⟩
  simp only [roundHalfEven, hquotient, hrest]
  generalize part / dropped = above at *
  generalize part % dropped = rest at *
  generalize lead * whole = units at *
  split
  · exact ⟨above + 1, hsmall, rfl, by omega, by omega⟩
  · exact ⟨above, hsmall.le, rfl, by omega, by omega⟩

/-- When the rest is rounded up to whole units, one unit is lost where the rounding came to the
whole units and there was a part above them. -/
theorem ceil_rounded (hlead : 0 < lead) (hdropped : 0 < dropped) :
    -(-(roundHalfEven num dropped : Int) / lead) =
      -(-(num : Int) / (lead * dropped : Nat)) -
        if 0 < num % (lead * dropped) ∧
          roundHalfEven num dropped = lead * (num / (lead * dropped)) then 1 else 0 := by
  obtain ⟨above, habove, hround, hexact, -⟩ := roundHalfEven_units num hlead hdropped
  have hunit := Nat.mul_pos hlead hdropped
  have hceil := ceil_units (num / (lead * dropped)) hunit (Nat.mod_lt num hunit).le
  rw [Nat.div_add_mod] at hceil
  rw [hceil, hround, ceil_units _ hlead habove]
  split <;> split <;> split <;> omega

end Rounded

namespace Decimal

variable {mantissa scale dropped fuel m left : Nat} {x y d : Decimal}

def value (d : Decimal) : ℚ := d.coefficient / d.unit

/-- The fewest places that have to be dropped from a mantissa to bring it into range. -/
structure Fewest (mantissa dropped : Nat) : Prop where
  fits : roundHalfEven mantissa (Nat.pow 10 dropped) < mantissaBound
  least : ∀ fewer < dropped, mantissaBound ≤ roundHalfEven mantissa (Nat.pow 10 fewer)

theorem Fewest.unique {other : Nat} (h : Fewest mantissa dropped) (h' : Fewest mantissa other) :
    dropped = other := by
  rcases Nat.lt_trichotomy dropped other with hlt | he | hlt
  · exact absurd h.fits (Nat.not_lt.mpr (h'.least _ hlt))
  · exact he
  · exact absurd h'.fits (Nat.not_lt.mpr (h.least _ hlt))

/-- With one place less dropped the mantissa would not be in range. -/
theorem Fewest.large (h : Fewest mantissa (dropped + 1)) :
    (mantissaBound - 1) * Nat.pow 10 dropped ≤ mantissa := by
  have hbound := h.least dropped (Nat.lt_succ_self _)
  have hround := roundHalfEven_le mantissa (Nat.pow 10 dropped)
  have hpos : 0 < Nat.pow 10 dropped := Nat.pow_pos (by decide)
  exact (Nat.le_div_iff_mul_le hpos).mp (Nat.sub_le_of_le_add (hbound.trans hround))

/-- The search for the number of places stops at the first one that is enough. -/
theorem fit_fewest {first : Nat} (h : fit mantissa scale first fuel = some (m, left))
    (hfirst : ∀ fewer < first, mantissaBound ≤ roundHalfEven mantissa (Nat.pow 10 fewer)) :
    ∃ dropped, left + dropped = scale ∧ m = roundHalfEven mantissa (Nat.pow 10 dropped) ∧
      Fewest mantissa dropped := by
  induction fuel generalizing first with
  | zero => cases h
  | succ fuel ih =>
    simp only [fit] at h
    split at h
    · cases h
    · split at h
      · rename_i hfits
        cases h
        exact ⟨first, by omega, rfl, hfits, hfirst⟩
      · refine ih h fun fewer hfewer => ?_
        rcases Nat.lt_succ_iff_lt_or_eq.mp hfewer with hlt | rfl
        · exact hfirst fewer hlt
        · omega

/-- It finds one if dropping all places is enough. -/
theorem fit_isSome {first : Nat} (hfuel : scale < first + fuel) (hfirst : first ≤ scale)
    (h : roundHalfEven mantissa (Nat.pow 10 scale) < mantissaBound) :
    ∃ fitted, fit mantissa scale first fuel = some fitted := by
  induction fuel generalizing first with
  | zero => omega
  | succ fuel ih =>
    simp only [fit, Nat.not_lt.mpr hfirst, if_false]
    split
    · exact ⟨_, rfl⟩
    · rename_i hlarge
      have hmore : first ≠ scale := fun he => hlarge (he ▸ h)
      exact ih (by omega) (by omega)

/-- Dropping all places is enough if dropping some is. -/
theorem Fewest.whole (h : Fewest mantissa dropped) (hle : dropped ≤ scale) :
    roundHalfEven mantissa (Nat.pow 10 scale) < mantissaBound := by
  obtain ⟨more, rfl⟩ := Nat.exists_eq_add_of_le hle
  cases more with
  | zero => exact h.fits
  | succ more =>
    have hround := roundHalfEven_le mantissa (Nat.pow 10 (dropped + (more + 1)))
    have hkept : mantissa / Nat.pow 10 dropped < mantissaBound :=
      lt_of_le_of_lt (le_roundHalfEven ..) h.fits
    have hpower :
        Nat.pow 10 (dropped + (more + 1)) = Nat.pow 10 dropped * 10 * Nat.pow 10 more := by
      simp only [Nat.pow_eq, Nat.pow_add, Nat.pow_succ]
      ring
    have htenth :
        mantissa / Nat.pow 10 (dropped + (more + 1)) ≤ mantissa / Nat.pow 10 dropped / 10 := by
      rw [hpower, ← Nat.div_div_eq_div_mul, ← Nat.div_div_eq_div_mul]
      exact Nat.div_le_self ..
    simp only [mantissaBound] at *
    omega

/-- A whole number times a decimal: as few places of the decimal are dropped as possible. -/
theorem times?_ceil (hx : x.scale = 0) (hxsign : x.negative = false) (hysign : y.negative = false)
    (h : x.times? y = some d) :
    ∃ left dropped, left + dropped = y.scale ∧ Fewest (x.mantissa * y.mantissa) dropped ∧
      d.ceil = -(-(roundHalfEven (x.mantissa * y.mantissa) (Nat.pow 10 dropped) : Int) /
        (Nat.pow 10 left : Nat)) := by
  have hsign := times?_sign hxsign hysign h
  have hscale := y.scale_le
  simp only [times?, hx, Nat.zero_add, maxScale] at h
  split at h
  · rename_i hzero
    cases h
    rw [Nat.mul_eq_zero.mpr hzero]
    exact ⟨y.scale, 0, rfl, ⟨by decide, by simp⟩, by simp [roundHalfEven, ceil, zero, coefficient]⟩
  · obtain ⟨⟨m, left⟩, hfit, hparts⟩ := Option.bind_eq_some_iff.mp h
    obtain ⟨-, hm, hleft⟩ := ofParts?_some hparts
    obtain ⟨dropped, hplaces, hround, hfewest⟩ := fit_fewest hfit (by omega)
    refine ⟨left, dropped, hplaces, hfewest, ?_⟩
    simp only [ceil, coefficient, hsign, unit, hm, hleft, hround, Bool.false_eq_true, if_false]

/-- There is no such product exactly where its whole number has too many digits. -/
theorem times?_isSome (hx : x.scale = 0) :
    (∃ d, x.times? y = some d) ↔
      roundHalfEven (x.mantissa * y.mantissa) y.unit < mantissaBound := by
  have hscale := y.scale_le
  by_cases hzero : x.mantissa = 0 ∨ y.mantissa = 0
  · simp only [times?, hzero, if_true, Nat.mul_eq_zero.mpr hzero]
    simp [roundHalfEven, mantissaBound, unit]
  · simp only [times?, hzero, if_false, hx, Nat.zero_add, maxScale, Nat.sub_eq_zero_of_le hscale]
    constructor
    · rintro ⟨d, h⟩
      obtain ⟨⟨m, left⟩, hfit, -⟩ := Option.bind_eq_some_iff.mp h
      obtain ⟨dropped, hplaces, -, hfewest⟩ := fit_fewest hfit (by simp)
      exact hfewest.whole (by omega)
    · intro h
      obtain ⟨⟨m, left⟩, hfit⟩ : ∃ fitted,
          fit (x.mantissa * y.mantissa) y.scale 0 58 = some fitted :=
        fit_isSome (by omega) (Nat.zero_le _) h
      obtain ⟨dropped, hplaces, hm, hfewest⟩ := fit_fewest hfit (by simp)
      have hrange : m < mantissaBound := hm ▸ hfewest.fits
      have hplacesLeft : left ≤ 28 := by omega
      simp [hfit, ofParts?, hrange, hplacesLeft]

end Decimal

namespace HoldPolicy

open Decimal

variable {policy : HoldPolicy} {estimate hold : Int}

/-- The hold that loses nothing: the product of the estimate and the factor, rounded up. -/
def exactHold (policy : HoldPolicy) (estimate : Int) : Int :=
  ⌈(estimate : ℚ) * policy.multiplier.value⌉

/-- The product in units of the last place of the factor. -/
def scaled (policy : HoldPolicy) (estimate : Int) : Nat :=
  estimate.toNat * policy.multiplier.mantissa

/-- What lies above a whole number in the product, in the same units. -/
def part (policy : HoldPolicy) (estimate : Int) : Nat :=
  policy.scaled estimate % policy.multiplier.unit

/-- The product has a part above a whole number, of at most half of what the last of its places that
are kept counts. -/
def LosesPart (policy : HoldPolicy) (estimate : Int) : Prop :=
  ∃ dropped, Fewest (policy.scaled estimate) dropped ∧
    0 < policy.part estimate ∧ 2 * policy.part estimate ≤ Nat.pow 10 dropped

/-- The product, rounded to a whole number, is that of a decimal. -/
def HasProduct (policy : HoldPolicy) (estimate : Int) : Prop :=
  roundHalfEven (policy.scaled estimate) policy.multiplier.unit < mantissaBound

theorem exactHold_eq (hvalid : policy.validate = .ok ()) (hestimate : 0 ≤ estimate) :
    policy.exactHold estimate =
      -(-(policy.scaled estimate : Int) / policy.multiplier.unit) := by
  have hcoefficient : estimate * policy.multiplier.coefficient = policy.scaled estimate := by
    simp [coefficient, multiplier_sign hvalid, scaled, hestimate]
  rw [exactHold, value, ← mul_div_assoc, ← Int.cast_mul, hcoefficient,
    Rat.ceil_intCast_div_natCast]

theorem ofInt?_amount (hestimate : 0 ≤ estimate) (hamount : estimate ≤ largestAmount) :
    ∃ n, ofInt? estimate = some n ∧ n.mantissa = estimate.toNat ∧ n.scale = 0 ∧
      n.negative = false := by
  obtain ⟨n, hn⟩ := ofInt?_isSome (inRange_iff.mpr ⟨Int.le_trans (by decide) hestimate, hamount⟩)
  obtain ⟨hsign, hmantissa, hscale⟩ := ofInt?_some hn
  exact ⟨n, hn, by omega, hscale, by simpa [hsign]⟩

theorem product_eq {n : Decimal} (hn : ofInt? estimate = some n) :
    policy.product estimate = orDefect .productRange (n.times? policy.multiplier) := by
  simp only [product, hn, Option.bind_eq_bind, Option.bind_some]

theorem holdFor_defect {e : Defect} (hestimate : 0 ≤ estimate)
    (hamount : estimate ≤ largestAmount) :
    policy.holdFor estimate = .error e ↔ e = .productRange ∧ ¬ policy.HasProduct estimate := by
  obtain ⟨n, hn, hmantissa, hscale, -⟩ := ofInt?_amount hestimate hamount
  have hproduct := times?_isSome (y := policy.multiplier) hscale
  rw [hmantissa] at hproduct
  simp only [holdFor, product_eq hn, HasProduct, scaled, ← hproduct]
  cases n.times? policy.multiplier with
  | none => simp [orDefect, bind, Except.bind, eq_comm]
  | some d => simp [orDefect, bind, Except.bind, pure, Except.pure]

/-- A hold is the exact one, or one unit less if the part above it was lost with the places that the
product dropped. It is refused if it is no amount. -/
theorem holdFor_rounded (hvalid : policy.validate = .ok ()) (hestimate : 0 ≤ estimate)
    (hamount : estimate ≤ largestAmount) {r : Except ValidationError Int}
    (h : policy.holdFor estimate = .ok r) :
    ∃ left dropped rounded, left + dropped = policy.multiplier.scale ∧
      Fewest (policy.scaled estimate) dropped ∧
      rounded = policy.exactHold estimate - (if 0 < policy.part estimate ∧
        roundHalfEven (policy.scaled estimate) (Nat.pow 10 dropped) =
          Nat.pow 10 left * (policy.scaled estimate / policy.multiplier.unit) then 1 else 0) ∧
      r = if inRange rounded then .ok rounded else .error (.holdOverflow estimate) := by
  obtain ⟨n, hn, hmantissa, hscale, hsign⟩ := ofInt?_amount hestimate hamount
  simp only [holdFor, product_eq hn, bind, Except.bind, pure, Except.pure] at h
  split at h
  · cases h
  · rename_i d hd
    have hproduct : n.times? policy.multiplier = some d := by
      simp only [orDefect] at hd
      split at hd
      · cases hd
        assumption
      · cases hd
    obtain ⟨left, dropped, hplaces, hfewest, hceil⟩ :=
      times?_ceil hscale hsign (multiplier_sign hvalid) hproduct
    have hunit : policy.multiplier.unit = Nat.pow 10 left * Nat.pow 10 dropped := by
      simp only [unit, ← hplaces, Nat.pow_eq, Nat.pow_add]
    rw [hmantissa] at hfewest hceil
    refine ⟨left, dropped, d.ceil, hplaces, hfewest, ?_, by cases h; rfl⟩
    rw [hceil, exactHold_eq hvalid hestimate, part, hunit]
    exact ceil_rounded _ (Nat.pow_pos (by decide)) (Nat.pow_pos (by decide))

theorem scaled_le (hvalid : policy.validate = .ok ()) (hestimate : 0 ≤ estimate) :
    (policy.scaled estimate : Int) ≤ policy.exactHold estimate * policy.multiplier.unit := by
  have hfloor := Int.ediv_mul_le (-(policy.scaled estimate : Int)) policy.multiplier.unit_pos.ne'
  rw [exactHold_eq hvalid hestimate, Int.neg_mul]
  omega

/-- A product that drops places although its hold is hardly above an amount keeps nine of them. -/
theorem nine_left {left dropped : Nat} (hvalid : policy.validate = .ok ())
    (hestimate : 0 ≤ estimate)
    (hamount : policy.exactHold estimate ≤ largestAmount + 1)
    (hplaces : left + (dropped + 1) = policy.multiplier.scale)
    (hfewest : Fewest (policy.scaled estimate) (dropped + 1)) : 9 ≤ left := by
  by_contra hfew
  have hleft : 10 ^ (left + 1) ≤ 10 ^ 9 := Nat.pow_le_pow_right (by decide) (by omega)
  have hpos : 0 < 10 ^ dropped := Nat.pow_pos (by decide)
  have hunit : policy.multiplier.unit = 10 ^ (left + 1) * 10 ^ dropped := by
    rw [unit, ← hplaces, Nat.pow_eq, ← Nat.pow_add]
    congr 1
    omega
  have hscaled : policy.scaled estimate ≤ 2 ^ 63 * 10 ^ 9 * 10 ^ dropped := by
    have hproduct : (policy.scaled estimate : Int) ≤ 2 ^ 63 * policy.multiplier.unit :=
      (scaled_le hvalid hestimate).trans
        (Int.mul_le_mul_of_nonneg_right hamount policy.multiplier.unit_pos.le)
    calc policy.scaled estimate
        ≤ 2 ^ 63 * policy.multiplier.unit := by exact_mod_cast hproduct
      _ = 2 ^ 63 * 10 ^ (left + 1) * 10 ^ dropped := by rw [hunit, Nat.mul_assoc]
      _ ≤ 2 ^ 63 * 10 ^ 9 * 10 ^ dropped :=
        Nat.mul_le_mul_right _ (Nat.mul_le_mul_left _ hleft)
  have hlarge : mantissaBound - 1 ≤ 2 ^ 63 * 10 ^ 9 :=
    Nat.le_of_mul_le_mul_right (hfewest.large.trans hscaled) hpos
  exact absurd hlarge (by decide)

/-- Near the amounts a hold is one unit short exactly where the product loses a part. Places are
dropped there only behind others that are kept, so the whole units are an even number. -/
theorem lost_iff {left dropped : Nat} (hvalid : policy.validate = .ok ()) (hestimate : 0 ≤ estimate)
    (hnear : policy.exactHold estimate ≤ largestAmount + 1)
    (hplaces : left + dropped = policy.multiplier.scale)
    (hfewest : Fewest (policy.scaled estimate) dropped) :
    (0 < policy.part estimate ∧ roundHalfEven (policy.scaled estimate) (Nat.pow 10 dropped) =
      Nat.pow 10 left * (policy.scaled estimate / policy.multiplier.unit)) ↔
    policy.LosesPart estimate := by
  have hunit : policy.multiplier.unit = Nat.pow 10 left * Nat.pow 10 dropped := by
    simp only [unit, ← hplaces, Nat.pow_eq, Nat.pow_add]
  have hten (places : Nat) : 0 < Nat.pow 10 places := Nat.pow_pos (by decide)
  obtain ⟨above, -, hround, -, hlost⟩ :=
    roundHalfEven_units (policy.scaled estimate) (hten left) (hten dropped)
  rw [← hunit] at hround hlost
  have heven : Nat.pow 10 left % 2 = 0 ∨ Nat.pow 10 dropped = 1 := by
    cases dropped with
    | zero => exact .inr rfl
    | succ dropped =>
      have hleft := nine_left hvalid hestimate hnear hplaces hfewest
      obtain ⟨more, rfl⟩ := Nat.exists_eq_add_of_le' (show 1 ≤ left by omega)
      left
      simp only [Nat.pow_eq, Nat.pow_succ]
      omega
  rw [hround, Nat.add_eq_left, hlost heven]
  constructor
  · exact fun hpart => ⟨_, hfewest, hpart⟩
  · rintro ⟨other, hother, hpart⟩
    exact hother.unique hfewest ▸ hpart

/-- A factor of nine places at most never drops one. -/
theorem LosesPart.scale {left dropped : Nat} (hvalid : policy.validate = .ok ())
    (hestimate : 0 ≤ estimate) (hnear : policy.exactHold estimate ≤ largestAmount + 1)
    (hplaces : left + dropped = policy.multiplier.scale)
    (hfewest : Fewest (policy.scaled estimate) dropped) (h : policy.LosesPart estimate) :
    9 < policy.multiplier.scale := by
  obtain ⟨other, hother, hsome, hhalf⟩ := h
  obtain rfl := hother.unique hfewest
  cases other with
  | zero =>
    simp only [Nat.pow_eq, Nat.pow_zero] at hhalf
    omega
  | succ other =>
    have hleft := nine_left hvalid hestimate hnear hplaces hfewest
    omega

/-- A hold is never above the exact one, and at most one unit below it. It is below exactly where
the product loses a part, which takes a factor of more than nine places. -/
theorem hold_near_exact (hvalid : policy.validate = .ok ()) (hestimate : 0 ≤ estimate)
    (hamount : estimate ≤ largestAmount) (h : policy.holdFor estimate = .ok (.ok hold)) :
    hold ≤ policy.exactHold estimate ∧ policy.exactHold estimate ≤ hold + 1 ∧
      (hold < policy.exactHold estimate ↔ policy.LosesPart estimate) ∧
      (policy.multiplier.scale ≤ 9 → hold = policy.exactHold estimate) := by
  obtain ⟨left, dropped, rounded, hplaces, hfewest, hrounded, hresult⟩ :=
    holdFor_rounded hvalid hestimate hamount h
  obtain ⟨rfl, hrange⟩ : hold = rounded ∧ inRange rounded := by
    split at hresult
    · cases hresult
      exact ⟨rfl, ‹_›⟩
    · cases hresult
  have hnear : policy.exactHold estimate ≤ largestAmount + 1 := by
    have hle := (inRange_iff.mp hrange).2
    split at hrounded <;> omega
  have hlost := lost_iff hvalid hestimate hnear hplaces hfewest
  by_cases hloses : policy.LosesPart estimate
  · rw [if_pos (hlost.mpr hloses)] at hrounded
    have hscale := hloses.scale hvalid hestimate hnear hplaces hfewest
    exact ⟨by omega, by omega, ⟨fun _ => hloses, fun _ => by omega⟩, fun _ => by omega⟩
  · rw [if_neg fun h => hloses (hlost.mp h)] at hrounded
    exact ⟨by omega, by omega, ⟨fun _ => by omega, fun h => absurd h hloses⟩, fun _ => by omega⟩

def longFactor : HoldPolicy :=
  ⟨⟨false, 17000000000000000000000000001, 28, by decide, by decide⟩⟩

theorem hold_near_exact_lost :
    longFactor.validate = .ok () ∧
      longFactor.holdFor 4900000000000000000 = .ok (.ok 8330000000000000000) ∧
      longFactor.exactHold 4900000000000000000 = 8330000000000000001 := by
  have hvalid : longFactor.validate = .ok () := by decide
  have hhold : longFactor.holdFor 4900000000000000000 = .ok (.ok 8330000000000000000) := by
    decide +kernel
  obtain ⟨-, hnear, hlost, -⟩ := hold_near_exact hvalid (by decide) (by decide) hhold
  have hloses : longFactor.LosesPart 4900000000000000000 :=
    ⟨19, ⟨by decide +kernel, by decide +kernel⟩, by decide +kernel, by decide +kernel⟩
  have hbelow := hlost.mpr hloses
  exact ⟨hvalid, hhold, by omega⟩

end HoldPolicy

end WalletBudget
