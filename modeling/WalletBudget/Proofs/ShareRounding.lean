import WalletBudget.Proofs.BudgetShare
import WalletBudget.Proofs.NearestEven

/-!
How close the displayed share of a budget is to the exact quotient, rounded once.

The quotient is rounded to the most places that fit and then to a whole number. That this makes a
difference takes a total of many digits together with a price that leaves room for few places.
-/

namespace WalletBudget

namespace Decimal

variable {x y d : Decimal} {negative : Bool} {num den kept places other : Nat}

/-- The most places with which a quotient is in range. -/
structure MostPlaces (num den places : Nat) : Prop where
  le : places ≤ maxScale
  fits : roundHalfEven (num * 10 ^ places) den < mantissaBound
  most : ∀ more ≤ maxScale, places < more → mantissaBound ≤ roundHalfEven (num * 10 ^ more) den

theorem MostPlaces.unique (h : MostPlaces num den places) (h' : MostPlaces num den other) :
    places = other := by
  rcases Nat.lt_trichotomy places other with hlt | he | hlt
  · exact absurd h'.fits (Nat.not_lt.mpr (h.most _ h'.le hlt))
  · exact he
  · exact absurd h.fits (Nat.not_lt.mpr (h'.most _ h.le hlt))

/-- A quotient below a whole number leaves room for the places that the whole number does. -/
theorem MostPlaces.le_of {few whole : Nat} (h : MostPlaces num den places) (hden : 0 < den)
    (hnum : num ≤ whole * den) (hfew : few ≤ maxScale) (hfits : whole * 10 ^ few < mantissaBound) :
    few ≤ places := by
  by_contra hless
  have hround : roundHalfEven (num * 10 ^ few) den ≤ whole * 10 ^ few := by
    refine roundHalfEven_le_of hden ?_
    rw [Nat.mul_right_comm]
    exact Nat.mul_le_mul_right _ hnum
  exact absurd (h.most few hfew (by omega)) (by omega)

/-- The search for the number of places stops at the first one that fits. -/
theorem quotientPlaces_most (h : quotientPlaces num den places = some kept) :
    ∀ more ≤ places, kept < more → mantissaBound ≤ num * 10 ^ more / den := by
  induction places with
  | zero =>
    intro more hle hlt
    omega
  | succ places ih =>
    simp only [quotientPlaces] at h
    split at h
    · cases h
      intro more hle hlt
      omega
    · rename_i hlarge
      intro more hle hlt
      rcases Nat.le_succ_iff.mp hle with hle | rfl
      · exact ih h more hle hlt
      · exact Nat.not_lt.mp hlarge

theorem ratio?_most (h : ratio? negative num den = some d) : MostPlaces num den d.scale := by
  refine ⟨d.scale_le, (ratio?_some h).1 ▸ d.mantissa_lt, fun more hmore hlt => ?_⟩
  obtain ⟨kept, hkept, hrest⟩ := Option.bind_eq_some_iff.mp h
  have hbeyond : kept < more → mantissaBound ≤ roundHalfEven (num * 10 ^ more) den := fun hlt =>
    (quotientPlaces_most hkept more hmore hlt).trans (le_roundHalfEven ..)
  dsimp only at hrest
  split at hrest
  · obtain ⟨-, -, hscale⟩ := ofParts?_some hrest
    exact hbeyond (hscale ▸ hlt)
  · rename_i hround
    split at hrest
    · cases hrest
    · -- One place less is kept: with `kept` of them the rounded quotient is out of range.
      obtain ⟨-, -, hscale⟩ := ofParts?_some hrest
      rcases (show kept ≤ more by omega).lt_or_eq with hlt | rfl
      · exact hbeyond hlt
      · exact Nat.not_lt.mp hround

/-- A quotient of whole numbers, rounded to a whole number, is rounded at the most places first. -/
theorem dividedBy?_round (hx : x.scale = 0) (hy : y.scale = 0) (h : x.dividedBy? y = some d) :
    ∃ places, MostPlaces x.mantissa y.mantissa places ∧ d.round.natAbs =
      roundHalfEven (roundHalfEven (x.mantissa * 10 ^ places) y.mantissa) (10 ^ places) := by
  have hround : d.round.natAbs = roundHalfEven d.mantissa d.unit := by
    simp only [round]
    split <;> omega
  rw [hround, (dividedBy?_whole hx hy h).1]
  simp only [dividedBy?] at h
  split at h
  · cases h
  · rename_i hden
    have hpos := Nat.pos_of_ne_zero hden
    split at h
    · -- Nothing is left of nothing, at any number of places.
      rename_i hzero
      cases h
      refine ⟨maxScale, ⟨le_rfl, ?_, fun more hle hlt => by omega⟩, ?_⟩
      · rw [hzero, Nat.zero_mul, roundHalfEven_zero hpos]
        decide
      · have hten (places : Nat) : 0 < 10 ^ places := Nat.pow_pos (by decide)
        simp only [hzero, Nat.zero_mul, roundHalfEven_zero hpos, unit, Nat.pow_eq,
          roundHalfEven_zero (hten _)]
    · have hmost := ratio?_most h
      simp only [unit, hx, hy, Nat.pow_eq, Nat.pow_zero, Nat.mul_one] at hmost
      exact ⟨d.scale, hmost, rfl⟩

end Decimal

namespace BudgetView

variable {sats remaining total share : Int} {places : Nat}

theorem share?_le (h : share? sats remaining total = some share) : share ≤ largestAmount := by
  simp only [share?, Option.bind_eq_bind, Option.bind_eq_some_iff] at h
  obtain ⟨s, -, r, -, p, -, t, -, q, -, hshare⟩ := h
  split at hshare
  · rename_i hrange
    cases hshare
    exact (inRange_iff.mp hrange).2
  · cases hshare

/-- The size of a share is that of the quotient, rounded at the most places and then to a whole
number. -/
theorem share?_natAbs (h : share? sats remaining total = some share) :
    ∃ places, Decimal.MostPlaces (sats * remaining).natAbs total.natAbs places ∧ share.natAbs =
      roundHalfEven (roundHalfEven ((sats * remaining).natAbs * 10 ^ places) total.natAbs)
        (10 ^ places) := by
  simp only [share?, Option.bind_eq_bind, Option.bind_eq_some_iff] at h
  obtain ⟨s, hs, r, hr, p, hp, t, ht, q, hq, hshare⟩ := h
  obtain ⟨-, hsm, hsscale⟩ := Decimal.ofInt?_some hs
  obtain ⟨-, hrm, hrscale⟩ := Decimal.ofInt?_some hr
  obtain ⟨-, htm, htscale⟩ := Decimal.ofInt?_some ht
  obtain ⟨hpm, hpscale, -⟩ := Decimal.times?_whole hsscale hrscale hp
  have hquotient := Decimal.dividedBy?_round hpscale htscale hq
  rw [hpm, hsm, hrm, htm, ← Int.natAbs_mul] at hquotient
  split at hshare
  · cases hshare
    exact hquotient
  · cases hshare

section

variable (hsats : 0 ≤ sats) (hremaining : 0 ≤ remaining) (htotal : 0 < total)
include hsats hremaining htotal

theorem quotient_natAbs :
    (sats * remaining / total : ℚ) = ((sats * remaining).natAbs : ℤ) / (total.natAbs : ℕ) := by
  have hproduct : ((sats * remaining).natAbs : ℤ) = sats * remaining :=
    Int.natAbs_of_nonneg (Int.mul_nonneg hsats hremaining)
  have hwhole : (total.natAbs : ℤ) = total := Int.natAbs_of_nonneg htotal.le
  rw [hproduct, ← Int.cast_natCast total.natAbs, hwhole, Int.cast_mul]

theorem share?_twice (h : share? sats remaining total = some share) :
    ∃ places m, Decimal.MostPlaces (sats * remaining).natAbs total.natAbs places ∧
      NearestEven (sats * remaining / total * (10 ^ places : Nat)) m ∧
      NearestEven (m / (10 ^ places : Nat)) share := by
  obtain ⟨places, hmost, hround⟩ := share?_natAbs h
  have hsign := (share?_some htotal hremaining h).1.sign.1 hsats
  have hden : 0 < total.natAbs := by omega
  have hten : 0 < 10 ^ places := Nat.pow_pos (by decide)
  have hfirst := nearestEven_roundHalfEven ((sats * remaining).natAbs * 10 ^ places) hden
  have hsecond := nearestEven_roundHalfEven
    (roundHalfEven ((sats * remaining).natAbs * 10 ^ places) total.natAbs) hten
  rw [← hround, Int.natAbs_of_nonneg hsign] at hsecond
  refine ⟨places, _, hmost, ?_, hsecond⟩
  rw [quotient_natAbs hsats hremaining htotal, Int.cast_natCast, div_mul_eq_mul_div,
    ← Nat.cast_mul]
  exact hfirst

/-- What is rounded to an amount keeps nine places. -/
theorem nine_places {places : Nat} {m : ℤ} (hshare : share ≤ largestAmount)
    (hmost : Decimal.MostPlaces (sats * remaining).natAbs total.natAbs places)
    (hm : NearestEven (sats * remaining / total * (10 ^ places : Nat)) m)
    (hr : NearestEven (m / (10 ^ places : Nat)) share) : 9 ≤ places := by
  have hsmall : (1 : ℚ) / (2 * 10 ^ places) ≤ 1 / 2 := by
    have hone : (1 : ℚ) ≤ 10 ^ places := one_le_pow₀ (by norm_num)
    exact one_div_le_one_div_of_le two_pos (by linarith)
  have habove := (abs_le.mp (twice_near hm hr)).2
  have hlarge : (share : ℚ) ≤ 2 ^ 63 - 1 := by
    exact_mod_cast hshare
  have hquotient : (sats * remaining / total : ℚ) ≤ 2 ^ 63 := by linarith
  rw [quotient_natAbs hsats hremaining htotal, Int.cast_natCast,
    div_le_iff₀ (by exact_mod_cast Int.natAbs_pos.mpr htotal.ne')] at hquotient
  exact hmost.le_of (Int.natAbs_pos.mpr htotal.ne') (by exact_mod_cast hquotient) (by decide)
    (by decide)

end

/-- A share is the nearest whole number, or its neighbour where the quotient strays. No quotient
strays in a total of less than ten digits, or in a price that leaves room for nineteen places. -/
theorem share_near_exact (hsats : 0 ≤ sats) (hremaining : 0 ≤ remaining) (htotal : 0 < total)
    (hamount : total ≤ largestAmount) (h : share? sats remaining total = some share) :
    ∃ exact places, NearestEven (sats * remaining / total) exact ∧
      Decimal.MostPlaces (sats * remaining).natAbs total.natAbs places ∧
      |share - exact| ≤ 1 ∧
      (share ≠ exact ↔ ∃ n, Strays (sats * remaining / total) places n) ∧
      (total < 10 ^ 9 ∨ sats * remaining ≤ 7922816251 * total → share = exact) := by
  obtain ⟨places, m, hmost, hm, hr⟩ := share?_twice hsats hremaining htotal h
  have hden : 0 < total.natAbs := Int.natAbs_pos.mpr htotal.ne'
  have hnine := nine_places hsats hremaining htotal (share?_le h) hmost hm hr
  have hexact := nearestEven_roundHalfEven (sats * remaining).natAbs hden
  have hquotient := quotient_natAbs hsats hremaining htotal
  rw [← Int.cast_natCast (sats * remaining).natAbs, ← hquotient] at hexact
  have hne := twice_ne_iff hm hr hexact (by omega)
  refine ⟨_, places, hexact, hmost, twice_close hm hr hexact (by omega), hne, fun hroom => ?_⟩
  by_contra hdiffers
  obtain ⟨n, hstrays⟩ := hne.mp hdiffers
  rw [hquotient] at hstrays
  have hdigits := hstrays.le_den hden
  rcases hroom with hroom | hroom
  · have hpow := Nat.pow_le_pow_right (show 0 < 10 by decide) hnine
    omega
  · have hnum : (sats * remaining).natAbs ≤ 7922816251 * total.natAbs := by
      zify
      rwa [abs_of_nonneg (mul_nonneg hsats hremaining), abs_of_pos htotal]
    have hnineteen := hmost.le_of hden hnum (show 19 ≤ Decimal.maxScale by decide) (by decide)
    have hpow := Nat.pow_le_pow_right (show 0 < 10 by decide) hnineteen
    simp only [largestAmount] at hamount
    omega

/-- The share of a budget of which one unit in 4 * 10^13 is spent. -/
theorem share_near_exact_strays :
    share? 819999999999999 39999999999999 40000000000000 = some 819999999999978 ∧
      NearestEven (819999999999999 * 39999999999999 / 40000000000000) 819999999999979 ∧
      ∃ n, Strays (819999999999999 * 39999999999999 / 40000000000000) 13 n := by
  have hshare : share? 819999999999999 39999999999999 40000000000000 = some 819999999999978 := by
    decide +kernel
  have hdistance : |(819999999999999 * 39999999999999 / 40000000000000 : ℚ) -
      (819999999999979 : ℤ)| = 19999999999999 / 40000000000000 := by
    norm_num
  have hnearest : NearestEven (819999999999999 * 39999999999999 / 40000000000000)
      819999999999979 := by
    constructor
    · rw [hdistance]
      norm_num
    · rw [hdistance]
      norm_num
  obtain ⟨exact, places, hexact, hmost, -, hne, -⟩ :=
    share_near_exact (by decide) (by decide) (by decide) (by decide) hshare
  obtain rfl : places = 13 :=
    hmost.unique ⟨by decide, by decide +kernel, by decide +kernel⟩
  simp only [Int.cast_ofNat] at hexact hne
  obtain rfl := hexact.unique hnearest
  exact ⟨hshare, hnearest, hne.mp (by decide)⟩

end BudgetView

end WalletBudget
