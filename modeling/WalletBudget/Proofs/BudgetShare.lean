import WalletBudget.Proofs.HoldCeiling
import WalletBudget.Service.View

/-!
The share of a budget that remains, priced in sats.

The product of two whole numbers is formed exactly or not at all. The quotient is rounded twice,
first to the places that fit and then to a whole number. Neither rounding passes a whole number that
bounds what is rounded, so a part of a whole is priced between nothing and the whole.
-/

namespace WalletBudget

section

variable {num den n : Nat}

/-- A quotient is not rounded past a whole number that bounds it. -/
theorem roundHalfEven_le_of (hden : 0 < den) (h : num ≤ n * den) : roundHalfEven num den ≤ n := by
  have hquotient : num / den ≤ n := Nat.div_le_of_le_mul (by rwa [Nat.mul_comm])
  rcases Nat.lt_or_eq_of_le hquotient with hlt | heq
  · simp only [roundHalfEven]
    split <;> omega
  · -- The quotient is the bound itself, so nothing is left to round.
    have hexact : num % den = 0 := by
      have hsplit := Nat.div_add_mod num den
      rw [heq, Nat.mul_comm] at hsplit
      omega
    simp only [roundHalfEven, hexact, heq]
    split <;> omega

theorem roundHalfEven_zero (hden : 0 < den) : roundHalfEven 0 den = 0 :=
  Nat.le_zero.mp (roundHalfEven_le_of hden (by simp))

theorem roundHalfEven_one (num : Nat) : roundHalfEven num 1 = num :=
  Nat.le_antisymm (roundHalfEven_le_of Nat.one_pos (by omega))
    (by simpa using Decimal.le_roundHalfEven num 1)

end

namespace Decimal

variable {x y d : Decimal} {negative : Bool} {num den places : Nat}

/-- The product of whole numbers is exact. -/
theorem times?_whole (hx : x.scale = 0) (hy : y.scale = 0) (h : x.times? y = some d) :
    d.mantissa = x.mantissa * y.mantissa ∧ d.scale = 0 ∧
      d.negative = ((x.negative != y.negative) && d.mantissa ≠ 0) := by
  simp only [times?] at h
  split at h
  · rename_i hzero
    cases h
    exact ⟨(Nat.mul_eq_zero.mpr hzero).symm, rfl, by simp [zero]⟩
  · obtain ⟨⟨m, left⟩, hfit, hparts⟩ := Option.bind_eq_some_iff.mp h
    obtain ⟨hsign, hm, hleft⟩ := ofParts?_some hparts
    obtain ⟨dropped, hplaces, hround⟩ := fit_some hfit
    obtain rfl : dropped = 0 := by omega
    refine ⟨?_, by omega, by rw [hsign, hm]⟩
    rw [hm, hround]
    exact roundHalfEven_one _

theorem quotientPlaces_le {kept : Nat} (h : quotientPlaces num den places = some kept) :
    kept ≤ places ∧ num * Nat.pow 10 kept / den < mantissaBound := by
  induction places with
  | zero =>
    simp only [quotientPlaces] at h
    split at h
    · cases h
      exact ⟨Nat.le_refl _, by simpa⟩
    · cases h
  | succ places ih =>
    simp only [quotientPlaces] at h
    split at h
    · cases h
      exact ⟨Nat.le_refl _, by assumption⟩
    · obtain ⟨hle, hfits⟩ := ih h
      exact ⟨by omega, hfits⟩

theorem quotientPlaces_isSome (h : num / den < mantissaBound) :
    ∃ kept, quotientPlaces num den places = some kept := by
  induction places with
  | zero => exact ⟨0, by simp [quotientPlaces, h]⟩
  | succ places ih =>
    simp only [quotientPlaces]
    split
    · exact ⟨_, rfl⟩
    · exact ih

/-- A quotient keeps some places and rounds the last. -/
theorem ratio?_some (h : ratio? negative num den = some d) :
    d.mantissa = roundHalfEven (num * 10 ^ d.scale) den ∧
      d.negative = (negative && d.mantissa ≠ 0) := by
  obtain ⟨kept, -, hrest⟩ := Option.bind_eq_some_iff.mp h
  obtain ⟨places, hparts⟩ :
      ∃ places, ofParts? negative (roundHalfEven (num * 10 ^ places) den) places = some d := by
    dsimp only at hrest
    split at hrest
    · exact ⟨kept, hrest⟩
    · split at hrest
      · cases hrest
      · exact ⟨kept - 1, hrest⟩
  obtain ⟨hsign, hm, hscale⟩ := ofParts?_some hparts
  exact ⟨by rw [hm, hscale], by rw [hsign, hm]⟩

/-- A number a mantissa holds has a quotient by every positive number. Where rounding up leaves the
range, a tenth of the quotient does not. -/
theorem ratio?_isSome (hden : 0 < den) (h : num < mantissaBound) :
    ∃ d, ratio? negative num den = some d := by
  have hquotient : num / den < mantissaBound := Nat.lt_of_le_of_lt (Nat.div_le_self ..) h
  obtain ⟨kept, hkept⟩ : ∃ kept, quotientPlaces num den maxScale = some kept :=
    quotientPlaces_isSome hquotient
  obtain ⟨hmost, hfits⟩ := quotientPlaces_le hkept
  simp only [ratio?, hkept, Option.bind_eq_bind, Option.bind_some]
  split
  · rename_i hround
    exact ofParts?_isSome hround hmost
  · rename_i hround
    cases kept with
    | zero =>
      refine absurd (Nat.lt_of_le_of_lt (roundHalfEven_le_of hden ?_) h) hround
      simpa using Nat.le_mul_of_pos_right num hden
    | succ kept =>
      have htenth : num * Nat.pow 10 (kept + 1) / den / 10 = num * Nat.pow 10 kept / den := by
        rw [Nat.div_div_eq_div_mul, Nat.mul_comm den, ← Nat.div_div_eq_div_mul, Nat.pow_eq,
          Nat.pow_eq, Nat.pow_succ, ← Nat.mul_assoc, Nat.mul_div_cancel _ (by decide)]
      have hless : roundHalfEven (num * Nat.pow 10 kept) den < mantissaBound := by
        have hsucc := roundHalfEven_le (num * Nat.pow 10 kept) den
        simp only [mantissaBound] at hfits ⊢
        omega
      simp only [Nat.add_eq_zero_iff, Nat.succ_ne_self, and_false, if_false, Nat.add_sub_cancel]
      exact ofParts?_isSome hless (by omega)

theorem dividedBy?_whole (hx : x.scale = 0) (hy : y.scale = 0) (h : x.dividedBy? y = some d) :
    d.mantissa = roundHalfEven (x.mantissa * 10 ^ d.scale) y.mantissa ∧
      d.negative = ((x.negative != y.negative) && d.mantissa ≠ 0) := by
  simp only [dividedBy?] at h
  split at h
  · cases h
  · rename_i hden
    split at h
    · rename_i hzero
      cases h
      simp [hzero, zero, roundHalfEven_zero (Nat.pos_of_ne_zero hden)]
    · have hratio := ratio?_some h
      simp only [unit, hx, hy] at hratio
      simpa using hratio

theorem dividedBy?_isSome (hx : x.scale = 0) (hy : y.scale = 0) (hden : 0 < y.mantissa) :
    ∃ d, x.dividedBy? y = some d := by
  simp only [dividedBy?, unit, hx, hy, Nat.ne_of_gt hden, if_false]
  split
  · exact ⟨_, rfl⟩
  · exact ratio?_isSome (by simpa) (by simpa using x.mantissa_lt)

end Decimal

namespace BudgetView

variable {sats remaining total share : Int}

/-- The exact quotient, rounded to the places that fit and then to a whole number. It has the sign
of the price of the whole. -/
def RoundedShare (sats remaining total share : Int) : Prop :=
  ∃ places ≤ Decimal.maxScale, ∃ m : Nat,
    m = roundHalfEven
      (roundHalfEven (sats.natAbs * remaining.natAbs * 10 ^ places) total.natAbs) (10 ^ places) ∧
    share = if sats < 0 then -(m : Int) else m

theorem round_quotient {s r t p q : Decimal} (htotal : 0 < total) (hremaining : 0 ≤ remaining)
    (hs : Decimal.ofInt? sats = some s) (hr : Decimal.ofInt? remaining = some r)
    (ht : Decimal.ofInt? total = some t) (hp : s.times? r = some p)
    (hq : p.dividedBy? t = some q) : RoundedShare sats remaining total q.round := by
  obtain ⟨hssign, hsm, hsscale⟩ := Decimal.ofInt?_some hs
  obtain ⟨hrsign, hrm, hrscale⟩ := Decimal.ofInt?_some hr
  obtain ⟨htsign, htm, htscale⟩ := Decimal.ofInt?_some ht
  obtain ⟨hpm, hpscale, hpsign⟩ := Decimal.times?_whole hsscale hrscale hp
  obtain ⟨hqm, hqsign⟩ := Decimal.dividedBy?_whole hpscale htscale hq
  refine ⟨q.scale, q.scale_le, roundHalfEven q.mantissa q.unit, ?_, ?_⟩
  · rw [Decimal.unit, hqm, hpm, hsm, hrm, htm, Nat.pow_eq]
  · by_cases hzero : q.mantissa = 0
    · have hunit : 0 < q.unit := Nat.pow_pos (by decide)
      simp [Decimal.round, hzero, roundHalfEven_zero hunit]
    · have hproduct : p.mantissa ≠ 0 := by
        intro hproduct
        refine hzero ?_
        rw [hqm, hproduct, Nat.zero_mul, roundHalfEven_zero (by omega)]
      have hpart : ¬ remaining < 0 := by omega
      have hwhole : ¬ total < 0 := by omega
      simp [Decimal.round, hqsign, hpsign, hssign, hrsign, htsign, hzero, hproduct, hpart, hwhole]

/-- A part is priced between nothing and the whole. -/
theorem RoundedShare.natAbs_le (hround : RoundedShare sats remaining total share)
    (htotal : 0 < total) (hremaining : 0 ≤ remaining) (hle : remaining ≤ total) :
    share.natAbs ≤ sats.natAbs := by
  obtain ⟨places, -, m, hm, rfl⟩ := hround
  have hpart : sats.natAbs * remaining.natAbs * 10 ^ places ≤
      sats.natAbs * 10 ^ places * total.natAbs :=
    calc sats.natAbs * remaining.natAbs * 10 ^ places
        ≤ sats.natAbs * total.natAbs * 10 ^ places :=
          Nat.mul_le_mul_right _ (Nat.mul_le_mul_left _ (by omega))
      _ = sats.natAbs * 10 ^ places * total.natAbs := Nat.mul_right_comm ..
  have hmost : m ≤ sats.natAbs := by
    rw [hm]
    exact roundHalfEven_le_of (Nat.pow_pos (by decide)) (roundHalfEven_le_of (by omega) hpart)
  split <;> omega

theorem RoundedShare.sign (hround : RoundedShare sats remaining total share) :
    (0 ≤ sats → 0 ≤ share) ∧ (sats < 0 → share ≤ 0) := by
  obtain ⟨places, -, m, -, rfl⟩ := hround
  split <;> omega

/-- A share is the rounded quotient, of a product a mantissa holds. -/
theorem share?_some (htotal : 0 < total) (hremaining : 0 ≤ remaining)
    (h : share? sats remaining total = some share) :
    RoundedShare sats remaining total share ∧
      sats.natAbs * remaining.natAbs < Decimal.mantissaBound := by
  simp only [share?, Option.bind_eq_bind, Option.bind_eq_some_iff] at h
  obtain ⟨s, hs, r, hr, p, hp, t, ht, q, hq, hshare⟩ := h
  split at hshare
  · cases hshare
    refine ⟨round_quotient htotal hremaining hs hr ht hp hq, ?_⟩
    obtain ⟨-, hsm, hsscale⟩ := Decimal.ofInt?_some hs
    obtain ⟨-, hrm, hrscale⟩ := Decimal.ofInt?_some hr
    rw [← hsm, ← hrm, ← (Decimal.times?_whole hsscale hrscale hp).1]
    exact p.mantissa_lt
  · cases hshare

/-- A part has a price exactly where a mantissa holds the product: the quotient is in range, and so
is what it is rounded to, which lies between nothing and the whole. -/
theorem share?_isSome (hsats : inRange sats = true) (hwhole : inRange total = true)
    (htotal : 0 < total) (hremaining : 0 ≤ remaining) (hle : remaining ≤ total) :
    (share? sats remaining total).isSome ↔
      sats.natAbs * remaining.natAbs < Decimal.mantissaBound := by
  constructor
  · intro h
    obtain ⟨share, hshare⟩ := Option.isSome_iff_exists.mp h
    exact (share?_some htotal hremaining hshare).2
  · intro h
    have hpart : inRange remaining = true := by
      simp only [inRange_iff, leastAmount, largestAmount] at hwhole ⊢
      omega
    obtain ⟨s, hs⟩ := Decimal.ofInt?_isSome hsats
    obtain ⟨r, hr⟩ := Decimal.ofInt?_isSome hpart
    obtain ⟨t, ht⟩ := Decimal.ofInt?_isSome hwhole
    obtain ⟨-, hsm, hsscale⟩ := Decimal.ofInt?_some hs
    obtain ⟨-, hrm, hrscale⟩ := Decimal.ofInt?_some hr
    obtain ⟨-, htm, htscale⟩ := Decimal.ofInt?_some ht
    obtain ⟨p, hp⟩ : ∃ p, s.times? r = some p := by
      rw [Decimal.times?_isSome hsscale, hsm, hrm, Decimal.unit, hrscale]
      simpa [roundHalfEven_one]
    obtain ⟨-, hpscale, -⟩ := Decimal.times?_whole hsscale hrscale hp
    obtain ⟨q, hq⟩ := Decimal.dividedBy?_isSome hpscale htscale (by omega)
    have hround := round_quotient htotal hremaining hs hr ht hp hq
    have hsize := hround.natAbs_le htotal hremaining hle
    have hsign := hround.sign
    have hshare : inRange q.round = true := by
      simp only [inRange_iff, leastAmount, largestAmount] at hsats ⊢
      omega
    simp [share?, hs, hr, hp, ht, hq, hshare]

theorem msats_le {few many : Int} (h : few ≤ many) : msats few ≤ msats many := by
  simp only [msats, msatsPerSat, saturate]
  omega

theorem msats_neg_iff : msats sats < 0 ↔ sats < 0 := by
  simp only [msats, msatsPerSat, saturate, leastAmount, largestAmount]
  omega

end BudgetView

end WalletBudget
