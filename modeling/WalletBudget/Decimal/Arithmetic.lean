import WalletBudget.Decimal.Basic

/-!
Products and quotients of decimals.

Both are formed exactly and rounded once. A product drops as few of its last places as bring it into
range; a quotient takes as many places as fit. Where even no place at all does not help, there is no
result.
-/

namespace WalletBudget.Decimal

/-- The mantissa and scale left when at least `drop` places of a scaled number are dropped: the
first count for which the rounded mantissa is in range. -/
def fit (mantissa scale : Nat) : Nat → Nat → Option (Nat × Nat)
  | _, 0 => none
  | drop, fuel + 1 =>
    if scale < drop then none
    else
      let m := roundHalfEven mantissa (Nat.pow 10 drop)
      if m < mantissaBound then some (m, scale - drop) else fit mantissa scale (drop + 1) fuel

/-- Two scales sum to at most 56 places, so 57 steps try every count of places. -/
def times? (x y : Decimal) : Option Decimal :=
  if x.mantissa = 0 ∨ y.mantissa = 0 then some zero
  else do
    let scale := x.scale + y.scale
    let (m, s) ← fit (x.mantissa * y.mantissa) scale (scale - maxScale) 58
    ofParts? (x.negative != y.negative) m s

/-- The largest number of places, at most `places`, with which the quotient is in range. -/
def quotientPlaces (num den : Nat) : Nat → Option Nat
  | 0 => if num / den < mantissaBound then some 0 else none
  | places + 1 =>
    if num * Nat.pow 10 (places + 1) / den < mantissaBound then some (places + 1)
    else quotientPlaces num den places

/-- The quotient of two positive natural numbers, in as many places as fit. Rounding up may leave
the range once more; then one place less is kept. -/
def ratio? (negative : Bool) (num den : Nat) : Option Decimal := do
  let places ← quotientPlaces num den maxScale
  let m := roundHalfEven (num * Nat.pow 10 places) den
  if m < mantissaBound then ofParts? negative m places
  else if places = 0 then none
  else ofParts? negative (roundHalfEven (num * Nat.pow 10 (places - 1)) den) (places - 1)

/-- There is no quotient by zero. -/
def dividedBy? (x y : Decimal) : Option Decimal :=
  if y.mantissa = 0 then none
  else if x.mantissa = 0 then some zero
  else ratio? (x.negative != y.negative) (x.mantissa * y.unit) (y.mantissa * x.unit)

end WalletBudget.Decimal
