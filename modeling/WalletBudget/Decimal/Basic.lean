import WalletBudget.Rounding
import WalletBudget.Text.Digits

/-!
Decimal numbers of 96 bits: a mantissa below 2^96 over a power of ten with at most 28 places.

The scale belongs to the number, so `1.1` and `1.10` differ as decimals and agree in value. Sums and
differences are not needed; products and quotients keep as many places as fit and round the last one
to the nearest, a half to the even digit.
-/

namespace WalletBudget

/-- The first number that is too large for a mantissa: 2^96. -/
def Decimal.mantissaBound : Nat := 0x1000000000000000000000000

structure Decimal where
  negative : Bool
  mantissa : Nat
  scale : Nat
  mantissa_lt : mantissa < Decimal.mantissaBound
  scale_le : scale ≤ 28
  deriving DecidableEq

namespace Decimal

def maxScale : Nat := 28

/-- The decimal with these parts, if the mantissa and the scale are in range. Zero has no sign. -/
def ofParts? (negative : Bool) (mantissa scale : Nat) : Option Decimal :=
  if hm : mantissa < Decimal.mantissaBound then
    if hs : scale ≤ 28 then some ⟨negative && mantissa ≠ 0, mantissa, scale, hm, hs⟩ else none
  else none

def zero : Decimal := ⟨false, 0, 0, by decide, by decide⟩

def one : Decimal := ⟨false, 1, 0, by decide, by decide⟩

def ofInt? (n : Int) : Option Decimal := ofParts? (n < 0) n.natAbs 0

/-- The mantissa with its sign: the value times ten to the scale. -/
def coefficient (d : Decimal) : Int := if d.negative then -(d.mantissa : Int) else d.mantissa

/-- The power of ten that divides the mantissa. -/
def unit (d : Decimal) : Nat := Nat.pow 10 d.scale

def belowOne (d : Decimal) : Bool := d.coefficient < d.unit

/-- The least whole number that is not below the value. -/
def ceil (d : Decimal) : Int := -(-d.coefficient / d.unit)

/-- The whole number nearest to the value, a half to the even neighbour. -/
def round (d : Decimal) : Int :=
  let m := roundHalfEven d.mantissa d.unit
  if d.negative then -(m : Int) else m

/-- Every place of the scale is written, also when it is zero. -/
def text (d : Decimal) : String :=
  let sign := if d.negative then ['-'] else []
  let whole := Digits.ofNat (d.mantissa / d.unit)
  let places := if d.scale = 0 then [] else '.' :: Digits.padded d.scale d.mantissa
  String.ofList (sign ++ whole ++ places)

end Decimal

end WalletBudget
