import WalletBudget.Rounding
import WalletBudget.Text.Digits

/-!
Finite numbers of the 64-bit binary floating-point format, in exact integer arithmetic.

A value is a mantissa below 2^53 times a power of two. Every operation forms the exact result as a
fraction and rounds it once, to the nearest value with ties to the even mantissa.
-/

namespace WalletBudget

structure Binary64 where
  negative : Bool
  mantissa : Nat
  exponent : Int
  deriving DecidableEq, Repr

namespace Binary64

/-- Largest power of two that is at most the fraction. -/
def floorLog2 (num den : Nat) : Int :=
  let e : Int := (Nat.log2 num : Int) - (Nat.log2 den : Int)
  if num * Nat.pow 2 (-e).toNat < den * Nat.pow 2 e.toNat then e - 1 else e

/-- The value nearest to a fraction, or nothing where it lies beyond the largest value. -/
def nearest (negative : Bool) (num den : Nat) : Option Binary64 :=
  if num = 0 then some ⟨negative, 0, -1074⟩
  else
    let e := max (floorLog2 num den - 52) (-1074)
    let m := roundHalfEven (num * Nat.pow 2 (-e).toNat) (den * Nat.pow 2 e.toNat)
    let (m, e) := if m = 0x20000000000000 then (0x10000000000000, e + 1) else (m, e)
    if e > 971 then none else some ⟨negative, m, e⟩

def ofNat (n : Nat) : Option Binary64 := nearest false n 1

/-- The value nearest to a number of units of a power of ten, or nothing beyond the largest value.
Powers far out of range are not formed. -/
def ofDecimal (negative : Bool) (units : Nat) (exponent : Int) : Option Binary64 :=
  let size := exponent + (Digits.ofNat units).length
  if units = 0 ∨ size < -330 then some ⟨negative, 0, -1074⟩
  else if 310 < size then none
  else nearest negative (units * Nat.pow 10 exponent.toNat) (Nat.pow 10 (-exponent).toNat)

/-- Numerator and denominator of the magnitude. -/
def fraction (x : Binary64) : Nat × Nat :=
  (x.mantissa * Nat.pow 2 x.exponent.toNat, Nat.pow 2 (-x.exponent).toNat)

def times (x y : Binary64) : Option Binary64 :=
  nearest (x.negative != y.negative) (x.fraction.1 * y.fraction.1) (x.fraction.2 * y.fraction.2)

def dividedBy (x y : Binary64) : Option Binary64 :=
  nearest (x.negative != y.negative) (x.fraction.1 * y.fraction.2) (x.fraction.2 * y.fraction.1)

/-- The power of ten `k ≤ 308`, rounded. -/
def powerOfTen (k : Nat) : Option Binary64 := nearest false (Nat.pow 10 k) 1

/-- Scaling by a power of ten in steps the powers of ten allow. Every step rounds. Numbers too
large for the format have no value, and numbers too small become zero. -/
def scaled (fuel : Nat) (x : Binary64) (exponent : Int) : Option Binary64 :=
  match fuel with
  | 0 => some x
  | fuel + 1 =>
    if exponent.natAbs ≤ 308 then do
      let p ← powerOfTen exponent.natAbs
      if exponent ≥ 0 then x.times p else x.dividedBy p
    else if x.mantissa = 0 then some x
    else if exponent ≥ 0 then none
    else do
      let p ← powerOfTen 308
      scaled fuel (← x.dividedBy p) (exponent + 308)

/-- A significand times a power of ten, as a reader computes it that rounds the significand first.
Four steps reach zero from any significand below 2^64, so the fuel never runs out. -/
def ofParts (negative : Bool) (significand : Nat) (exponent : Int) : Option Binary64 := do
  let x ← scaled 8 (← ofNat significand) exponent
  some { x with negative := negative }

/-- The fraction lies in the interval of fractions that round to the value. Its ends belong to it
when the mantissa is even. The lower end is nearer below a power of two. -/
def roundsTo (x : Binary64) (num den : Nat) : Bool :=
  let (n, d) := x.fraction
  let (un, ud) := (fraction ⟨false, 1, x.exponent - 1⟩)
  let (ln, ld) := if x.mantissa = 0x10000000000000 ∧ x.exponent > -1074
    then fraction ⟨false, 1, x.exponent - 2⟩ else (un, ud)
  -- upper end n/d + un/ud, lower end n/d - ln/ld
  let upper := (n * ud + un * d, d * ud)
  let lower := (n * ld - ln * d, d * ld)
  if x.mantissa % 2 = 0 then
    num * upper.2 ≤ upper.1 * den && lower.1 * den ≤ num * lower.2
  else
    num * upper.2 < upper.1 * den && lower.1 * den < num * lower.2

/-- Least exponent `k` with the fraction below `10^k`, searched upwards from a first guess. -/
def decimalExponent (num den : Nat) (guess : Int) : Nat → Int
  | 0 => guess
  | fuel + 1 =>
    if num * Nat.pow 10 (-guess).toNat < den * Nat.pow 10 guess.toNat then guess
    else decimalExponent num den (guess + 1) fuel

/-- Digits and exponent of the shortest decimal that rounds to a positive value: of the decimals
with the fewest digits, the nearest. The first argument counts the digits still allowed. -/
def shortestFrom (x : Binary64) (k : Int) (digits : Nat) : Nat → Nat × Int
  | 0 => (0, 0)
  | fuel + 1 =>
    let (n, d) := x.fraction
    let e := k - digits
    let num := n * Nat.pow 10 (-e).toNat
    let den := d * Nat.pow 10 e.toNat
    let low := num / den
    let fits (c : Nat) : Bool := roundsTo x (c * Nat.pow 10 e.toNat) (Nat.pow 10 (-e).toNat)
    let near := roundHalfEven num den
    if fits near then (near, e)
    else if fits low then (low, e)
    else if fits (low + 1) then (low + 1, e)
    else shortestFrom x k (digits + 1) fuel

def shortest (x : Binary64) : Nat × Int :=
  let (n, d) := x.fraction
  let guess := (floorLog2 n d * 30103) / 100000 - 1
  shortestFrom x (decimalExponent n d guess 8) 1 17

/-- The fewest digits that read back, before the point and behind it. A whole number has none
behind it. -/
def places (x : Binary64) : List Char × List Char :=
  if x.mantissa = 0 then (['0'], [])
  else
    let (n, e) := shortest x
    let ds := Digits.ofNat n
    if e ≥ 0 then (ds ++ List.replicate e.toNat '0', [])
    else
      let count := (-e).toNat
      let ds := List.replicate (count + 1 - ds.length) '0' ++ ds
      let part := (ds.drop (ds.length - count)).reverse.dropWhile (· = '0')
      (ds.take (ds.length - count), part.reverse)

/-- Positional text. -/
def text (x : Binary64) : String :=
  let (whole, part) := x.places
  (if x.negative then "-" else "") ++ String.ofList whole
    ++ (if part = [] then "" else "." ++ String.ofList part)

end Binary64

end WalletBudget
