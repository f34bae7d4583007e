import WalletBudget.Amount
import WalletBudget.Binary64
import WalletBudget.Word

/-!
Numbers of settings: whole numbers of 64 bits with sign, and fractions.

A fraction is a number of the binary format or one of the values of the format that are no numbers.
Its text is positional, and a whole fraction has no point.
-/

namespace WalletBudget.Settings

inductive Fraction where
  | finite (value : Binary64)
  | infinite (negative : Bool)
  | notNumber
  deriving DecidableEq, Repr

namespace Fraction

/-- What is too large for the format is infinite. -/
def orInfinite (negative : Bool) (value : Option Binary64) : Fraction :=
  (value.map .finite).getD (.infinite negative)

/-- The fraction nearest to a whole number. -/
def ofInt (n : Int) : Fraction := orInfinite (n < 0) (Binary64.nearest (n < 0) n.natAbs 1)

def text : Fraction → String
  | .finite x => x.text
  | .infinite negative => if negative then "-inf" else "inf"
  | .notNumber => "NaN"

/-- What is no number is not zero. -/
def isZero : Fraction → Bool
  | .finite x => x.mantissa = 0
  | _ => false

/-- The word of 64 bits nearest to a fraction, a half rounded up. What is no number counts as
zero. -/
def nearestWord : Fraction → Nat
  | .notNumber => 0
  | .infinite negative => if negative then 0 else Word.largest64
  | .finite x =>
    let (num, den) := x.fraction
    if x.negative then 0 else min Word.largest64 ((2 * num + den) / (2 * den))

def splitSign (cs : List Char) : Bool × List Char :=
  match cs with
  | '-' :: rest => (true, rest)
  | '+' :: rest => (false, rest)
  | _ => (false, cs)

/-- The exponent that the rest of a number is: nothing at all, or a letter `e` and a number of any
size. -/
def readExponent? (cs : List Char) : Option Int :=
  match cs with
  | [] => some 0
  | c :: rest =>
    if c = 'e' ∨ c = 'E' then
      let (negative, ds) := splitSign rest
      (Digits.read? ds).map (fun n => if negative then -(n : Int) else n)
    else none

/-- The fraction nearest to a text of digits with a point among them or without, and an exponent.
The words of the values that are no numbers are read in letters of any case. -/
def read? (cs : List Char) : Option Fraction := do
  let (negative, cs) := splitSign cs
  match String.ofList (cs.map Char.toLower) with
  | "inf" => return .infinite negative
  | "infinity" => return .infinite negative
  | "nan" => return .notNumber
  | _ =>
    let (ds, rest) := Digits.span cs
    let (places, rest) := match rest with
      | '.' :: rest => Digits.span rest
      | _ => ([], rest)
    if ds = [] ∧ places = [] then none
    let exponent ← readExponent? rest
    return orInfinite negative
      (Binary64.ofDecimal negative (Digits.number (ds ++ places)) (exponent - places.length))

end Fraction

/-- A whole number of 64 bits, with a sign or without. -/
def readWhole? (cs : List Char) : Option Int :=
  Digits.readWithin? leastAmount largestAmount cs

/-- Digits of a base with a sign or without, as a whole number of 64 bits. -/
def readBased? (base : Nat) (digit? : Char → Option Nat) (cs : List Char) : Option Int := do
  let (negative, ds) := Fraction.splitSign cs
  if ds = [] then none
  let n ← ds.foldlM (fun n c => (digit? c).map (base * n + ·)) 0
  let n : Int := if negative then -(n : Int) else n
  if inRange n then some n else none

end WalletBudget.Settings
