import WalletBudget.Binary64
import WalletBudget.Decimal.Basic
import WalletBudget.Text.Ascii
import WalletBudget.Word

/-!
Reading decimals from text.

A plain decimal has an optional sign, digits with at most one point among them, and low lines behind
digits, which are passed over. Places that no longer fit are decided by the first of them: it rounds
the last place that fits, a five up, and only digits and low lines may follow. A scientific decimal
is a plain one, a letter `e` and an exponent.
-/

namespace WalletBudget.Decimal

/-- Mantissas from here on are read in two words. The bound leaves room for one more digit in one
word, and a margin. -/
def wideBound : Nat := 1844674407370954906

/-- The mantissa and scale when one more digit no longer fits. -/
def roundBy (mantissa scale digit : Nat) : Option (Nat × Nat) :=
  if digit < 5 then some (mantissa, scale)
  else if mantissa + 1 < mantissaBound then some (mantissa + 1, scale)
  else if scale = 0 then none
  else some ((mantissa + 5) / 10, scale - 1)

/-- The mantissa and scale when the rest of the text no longer fits. A low line counts as zero. -/
def roundAt (mantissa scale : Nat) (next : Char) (rest : List Char) : Option (Nat × Nat) :=
  if (next :: rest).all (fun c => c.isDigit || c = '_') then
    roundBy mantissa scale (if next = '_' then 0 else Digits.value next)
  else none

/-- Reads on in two words. Where the places are full, low lines are passed over before the next
digit decides: it is taken in if it fits the mantissa after all. The flag says whether the point
has been passed. -/
def readWide (point : Bool) (mantissa scale : Nat) : List Char → Option (Nat × Nat)
  | [] => some (mantissa, scale)
  | c :: rest =>
    if c.isDigit then
      let m := 10 * mantissa + Digits.value c
      let s := if point then scale + 1 else scale
      if m ≥ mantissaBound then (if point then roundAt mantissa scale c rest else none)
      else if point ∧ s ≥ maxScale then
        match rest with
        | [] => some (m, s)
        | '_' :: rest => readWide point m s rest
        | next :: rest => roundAt m s next rest
      else readWide point m s rest
    else if c = '.' ∧ point = false then readWide true mantissa scale rest
    else if c = '_' then readWide point mantissa scale rest
    else none

/-- Reads on in one word. The flags say whether the point has been passed and whether a digit has
been read. -/
def readOn (point digits : Bool) (mantissa scale : Nat) : List Char → Option (Nat × Nat)
  | [] => if digits then some (mantissa, scale) else none
  | c :: rest =>
    if c.isDigit then
      let m := 10 * mantissa + Digits.value c
      let s := if point then scale + 1 else scale
      if point ∧ s ≥ maxScale then
        match rest with
        | [] => some (m, s)
        | next :: rest => roundAt m s next rest
      else if m ≥ wideBound then readWide point m s rest
      else readOn point true m s rest
    else if c = '.' ∧ point = false then readOn true digits mantissa scale rest
    else if c = '_' ∧ digits then readOn point digits mantissa scale rest
    else none

/-- A scale above the largest one starts again at zero. -/
def readPlain? (cs : List Char) : Option Decimal := do
  let (negative, cs) := match cs with
    | '-' :: rest => (true, rest)
    | '+' :: rest => (false, rest)
    | _ => (false, cs)
  let (m, s) ← readOn false false 0 0 cs
  ofParts? negative m (s % (maxScale + 1))

/-- The mantissa with fewer places, a half rounded up. -/
def rescaled (d : Decimal) (places : Nat) : Nat :=
  let unit := Nat.pow 10 (d.scale - places)
  (d.mantissa + unit / 2) / unit

/-- A negative exponent adds places, and where there is no room for them the number is rounded
first. A positive one takes places away, and where there are none left it multiplies. -/
def shift (d : Decimal) (down : Bool) (exponent : Nat) : Option Decimal :=
  if exponent > maxScale then none
  else if down then
    if d.scale + exponent ≤ maxScale then ofParts? d.negative d.mantissa (d.scale + exponent)
    else ofParts? d.negative (d.rescaled (maxScale - exponent)) maxScale
  else if exponent ≤ d.scale then ofParts? d.negative d.mantissa (d.scale - exponent)
  else ofParts? d.negative (d.mantissa * Nat.pow 10 (exponent - d.scale)) 0

def isExponentMark (c : Char) : Bool := c = 'e' || c = 'E'

def readScientific? (cs : List Char) : Option Decimal := do
  let base ← readPlain? (cs.takeWhile (fun c => !isExponentMark c))
  match cs.dropWhile (fun c => !isExponentMark c) with
  | [] => none
  | _ :: '-' :: rest => shift base true (← Digits.readUpTo? Word.largest32 rest)
  | _ :: rest => shift base false (← Digits.readUpTo? Word.largest32 rest)

/-- A plain decimal or else a scientific one. -/
def read? (s : String) : Option Decimal :=
  readPlain? s.toList <|> readScientific? s.toList

/-- The decimal with the shortest text of a binary fraction. -/
def ofBinary? (x : Binary64) : Option Decimal := readPlain? x.text.toList

end WalletBudget.Decimal
