/-!
Decimal digits: writing numbers with them and reading numbers back.

A number has one text here: no leading zero, and a minus sign only in front of a negative number.
Readers are looser than the writer, each in the way its caller names.
-/

namespace WalletBudget.Digits

/-- The digit of a number below ten. -/
def char (n : Nat) : Char := Char.ofNat (48 + n)

/-- The number a digit stands for. -/
def value (c : Char) : Nat := c.toNat - 48

/-- The number a row of digits stands for, read from the left. -/
def number (cs : List Char) : Nat := cs.foldl (fun n c => 10 * n + value c) 0

/-- The digits of a number, without leading zeros. -/
def ofNat (n : Nat) : List Char :=
  if n < 10 then [char n] else ofNat (n / 10) ++ [char (n % 10)]
termination_by n
decreasing_by omega

def text (n : Nat) : String := String.ofList (ofNat n)

/-- A minus sign stands in front of a negative number, and no sign in front of any other. -/
def signed : Int → String
  | .ofNat n => text n
  | .negSucc n => "-" ++ text (n + 1)

/-- The last `width` digits of a number, with leading zeros. -/
def padded : Nat → Nat → List Char
  | 0, _ => []
  | width + 1, n => padded width (n / 10) ++ [char (n % 10)]

/-- At least `width` digits, with leading zeros where the number is shorter. -/
def atLeast (width n : Nat) : List Char :=
  if n < Nat.pow 10 width then padded width n else ofNat n

/-- A nonempty row of digits and nothing else. -/
def read? (cs : List Char) : Option Nat :=
  if cs ≠ [] ∧ cs.all Char.isDigit then some (number cs) else none

/-- Digits with an optional plus sign in front, up to a largest number. -/
def readUpTo? (largest : Nat) (cs : List Char) : Option Nat := do
  let n ← read? (match cs with
    | '+' :: rest => rest
    | _ => cs)
  if n ≤ largest then some n else none

/-- Digits with an optional sign in front, between two numbers. -/
def readWithin? (least largest : Int) (cs : List Char) : Option Int := do
  let n : Int ← match cs with
    | '-' :: rest => (read? rest).map (fun n => -(n : Int))
    | '+' :: rest => (read? rest).map Int.ofNat
    | _ => (read? cs).map Int.ofNat
  if least ≤ n ∧ n ≤ largest then some n else none

/-- The digits at the front, and what follows them. -/
def span (cs : List Char) : List Char × List Char :=
  (cs.takeWhile Char.isDigit, cs.dropWhile Char.isDigit)

end WalletBudget.Digits
