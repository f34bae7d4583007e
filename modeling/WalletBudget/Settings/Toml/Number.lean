import WalletBudget.Settings.Value
import WalletBudget.Text.Ascii
import WalletBudget.Text.Hex

/-!
Numbers of TOML: whole numbers of four bases, and fractions. A low line may stand between two
digits.
-/

namespace WalletBudget.Settings.Toml

/-- The digits of a row in which single low lines stand between digits, and what follows it. -/
def row? (isDigit : Char → Bool) : List Char → Option (List Char × List Char)
  | [] => none
  | [c] => if isDigit c then some ([c], []) else none
  | c :: '_' :: rest => do
    if !isDigit c then none
    let (ds, rest) ← row? isDigit rest
    return (c :: ds, rest)
  | c :: d :: rest =>
    if !isDigit c then none
    else if isDigit d then (row? isDigit (d :: rest)).map (fun (ds, rest) => (c :: ds, rest))
    else some ([c], d :: rest)

/-- A sign, if there is one, and digits of which the first is zero only if it is alone. -/
def decimalWhole? (cs : List Char) : Option (List Char × List Char) := do
  let sign := match cs with
    | '-' :: _ => ['-']
    | '+' :: _ => ['+']
    | _ => []
  let (ds, rest) ← match cs.drop sign.length with
    | '0' :: rest => some (['0'], rest)
    | rest => row? Char.isDigit rest
  return (sign ++ ds, rest)

/-- An exponent with its letter and its sign, and what follows it. -/
def exponent? (cs : List Char) : Option (List Char × List Char) := do
  match cs with
  | c :: rest =>
    if c ≠ 'e' ∧ c ≠ 'E' then none
    let sign := match rest with
      | '-' :: _ => ['-']
      | '+' :: _ => ['+']
      | _ => []
    let (ds, rest) ← row? Char.isDigit (rest.drop sign.length)
    return (c :: sign ++ ds, rest)
  | [] => none

/-- No fraction is infinite because it is too large, but one may be because it is too small. -/
def fractionOf? (token : List Char) : Option Value := do
  match ← Fraction.read? token with
  | .infinite false => none
  | x => return .fraction x

def isExponentMark (c : Char) : Bool := c = 'e' || c = 'E'

/-- A decimal number, and what follows it. -/
def decimal? (cs : List Char) : Option (Value × List Char) := do
  let (whole, rest) ← decimalWhole? cs
  match rest with
  | '.' :: rest =>
    let (places, rest) ← row? Char.isDigit rest
    let (exponent, rest) ←
      if (rest.head?.map isExponentMark).getD false then exponent? rest else some ([], rest)
    return (← fractionOf? (whole ++ '.' :: places ++ exponent), rest)
  | rest =>
    if (rest.head?.map isExponentMark).getD false then
      let (exponent, rest) ← exponent? rest
      return (← fractionOf? (whole ++ exponent), rest)
    else return (.int (← readWhole? whole), rest)

/-- The values that are no numbers, with a sign or without. -/
def special? (cs : List Char) : Option (Value × List Char) :=
  let (negative, cs) := Fraction.splitSign cs
  match cs with
  | 'i' :: 'n' :: 'f' :: rest => some (.fraction (.infinite negative), rest)
  | 'n' :: 'a' :: 'n' :: rest => some (.fraction .notNumber, rest)
  | _ => none

/-- A number of another base behind its mark, which has no sign. -/
def based? (base : Nat) (isDigit : Char → Bool) (cs : List Char) : Option (Value × List Char) := do
  let (ds, rest) ← row? isDigit cs
  return (.int (← readBased? base Hex.digit? ds), rest)

def number? (cs : List Char) : Option (Value × List Char) :=
  match cs with
  | '0' :: 'x' :: rest => based? 16 Hex.isDigit rest
  | '0' :: 'o' :: rest => based? 8 (fun c => '0' ≤ c && c ≤ '7') rest
  | '0' :: 'b' :: rest => based? 2 (fun c => c = '0' || c = '1') rest
  | _ => special? cs <|> decimal? cs

end WalletBudget.Settings.Toml
