import WalletBudget.Json.Read
import WalletBudget.Settings.Value
import WalletBudget.Text.Ascii
import WalletBudget.Text.Blank
import WalletBudget.Text.Mark

/-!
Reading JSON5: JSON with comments, names without quotes, strings in apostrophes, trailing commas,
and more ways to write a number.
-/

namespace WalletBudget.Settings.Json5

/-! ### Blanks -/

def isLineEnd (c : Char) : Bool :=
  c = '\n' || c = '\r' || c = '\u2028' || c = '\u2029'

/-- Blanks of all scripts, and the mark of byte order. -/
def isBlank (c : Char) : Bool := (Text.isBlank c && c ≠ '\u0085') || c = '\uFEFF'

/-- What follows the end of a comment between slashes and asterisks. -/
def behindComment? : List Char → Option (List Char)
  | [] => none
  | '*' :: '/' :: rest => some rest
  | _ :: rest => behindComment? rest

/-- What follows blanks and comments. The fuel bounds their number. A comment without an end is left
where it is. -/
def skipBlanks : Nat → List Char → List Char
  | 0, cs => cs
  | fuel + 1, cs =>
    match cs.dropWhile isBlank with
    | '/' :: '/' :: rest => skipBlanks fuel (rest.dropWhile (fun c => !isLineEnd c))
    | '/' :: '*' :: rest =>
      match behindComment? rest with
      | some rest => skipBlanks fuel rest
      | none => '/' :: '*' :: rest
    | rest => rest

def skip (cs : List Char) : List Char := skipBlanks (cs.length + 1) cs

/-! ### Texts -/

/-- What an escape stands for. A unit of 16 bits may be half of a character. -/
inductive Piece where
  | char (c : Char)
  | unit (unit : Nat)
  | none
  deriving DecidableEq, Repr

def shortEscape (c : Char) : Char :=
  match c with
  | 'b' => '\x08'
  | 'f' => '\x0c'
  | 'n' => '\n'
  | 'r' => '\r'
  | 't' => '\t'
  | 'v' => '\x0b'
  | c => c

/-- The piece of an escape behind its reverse solidus, and what follows it. A line end stands for
nothing. -/
def escape? (cs : List Char) : Option (Piece × List Char) :=
  match cs with
  | '\r' :: '\n' :: rest => some (.none, rest)
  | 'u' :: a :: b :: c :: d :: rest => (Json.unit? a b c d).map (fun u => (.unit u, rest))
  | 'x' :: a :: b :: rest =>
    if Hex.isDigit a ∧ Hex.isDigit b then some (.char (Char.ofNat (Hex.number [a, b])), rest)
    else Option.none
  | '0' :: rest => some (.char '\x00', rest)
  | c :: rest =>
    if isLineEnd c then some (.none, rest)
    else if c.isDigit ∨ c = 'x' ∨ c = 'u' then Option.none
    else some (.char (shortEscape c), rest)
  | [] => Option.none

/-- The text of pieces. A unit that is half of a character needs the other half right behind it. -/
def joined? : List Piece → Option (List Char)
  | [] => some []
  | .none :: rest => joined? rest
  | .char c :: rest => (joined? rest).map (c :: ·)
  | .unit u :: rest =>
    if Json.isLow u then Option.none
    else if Json.isHigh u then
      match rest with
      | .unit v :: rest =>
        if Json.isLow v then (joined? rest).map (Json.joined u v :: ·) else Option.none
      | _ => Option.none
    else (joined? rest).map (Char.ofNat u :: ·)

/-- The pieces in front of the closing quote, and what follows it. The fuel bounds their number. -/
def quoted? (quote : Char) : Nat → List Char → Option (List Piece × List Char)
  | 0, _ => Option.none
  | _, [] => Option.none
  | fuel + 1, c :: rest =>
    if c = quote then some ([], rest)
    else if isLineEnd c then Option.none
    else do
      let (piece, rest) ← if c = '\\' then escape? rest else some (.char c, rest)
      let (pieces, rest) ← quoted? quote fuel rest
      return (piece :: pieces, rest)

def string? (quote : Char) (cs : List Char) : Option (String × List Char) := do
  let (pieces, rest) ← quoted? quote (cs.length + 1) cs
  return (String.ofList (← joined? (pieces.filter (· ≠ .none))), rest)

/-! ### Names -/

def isNameStart (c : Char) : Bool := Text.isLetter c || c = '$' || c = '_'

def isNamePart (c : Char) : Bool :=
  isNameStart c || Text.isMark c || c = '\u200C' || c = '\u200D'

/-- The pieces of a name. The predicate tells what its next character may be. -/
def namePieces : Nat → (Char → Bool) → List Char → List Piece × List Char
  | 0, _, cs => ([], cs)
  | fuel + 1, accepts, cs =>
    let go (piece : Piece) (rest : List Char) : List Piece × List Char :=
      let (pieces, rest) := namePieces fuel isNamePart rest
      (piece :: pieces, rest)
    match cs with
    | '\\' :: 'u' :: a :: b :: c :: d :: rest =>
      match Json.unit? a b c d with
      | some u => go (.unit u) rest
      | none => ([], cs)
    | c :: rest => if accepts c then go (.char c) rest else ([], cs)
    | [] => ([], [])

def name? (cs : List Char) : Option (String × List Char) := do
  let (pieces, rest) := namePieces cs.length isNameStart cs
  if pieces = [] then Option.none
  return (String.ofList (← joined? pieces), rest)

def key? (cs : List Char) : Option (String × List Char) :=
  match cs with
  | '"' :: rest => string? '"' rest
  | '\'' :: rest => string? '\'' rest
  | _ => name? cs

/-! ### Numbers -/

/-- The digits that a letter `e` and a sign stand in front of, with the letter and the sign. -/
def exponentAt (cs : List Char) : List Char :=
  match cs with
  | c :: rest =>
    let sign := match rest with
      | '-' :: _ => ['-']
      | '+' :: _ => ['+']
      | _ => []
    let ds := (rest.drop sign.length).takeWhile Char.isDigit
    if (c = 'e' ∨ c = 'E') ∧ ds ≠ [] then c :: sign ++ ds else []
  | [] => []

/-- The longest decimal number at the front. A whole part has no leading zero. -/
def decimalAt (cs : List Char) : List Char :=
  let whole := match cs with
    | '0' :: _ => ['0']
    | _ => cs.takeWhile Char.isDigit
  match cs.drop whole.length with
  | '.' :: rest =>
    let places := rest.takeWhile Char.isDigit
    if whole = [] ∧ places = [] then []
    else whole ++ '.' :: places ++ exponentAt (rest.drop places.length)
  | rest => if whole = [] then [] else whole ++ exponentAt rest

def isWhole (token : List Char) : Bool := token.all (fun c => c.isDigit)

/-- A decimal number. A whole one has 64 bits with sign, and another one is not too large. -/
def decimal? (sign token : List Char) : Option Value :=
  if isWhole token then (readWhole? (sign ++ token)).map .int
  else
    match Fraction.read? (sign ++ token) with
    | some (.finite x) => some (.fraction (.finite x))
    | _ => Option.none

/-- The words of the values that are no numbers. A plus sign does not go with them. -/
def special? (sign : List Char) (cs : List Char) : Option (Value × List Char) :=
  match Ascii.strip? "Infinity".toList cs, Ascii.strip? "NaN".toList cs with
  | some rest, _ =>
    if sign = ['+'] then Option.none else some (.fraction (.infinite (sign = ['-'])), rest)
  | none, some rest => if sign = ['+'] then Option.none else some (.fraction .notNumber, rest)
  | none, none => Option.none

/-- A hexadecimal number has 32 bits and no sign. -/
def number? (cs : List Char) : Option (Value × List Char) := do
  let sign := match cs with
    | '-' :: _ => ['-']
    | '+' :: _ => ['+']
    | _ => []
  let cs := cs.drop sign.length
  let decimal : Option (Value × List Char) := do
    let token := decimalAt cs
    if token = [] then Option.none
    return (← decimal? sign token, cs.drop token.length)
  let based (rest : List Char) : Option (Value × List Char) := do
    let ds := rest.takeWhile Hex.isDigit
    if ds = [] then decimal
    else if sign ≠ [] ∨ Hex.number ds > Word.largest32 then Option.none
    else return (.int (Hex.number ds), rest.drop ds.length)
  match cs with
  | '0' :: 'x' :: rest => based rest
  | '0' :: 'X' :: rest => based rest
  | _ => special? sign cs <|> decimal

/-! ### Values -/

mutual

/-- A value at the front, and what follows it. The fuel bounds the steps. -/
def value? : Nat → List Char → Option (Value × List Char)
  | 0, _ => Option.none
  | fuel + 1, cs =>
    match cs with
    | 'n' :: 'u' :: 'l' :: 'l' :: rest => some (.nil, rest)
    | 't' :: 'r' :: 'u' :: 'e' :: rest => some (.bool true, rest)
    | 'f' :: 'a' :: 'l' :: 's' :: 'e' :: rest => some (.bool false, rest)
    | '"' :: rest => (string? '"' rest).map (fun (s, rest) => (.str s, rest))
    | '\'' :: rest => (string? '\'' rest).map (fun (s, rest) => (.str s, rest))
    | '[' :: rest =>
      match skip rest with
      | ']' :: rest => some (.array [], rest)
      | rest => (items? fuel rest).map (fun (vs, rest) => (.array vs, rest))
    | '{' :: rest =>
      match skip rest with
      | '}' :: rest => some (.table [], rest)
      | rest => (pairs? fuel [] rest).map (fun (es, rest) => (.table es, rest))
    | _ => number? cs

/-- Items up to the closing bracket, with an item at the front. -/
def items? : Nat → List Char → Option (List Value × List Char)
  | 0, _ => Option.none
  | fuel + 1, cs => do
    let (v, rest) ← value? fuel cs
    match skip rest with
    | ']' :: rest => return ([v], rest)
    | ',' :: rest =>
      match skip rest with
      | ']' :: rest => return ([v], rest)
      | rest =>
        let (vs, rest) ← items? fuel rest
        return (v :: vs, rest)
    | _ => Option.none

/-- Names and values up to the closing brace, with a name at the front. Of a repeated name the last
value counts. -/
def pairs? : Nat → Entries → List Char → Option (Entries × List Char)
  | 0, _, _ => Option.none
  | fuel + 1, done, cs => do
    let (name, rest) ← key? cs
    let (v, rest) ← value? fuel (skip (← Ascii.strip? [':'] (skip rest)))
    let done := put name v done
    match skip rest with
    | '}' :: rest => return (done, rest)
    | ',' :: rest =>
      match skip rest with
      | '}' :: rest => return (done, rest)
      | rest => pairs? fuel done rest
    | _ => Option.none

end

/-- The value of a text. -/
def read? (text : String) : Option Value := do
  let cs := skip text.toList
  let (value, rest) ← value? (2 * cs.length + 2) cs
  if (skip rest).isEmpty then some value else Option.none

end WalletBudget.Settings.Json5
