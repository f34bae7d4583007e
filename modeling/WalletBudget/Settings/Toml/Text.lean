import WalletBudget.Text.Ascii
import WalletBudget.Text.Hex

/-!
Blanks, strings and keys of TOML.

A string stands between quotation marks, in which a reverse solidus escapes, or between apostrophes,
in which nothing does. Between three of either it may cross lines, and a line end behind the opening
ones does not count.
-/

namespace WalletBudget.Settings.Toml

/-! ### Blanks -/

def isBlank (c : Char) : Bool := c = ' ' || c = '\t'

def skipBlanks (cs : List Char) : List Char := cs.dropWhile isBlank

/-- Controls stand nowhere in a text, but for tabs and line ends. -/
def isControl (c : Char) : Bool := (c.toNat < 32 && c ≠ '\t') || c.toNat = 127

/-- What follows a line end. A carriage return alone ends no line. -/
def newline? : List Char → Option (List Char)
  | '\n' :: rest => some rest
  | '\r' :: '\n' :: rest => some rest
  | _ => none

/-- What follows the comment at the front, if there is one. -/
def skipComment (cs : List Char) : List Char :=
  match cs with
  | '#' :: rest => rest.dropWhile (fun c => !isControl c)
  | _ => cs

/-- Goes to the next line, if blanks and a comment are all that is left of this one. -/
def endLine? (cs : List Char) : Option (List Char) :=
  match skipComment (skipBlanks cs) with
  | [] => some []
  | rest => newline? rest

/-- What follows blanks, comments and line ends. The fuel bounds their number. -/
def skipLines : Nat → List Char → List Char
  | 0, cs => cs
  | fuel + 1, cs =>
    let rest := skipComment (skipBlanks cs)
    match newline? rest with
    | some rest => skipLines fuel rest
    | none => rest

/-! ### Strings -/

def shortEscape? : Char → Option Char
  | 'b' => some '\x08'
  | 't' => some '\t'
  | 'n' => some '\n'
  | 'f' => some '\x0c'
  | 'r' => some '\r'
  | '"' => some '"'
  | '\\' => some '\\'
  | _ => none

/-- The character of a row of hexadecimal digits. -/
def scalar? (ds : List Char) : Option Char :=
  let n := Hex.number ds
  if ds.all Hex.isDigit ∧ (n < 0xD800 ∨ (0xDFFF < n ∧ n < 0x110000)) then some (Char.ofNat n)
  else none

/-- The character of an escape behind its reverse solidus, and what follows it. -/
def escape? (cs : List Char) : Option (Char × List Char) :=
  match cs with
  | 'u' :: a :: b :: c :: d :: rest => (scalar? [a, b, c, d]).map (fun s => (s, rest))
  | 'U' :: a :: b :: c :: d :: e :: f :: g :: h :: rest =>
    (scalar? [a, b, c, d, e, f, g, h]).map (fun s => (s, rest))
  | c :: rest => (shortEscape? c).map (fun s => (s, rest))
  | [] => none

/-- What follows a line end, blanks and further line ends, if blanks and a line end stand there. -/
def behindBreak? (cs : List Char) : Option (List Char) :=
  let rec skipAll : Nat → List Char → List Char
    | 0, cs => cs
    | fuel + 1, cs =>
      match newline? (skipBlanks cs) with
      | some rest => skipAll fuel rest
      | none => skipBlanks cs
  (newline? (skipBlanks cs)).map (fun rest => skipAll (rest.length + 1) rest)

/-- How a string is read: its quote, whether it crosses lines, and whether it has escapes. -/
structure Style where
  quote : Char
  long : Bool
  escapes : Bool
  deriving DecidableEq, Repr

/-- The quotes at the end of a long string, where they belong to it, and what follows all of them.
Three close it, and up to two before them belong to it. -/
def closing? (quote : Char) (cs : List Char) : Option (List Char × List Char) :=
  let quotes := cs.takeWhile (· = quote)
  if quotes.length < 3 then none
  else
    let own := min 2 (quotes.length - 3)
    some (List.replicate own quote, cs.drop (own + 3))

/-- What stands before the closing quotes, and what follows them. The fuel bounds the characters. -/
def body? (style : Style) : Nat → List Char → Option (List Char × List Char)
  | 0, _ => none
  | _, [] => none
  | fuel + 1, c :: rest => do
    let next (c : Char) (rest : List Char) : Option (List Char × List Char) := do
      let (cs, rest) ← body? style fuel rest
      return (c :: cs, rest)
    if c = style.quote then
      if style.long then
        match closing? style.quote (c :: rest) with
        | some closed => return closed
        | none => next c rest
      else return ([], rest)
    else if c = '\\' ∧ style.escapes then
      match if style.long then behindBreak? rest else none with
      | some rest => body? style fuel rest
      | none =>
        let (c, rest) ← escape? rest
        next c rest
    else if isControl c then
      if style.long then next '\n' (← newline? (c :: rest)) else none
    else next c rest

/-- A string of any style. -/
def string? (cs : List Char) : Option (String × List Char) := do
  let long (quote : Char) (rest : List Char) : Option (List Char × List Char) :=
    body? ⟨quote, true, quote = '"'⟩ (rest.length + 1) ((newline? rest).getD rest)
  let short (quote : Char) (rest : List Char) : Option (List Char × List Char) :=
    body? ⟨quote, false, quote = '"'⟩ (rest.length + 1) rest
  let (text, rest) ← match cs with
    | '"' :: '"' :: '"' :: rest => long '"' rest
    | '\'' :: '\'' :: '\'' :: rest => long '\'' rest
    | '"' :: rest => short '"' rest
    | '\'' :: rest => short '\'' rest
    | _ => none
  return (String.ofList text, rest)

/-! ### Keys -/

def isBareChar (c : Char) : Bool := c.isAlphanum || c = '_' || c = '-'

/-- A key without points: a bare one, or a string of one line. -/
def simpleKey? (cs : List Char) : Option (String × List Char) :=
  match cs with
  | '"' :: rest =>
    (body? ⟨'"', false, true⟩ (rest.length + 1) rest).map (fun (k, rest) => (String.ofList k, rest))
  | '\'' :: rest =>
    (body? ⟨'\'', false, false⟩ (rest.length + 1) rest).map
      (fun (k, rest) => (String.ofList k, rest))
  | _ =>
    let k := cs.takeWhile isBareChar
    if k = [] then none else some (String.ofList k, cs.drop k.length)

/-- Neither keys nor values are nested as deep as this. -/
def depthBound : Nat := 80

/-- Keys with points between them. The first argument bounds their number. -/
def keys? : Nat → List Char → Option (List String × List Char)
  | 0, _ => none
  | most + 1, cs => do
    let (k, rest) ← simpleKey? (skipBlanks cs)
    match skipBlanks rest with
    | '.' :: rest =>
      let (ks, rest) ← keys? most rest
      return (k :: ks, rest)
    | rest => return ([k], rest)

def key? (cs : List Char) : Option (List String × List Char) := keys? (depthBound - 1) cs

end WalletBudget.Settings.Toml
