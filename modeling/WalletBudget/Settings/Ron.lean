import WalletBudget.Settings.Value
import WalletBudget.Text.Ascii
import WalletBudget.Text.Hex

/-!
Reading RON: values with named structures, tuples and optional values.

A structure is a table of its named fields, and a tuple an array of its unnamed ones. Names of
structures and of units count for nothing, and so does `Some`. Comments stand between any two parts,
and a comma may stand behind the last part.
-/

namespace WalletBudget.Settings.Ron

/-! ### Blanks -/

def isBlank (c : Char) : Bool := c = ' ' || c = '\t' || c = '\n' || c = '\r'

/-- What follows the end of a comment of some depth. -/
def behindComment? : Nat → List Char → Option (List Char)
  | _, [] => none
  | depth, '/' :: '*' :: rest => behindComment? (depth + 1) rest
  | depth, '*' :: '/' :: rest =>
    match depth with
    | 0 => some rest
    | depth + 1 => behindComment? depth rest
  | depth, _ :: rest => behindComment? depth rest

/-- What follows blanks and comments. The fuel bounds their number. -/
def skipBlanks? : Nat → List Char → Option (List Char)
  | 0, _ => none
  | fuel + 1, cs =>
    match cs.dropWhile isBlank with
    | '/' :: '/' :: rest => skipBlanks? fuel (rest.dropWhile (· ≠ '\n'))
    | '/' :: '*' :: rest => do skipBlanks? fuel (← behindComment? 0 rest)
    | '/' :: _ => none
    | rest => some rest

def skip? (cs : List Char) : Option (List Char) := skipBlanks? (cs.length + 1) cs

/-- What follows a text and the blanks behind it, if the text is there. -/
def strip? (text : String) (cs : List Char) : Option (List Char) := do
  skip? (← Ascii.strip? text.toList cs)

/-- Whether a comma stands there, and what follows it. Blanks are passed over. -/
def comma? (cs : List Char) : Option (Bool × List Char) := do
  match ← skip? cs with
  | ',' :: rest => return (true, ← skip? rest)
  | rest => return (false, rest)

/-! ### Names -/

def isNameStart (c : Char) : Bool := c.isAlpha || c = '_'

def isNameChar (c : Char) : Bool := c.isAlphanum || c = '_'

def isRawNameChar (c : Char) : Bool := isNameChar c || c = '.' || c = '+' || c = '-'

/-- A name, which is raw behind `r#`. The start of a raw string is no name. -/
def name? (cs : List Char) : Option (String × List Char) :=
  match cs with
  | ['r'] => none
  | 'r' :: '"' :: _ => none
  | 'r' :: '#' :: rest =>
    let name := rest.takeWhile isRawNameChar
    if name = [] then none else some (String.ofList name, rest.drop name.length)
  | c :: _ =>
    let name := cs.takeWhile isNameChar
    if isNameStart c then some (String.ofList name, cs.drop name.length) else none
  | [] => none

/-- What follows a word that no other character of a name follows. -/
def word? (word : String) (cs : List Char) : Option (List Char) := do
  let rest ← Ascii.strip? word.toList cs
  if (rest.head?.map isNameChar).getD false then none else some rest

/-! ### Texts -/

def shortEscape? : Char → Option Char
  | '\'' => some '\''
  | '"' => some '"'
  | '\\' => some '\\'
  | 'n' => some '\n'
  | 'r' => some '\r'
  | 't' => some '\t'
  | '0' => some '\x00'
  | _ => none

/-- The character of a row of one to six digits. -/
def scalar? (ds : List Char) : Option Char :=
  let n := Hex.number ds
  if ds ≠ [] ∧ ds.length ≤ 6 ∧ (n < 0xD800 ∨ (0xDFFF < n ∧ n < 0x110000)) then some (Char.ofNat n)
  else none

/-- The character of an escape behind its reverse solidus, and what follows it. -/
def escape? (cs : List Char) : Option (Char × List Char) :=
  match cs with
  | 'x' :: a :: b :: rest =>
    if Hex.isDigit a ∧ Hex.isDigit b then some (Char.ofNat (Hex.number [a, b]), rest) else none
  | 'u' :: '{' :: rest => do
    let ds := rest.takeWhile Hex.isDigit
    let c ← scalar? ds
    return (c, ← Ascii.strip? ['}'] (rest.drop ds.length))
  | c :: rest => (shortEscape? c).map (fun c => (c, rest))
  | [] => none

/-- What stands before the closing quote, and what follows it. The fuel bounds the characters. -/
def quoted? : Nat → List Char → Option (List Char × List Char)
  | _, [] => none
  | 0, _ => none
  | fuel + 1, c :: rest =>
    if c = '"' then some ([], rest)
    else do
      let (c, rest) ← if c = '\\' then escape? rest else some (c, rest)
      let (cs, rest) ← quoted? fuel rest
      return (c :: cs, rest)

/-- What stands before a closing text, and what follows it. -/
def raw? (closing : List Char) : List Char → Option (List Char × List Char)
  | [] => none
  | c :: rest =>
    match Ascii.strip? closing (c :: rest) with
    | some rest => some ([], rest)
    | none => (raw? closing rest).map (fun (cs, rest) => (c :: cs, rest))

def string? (cs : List Char) : Option (String × List Char) := do
  let (text, rest) ← match cs with
    | '"' :: rest => quoted? rest.length rest
    | 'r' :: rest => do
      let marks := rest.takeWhile (· = '#')
      raw? ('"' :: marks) (← Ascii.strip? ['"'] (rest.drop marks.length))
    | _ => none
  return (String.ofList text, rest)

/-- One character between apostrophes, behind the first of them. -/
def char? (cs : List Char) : Option (String × List Char) := do
  let (c, rest) ← match cs with
    | '\\' :: rest => escape? rest
    | '\'' :: _ => none
    | c :: rest => some (c, rest)
    | [] => none
  return (String.singleton c, ← Ascii.strip? ['\''] rest)

/-- The key of a table is a text or a character. -/
def key? (cs : List Char) : Option (String × List Char) :=
  match cs with
  | '\'' :: rest => char? rest
  | _ => string? cs

/-! ### Numbers -/

def isWholeChar (c : Char) : Bool := Hex.isDigit c || c = '_'

def isFractionChar (c : Char) : Bool :=
  c.isDigit || c = 'e' || c = 'E' || c = '.' || c = '+' || c = '-' || c = '_'

def digitBelow? (base : Nat) (c : Char) : Option Nat := do
  let n ← Hex.digit? c
  if n < base then some n else none

/-- The base that a number starts with, and its digits. -/
def splitBase (cs : List Char) : Nat × List Char :=
  match cs with
  | '0' :: 'x' :: rest => (16, rest)
  | '0' :: 'o' :: rest => (8, rest)
  | '0' :: 'b' :: rest => (2, rest)
  | _ => (10, cs)

/-- A whole number. One with a sign has 64 bits with sign, and one without has 64 bits. -/
def whole? (cs : List Char) : Option (Value × List Char) := do
  let signed := cs.head? = some '-' ∨ cs.head? = some '+'
  let (negative, cs) := Fraction.splitSign cs
  let (base, cs) := splitBase cs
  let ds := cs.takeWhile isWholeChar
  if ds = [] ∨ ds.head? = some '_' then none
  let n ← (ds.filter (· ≠ '_')).foldlM (fun n c => (digitBelow? base c).map (base * n + ·)) 0
  let value : Int := if negative then -(n : Int) else n
  if (if signed then inRange value else n ≤ Word.largest64) then
    return (Value.ofInt value, cs.drop ds.length)
  else none

/-- The values that are no numbers, with a sign or without. -/
def special? (cs : List Char) : Option (Fraction × List Char) :=
  let (negative, unsigned) := Fraction.splitSign cs
  match word? "inf" unsigned, word? "NaN" unsigned with
  | some rest, _ => some (.infinite negative, rest)
  | none, some rest => some (.notNumber, rest)
  | none, none => none

def fraction? (cs : List Char) : Option (Value × List Char) := do
  match special? cs with
  | some (x, rest) => return (.fraction x, rest)
  | none =>
    let token := cs.takeWhile isFractionChar
    return (.fraction (← Fraction.read? token), cs.drop token.length)

/-- Whether a number has more characters as a fraction than as a whole number. -/
def looksFractional (cs : List Char) : Bool :=
  let (_, cs) := Fraction.splitSign cs
  (cs.takeWhile isWholeChar).length < (cs.takeWhile isFractionChar).length

/-- A whole number, or else a fraction. -/
def number? (cs : List Char) : Option (Value × List Char) :=
  if looksFractional cs then fraction? cs else whole? cs <|> fraction? cs

/-! ### Values -/

/-- How many parts may stand inside one another. A part in brackets counts twice. -/
def deepest : Nat := 128

/-- Whether named fields stand behind an opening bracket, and not a tuple. -/
def hasFields? (cs : List Char) : Option Bool := do
  match name? cs with
  | none => return false
  | some (_, rest) =>
    match ← skip? rest with
    | c :: _ => return c = ':'
    | [] => none

mutual

/-- A value at the front, and what follows it. The fuel bounds the steps, and the depth the parts
around the value. -/
def value? : Nat → Nat → List Char → Option (Value × List Char)
  | 0, _, _ => none
  | fuel + 1, depth, cs =>
    match word? "true" cs, word? "false" cs, word? "None" cs, Ascii.strip? ['(', ')'] cs with
    | some rest, _, _, _ => some (.bool true, rest)
    | _, some rest, _, _ => some (.bool false, rest)
    | _, _, some rest, _ => some (.nil, rest)
    | _, _, _, some rest => some (.nil, rest)
    | none, none, none, none =>
      match word? "Some" cs, word? "inf" cs <|> word? "-inf" cs <|> word? "NaN" cs, name? cs with
      | some rest, _, _ => some? fuel depth rest
      | _, some _, _ => fraction? cs
      | _, _, some (_, rest) => do structure? fuel depth (← skip? rest)
      | none, none, none =>
        match cs with
        | '(' :: _ => structure? fuel depth cs
        | '[' :: rest => (items? fuel depth ']' true rest).map (fun (vs, rest) => (.array vs, rest))
        | '{' :: rest => (pairs? fuel depth true [] rest).map (fun (es, rest) => (.table es, rest))
        | '.' :: _ => fraction? cs
        | c :: _ =>
          if c.isDigit ∨ c = '+' ∨ c = '-' then number? cs
          else (key? cs).map (fun (s, rest) => (.str s, rest))
        | [] => none

/-- The value that `Some` holds, behind the word. -/
def some? : Nat → Nat → List Char → Option (Value × List Char)
  | 0, _, _ => none
  | fuel + 1, depth, cs => do
    if depth ≥ deepest then none
    let rest ← strip? "(" (← skip? cs)
    let (value, rest) ← value? fuel (depth + 1) rest
    let (_, rest) ← comma? rest
    return (value, ← Ascii.strip? [')'] rest)

/-- A structure or a tuple behind its name. A name alone is a unit. -/
def structure? : Nat → Nat → List Char → Option (Value × List Char)
  | 0, _, _ => none
  | fuel + 1, depth, cs =>
    match cs with
    | '(' :: rest => do
      if ← hasFields? (← skip? rest) then
        let (es, rest) ← fields? fuel depth true [] rest
        return (.table es, rest)
      else
        let (vs, rest) ← items? fuel depth ')' true rest
        return (.array vs, rest)
    | _ => some (.nil, cs)

/-- Items up to a closing bracket. The flag says whether one more may stand there. -/
def items? : Nat → Nat → Char → Bool → List Char → Option (List Value × List Char)
  | 0, _, _, _, _ => none
  | fuel + 1, depth, closing, more, cs => do
    if depth ≥ deepest then none
    match ← skip? cs with
    | [] => none
    | c :: rest =>
      if c = closing then return ([], rest)
      else if !more ∨ depth + 2 > deepest then none
      else
        let (v, rest) ← value? fuel (depth + 2) (c :: rest)
        let (more, rest) ← comma? rest
        let (vs, rest) ← items? fuel depth closing more rest
        return (v :: vs, rest)

/-- Keys and values up to a closing brace. Of a repeated key the last value counts. -/
def pairs? : Nat → Nat → Bool → Entries → List Char → Option (Entries × List Char)
  | 0, _, _, _, _ => none
  | fuel + 1, depth, more, done, cs => do
    if depth ≥ deepest then none
    match ← skip? cs with
    | [] => none
    | '}' :: rest => return (done, rest)
    | cs =>
      if !more ∨ depth + 2 > deepest then none
      let (key, rest) ← key? cs
      let (v, rest) ← value? fuel (depth + 2) (← strip? ":" (← skip? rest))
      let (more, rest) ← comma? rest
      pairs? fuel depth more (put key v done) rest

/-- Named fields up to a closing bracket. -/
def fields? : Nat → Nat → Bool → Entries → List Char → Option (Entries × List Char)
  | 0, _, _, _, _ => none
  | fuel + 1, depth, more, done, cs => do
    if depth ≥ deepest then none
    match ← skip? cs with
    | [] => none
    | ')' :: rest => return (done, rest)
    | cs =>
      if !more ∨ depth + 2 > deepest then none
      let (name, rest) ← name? cs
      let (v, rest) ← value? fuel (depth + 2) (← strip? ":" (← skip? rest))
      let (more, rest) ← comma? rest
      fields? fuel depth more (put name v done) rest

end

/-! ### Texts as a whole -/

/-- Extensions of the notation that may be enabled. Not one of them changes what is read here. -/
def extensions : List String := ["unwrap_newtypes", "implicit_some", "unwrap_variant_newtypes"]

/-- Names of extensions behind an opening bracket, with what follows them. -/
def enabled? : Nat → List Char → Option (List Char)
  | 0, _ => none
  | fuel + 1, cs => do
    let (name, rest) ← name? cs
    if !extensions.contains name then none
    let (more, rest) ← comma? rest
    match rest with
    | c :: _ =>
      if isNameChar c then (if more then enabled? fuel rest else none) else some rest
    | [] => some rest

/-- What follows the attributes in front of a value. The fuel bounds their number. -/
def behindAttributes? : Nat → List Char → Option (List Char)
  | 0, _ => none
  | fuel + 1, cs =>
    match cs with
    | '#' :: _ => do
      let rest ← strip? "(" (← strip? "enable" (← strip? "[" (← strip? "!" (← strip? "#" cs))))
      let rest ← enabled? rest.length rest
      behindAttributes? fuel (← strip? "]" (← strip? ")" rest))
    | _ => some cs

/-- The value of a text. -/
def read? (text : String) : Option Value := do
  let cs ← skip? text.toList
  let cs ← behindAttributes? (cs.length + 1) cs
  match ← value? (3 * cs.length + 3) 0 cs with
  | (value, rest) => if (← skip? rest).isEmpty then some value else none

end WalletBudget.Settings.Ron
