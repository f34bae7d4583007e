import WalletBudget.Settings.Value
import WalletBudget.Text.Blank
import WalletBudget.Text.Hex

/-!
Reading INI: sections in brackets, and keys with an equals sign or a colon before their values.

A key may cross lines. A value ends with its line, but its quoted parts may cross lines too. A
comment is a line of its own. All values are texts.
-/

namespace WalletBudget.Settings.Ini

def isLineEnd (c : Char) : Bool := c = '\n' || c = '\r'

/-- The character of four digits, of which the first may be a plus sign. -/
def scalar? (ds : List Char) : Option Char :=
  let digits := match ds with
    | '+' :: rest => rest
    | _ => ds
  let n := Hex.number digits
  if digits.all Hex.isDigit ∧ (n < 0xD800 ∨ 0xDFFF < n) then some (Char.ofNat n) else none

def shortEscape (c : Char) : Char :=
  match c with
  | '0' => '\x00'
  | 'a' => '\x07'
  | 'b' => '\x08'
  | 't' => '\t'
  | 'r' => '\r'
  | 'n' => '\n'
  | c => c

/-- The text in front of the first character that stops it, with its escapes read, and the rest from
that character on. A line end behind a reverse solidus is dropped together with the character behind
it. Where the text ends first, there is an end only if one is allowed. -/
def until? (stops : Char → Bool) (mayEnd : Bool) : List Char → Option (List Char × List Char)
  | [] => if mayEnd then some ([], []) else none
  | '\\' :: 'x' :: a :: b :: c :: d :: rest => do
    let s ← scalar? [a, b, c, d]
    let (cs, rest) ← until? stops mayEnd rest
    return (s :: cs, rest)
  | '\\' :: '\n' :: [] => if mayEnd then some ([], []) else none
  | '\\' :: '\n' :: _ :: rest => until? stops mayEnd rest
  | '\\' :: c :: rest =>
    if c = 'x' then none
    else (until? stops mayEnd rest).map (fun (cs, rest) => (shortEscape c :: cs, rest))
  | ['\\'] => none
  | c :: rest =>
    if stops c then some ([], c :: rest)
    else (until? stops mayEnd rest).map (fun (cs, rest) => (c :: cs, rest))

def trimEnd (cs : List Char) : List Char := (Text.trimStart cs.reverse).reverse

def trim (cs : List Char) : List Char := trimEnd (Text.trimStart cs)

/-- A value: quoted parts, and then the rest of the line without blanks at its ends. Blanks behind a
quoted part stay. The fuel bounds the number of parts. -/
def value? : Nat → Bool → List Char → Option (List Char × List Char)
  | 0, _, _ => none
  | fuel + 1, first, cs =>
    let quoted (quote : Char) (rest : List Char) : Option (List Char × List Char) := do
      let (part, rest) ← until? (· = quote) false rest
      let (more, rest) ← value? fuel false (rest.drop 1)
      return (part ++ more, rest)
    match cs with
    | [] => some ([], [])
    | '"' :: rest => quoted '"' rest
    | '\'' :: rest => quoted '\'' rest
    | cs => do
      let (part, rest) ← until? isLineEnd true cs
      return (if first then trim part else trimEnd part, rest)

/-- What is read so far: the entries outside of sections, the sections, and the name of the open
one. -/
structure Document where
  general : Entries
  sections : List (String × Entries)
  current : Option String

/-- A section that is opened again starts anew. -/
def Document.enter (d : Document) (name : String) : Document :=
  { d with sections := put name [] d.sections, current := some name }

def Document.assign (d : Document) (key : String) (value : String) : Document :=
  match d.current with
  | none => { d with general := put key (.str value) d.general }
  | some name =>
    let entries := (d.sections.lookup name).getD []
    { d with sections := put name (put key (.str value) entries) d.sections }

/-- Sections replace entries of the same name. -/
def Document.entries (d : Document) : Entries :=
  d.sections.foldl (fun done (name, entries) => put name (.table entries) done) d.general

/-- A text that starts a line stands in the first column. -/
def startsLine (before : List Char) : Bool :=
  match before.getLast? with
  | none => true
  | some c => c = '\n'

def isSeparator (c : Char) : Bool := c = '=' || c = ':'

/-- Reads on from an open line or a new one. Every step takes a character at least. -/
def document? : Nat → Bool → Document → List Char → Option Entries
  | 0, _, _, _ => none
  | fuel + 1, fresh, d, cs =>
    let blanks := cs.takeWhile Text.isBlank
    let fresh := if blanks = [] then fresh else startsLine blanks
    match cs.drop blanks.length with
    | [] => some d.entries
    | '[' :: rest => do
      let (name, rest) ← until? (· = ']') false rest
      document? fuel false (d.enter (String.ofList (trim name))) (rest.drop 1)
    | c :: rest =>
      if c = ';' ∨ c = '#' then
        if fresh then
          let rest := rest.dropWhile (· ≠ '\n')
          document? fuel (!rest.isEmpty) d (rest.drop 1)
        else none
      else do
        let (key, rest) ← until? isSeparator false (c :: rest)
        let key := trim key
        if key = [] then none
        let rest := (rest.drop 1).dropWhile (fun c => Text.isBlank c && !isLineEnd c)
        let (value, rest) ← value? (rest.length + 1) true rest
        document? fuel false (d.assign (String.ofList key) (String.ofList value)) rest

/-- The sections of a text, and its entries outside of sections. -/
def read? (text : String) : Option Value :=
  let cs := text.toList
  (document? (cs.length + 1) true ⟨[], [], none⟩ cs).map .table

end WalletBudget.Settings.Ini
