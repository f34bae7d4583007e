import WalletBudget.Json.Basic
import WalletBudget.Text.Hex

/-!
Reading JSON text.

`readPrefix` takes one value from the front of a text; `read` wants the whole text to be one value
between blanks. Where a text stops being JSON the value holds a `cut`, and nothing is left to read.
-/

namespace WalletBudget.Json

def isBlank (c : Char) : Bool := c = ' ' || c = '\n' || c = '\t' || c = '\r'

def skipBlanks (cs : List Char) : List Char := cs.dropWhile isBlank

def unit? (a b c d : Char) : Option Nat := do
  return 4096 * (← Hex.digit? a) + 256 * (← Hex.digit? b) + 16 * (← Hex.digit? c) + (← Hex.digit? d)

def isHigh (u : Nat) : Bool := 0xD800 ≤ u && u < 0xDC00

def isLow (u : Nat) : Bool := 0xDC00 ≤ u && u < 0xE000

def joined (high low : Nat) : Char :=
  Char.ofNat (0x10000 + (high - 0xD800) * 0x400 + (low - 0xDC00))

def shortEscape? : Char → Option Char
  | '"' => some '"'
  | '\\' => some '\\'
  | '/' => some '/'
  | 'b' => some '\x08'
  | 'f' => some '\x0c'
  | 'n' => some '\n'
  | 'r' => some '\r'
  | 't' => some '\t'
  | _ => none

/-- What a string literal holds after its opening quote: its characters, whether every surrogate
has its partner, and the text behind the closing quote. -/
structure Literal where
  chars : List Char
  paired : Bool
  rest : List Char

def Literal.cons (c : Char) (l : Literal) : Literal := { l with chars := c :: l.chars }

def Literal.broken (l : Literal) : Literal := { l with paired := false }

def readLiteral : List Char → Option Literal
  | [] => none
  | '"' :: rest => some ⟨[], true, rest⟩
  | '\\' :: 'u' :: a :: b :: c :: d :: '\\' :: 'u' :: e :: f :: g :: h :: rest =>
    match unit? a b c d with
    | none => none
    | some u =>
      match unit? e f g h with
      | none => none
      | some v =>
        if isHigh u then
          if isLow v then (readLiteral rest).map (.cons (joined u v))
          else (readLiteral ('\\' :: 'u' :: e :: f :: g :: h :: rest)).map .broken
        else if isLow u then (readLiteral ('\\' :: 'u' :: e :: f :: g :: h :: rest)).map .broken
        else (readLiteral ('\\' :: 'u' :: e :: f :: g :: h :: rest)).map (.cons (Char.ofNat u))
  | '\\' :: 'u' :: a :: b :: c :: d :: rest =>
    match unit? a b c d with
    | none => none
    | some u =>
      if isHigh u || isLow u then (readLiteral rest).map .broken
      else (readLiteral rest).map (.cons (Char.ofNat u))
  | '\\' :: c :: rest =>
    match shortEscape? c with
    | none => none
    | some c => (readLiteral rest).map (.cons c)
  | c :: rest => if c.toNat < 32 || c = '\\' then none else (readLiteral rest).map (.cons c)

/-- A number at the front, if there is one, and what follows it. -/
def readNumber? (cs : List Char) : Option (Number × List Char) := do
  let (negative, cs) := match cs with
    | '-' :: rest => (true, rest)
    | _ => (false, cs)
  let (whole, cs) := Digits.span cs
  if whole = [] ∨ (whole.length > 1 ∧ whole.head? = some '0') then none
  let (fraction, cs) ← match cs with
    | '.' :: rest =>
      let (ds, after) := Digits.span rest
      if ds = [] then none else some (ds, after)
    | _ => some ([], cs)
  let exponentAt (rest : List Char) : Option (Option (Bool × List Char) × List Char) :=
    let (down, rest) := match rest with
      | '-' :: rest => (true, rest)
      | '+' :: rest => (false, rest)
      | _ => (false, rest)
    let (ds, after) := Digits.span rest
    if ds = [] then none else some (some (down, ds), after)
  let (exponent, cs) ← match cs with
    | 'e' :: rest => exponentAt rest
    | 'E' :: rest => exponentAt rest
    | _ => some (none, cs)
  return (⟨negative, whole, fraction, exponent⟩, cs)

/-- A value at the front and the text behind it, unless the text stops being JSON inside. -/
structure Reading (α : Type) where
  value : α
  rest : Option (List Char)

mutual

/-- The fuel bounds the steps; every step but the closing ones takes a character. -/
def readValue : Nat → List Char → Reading Json
  | 0, _ => ⟨.cut, none⟩
  | fuel + 1, cs =>
    match skipBlanks cs with
    | 'n' :: 'u' :: 'l' :: 'l' :: rest => ⟨.null, some rest⟩
    | 't' :: 'r' :: 'u' :: 'e' :: rest => ⟨.bool true, some rest⟩
    | 'f' :: 'a' :: 'l' :: 's' :: 'e' :: rest => ⟨.bool false, some rest⟩
    | '"' :: rest =>
      match readLiteral rest with
      | none => ⟨.cut, none⟩
      | some l => ⟨if l.paired then .str (String.ofList l.chars) else .unpaired, some l.rest⟩
    | '[' :: rest =>
      match skipBlanks rest with
      | ']' :: rest => ⟨.arr [], some rest⟩
      | rest =>
        let r := readItems fuel rest
        ⟨.arr r.value, r.rest⟩
    | '{' :: rest =>
      match skipBlanks rest with
      | '}' :: rest => ⟨.obj [], some rest⟩
      | rest =>
        let r := readEntries fuel rest
        ⟨.obj r.value, r.rest⟩
    | cs =>
      match readNumber? cs with
      | some (n, rest) => ⟨.num n, some rest⟩
      | none => ⟨.cut, none⟩

def readItems : Nat → List Char → Reading (List Json)
  | 0, _ => ⟨[.cut], none⟩
  | fuel + 1, cs =>
    match readValue fuel cs with
    | ⟨item, none⟩ => ⟨[item], none⟩
    | ⟨item, some rest⟩ =>
      match skipBlanks rest with
      | ']' :: rest => ⟨[item], some rest⟩
      | ',' :: rest =>
        let r := readItems fuel rest
        ⟨item :: r.value, r.rest⟩
      | _ => ⟨[item, .cut], none⟩

def readEntries : Nat → List Char → Reading (List (String × Json))
  | 0, _ => ⟨[("", .unnamed .cut)], none⟩
  | fuel + 1, cs =>
    match skipBlanks cs with
    | '"' :: rest =>
      match readLiteral rest with
      | none => ⟨[("", .unnamed .cut)], none⟩
      | some l =>
        if l.paired then
          let name := String.ofList l.chars
          match skipBlanks l.rest with
          | ':' :: rest =>
            match readValue fuel rest with
            | ⟨value, none⟩ => ⟨[(name, value)], none⟩
            | ⟨value, some rest⟩ =>
              match skipBlanks rest with
              | '}' :: rest => ⟨[(name, value)], some rest⟩
              | ',' :: rest =>
                let r := readEntries fuel rest
                ⟨(name, value) :: r.value, r.rest⟩
              | _ => ⟨[(name, value), ("", .unnamed .cut)], none⟩
          | _ => ⟨[(name, .cut)], none⟩
        else ⟨[("", .unnamed .unpaired)], none⟩
    | cs => ⟨[("", .unnamed (readValue fuel cs).value)], none⟩

end

/-- A value at the front of a text. What follows it is not looked at. -/
def readPrefix (text : String) : Reading Json :=
  let cs := text.toList
  readValue (2 * cs.length + 2) cs

/-- A text that is one value between blanks. Other text behind the value is a fault that `decode`
finds after all faults of the value. -/
def readAll (text : String) : Json × Bool :=
  let r := readPrefix text
  match r.rest with
  | none => (r.value, true)
  | some rest => (r.value, (skipBlanks rest).isEmpty)

/-- The value of a text that is JSON, and nothing for any other text. -/
def read? (text : String) : Option Json :=
  match readPrefix text with
  | ⟨value, some rest⟩ => if (skipBlanks rest).isEmpty then some value else none
  | ⟨_, none⟩ => none

/-- What a text stands for to a decoder. Text behind the value is a fault. -/
def decode {α : Type} (decoder : Json → Except Fault α) (text : String) : Except Fault α := do
  let (value, closed) := readAll text
  let a ← decoder value
  if closed then return a else throw .malformed

/-- What the front of a text stands for to a decoder, whatever follows. -/
def decodePrefix {α : Type} (decoder : Json → Except Fault α) (text : String) : Except Fault α :=
  decoder (readPrefix text).value

end WalletBudget.Json
