import WalletBudget.Binary64
import WalletBudget.Record
import WalletBudget.Text.Digits
import WalletBudget.Word

/-!
JSON values as a reader finds them in a text.

A text may stop being JSON in the middle. What was read before stays, and `cut` marks the place, so
that a decoder meets the faults of a text in the order in which they are written. Where a name of an
object was due and there is none, the value that stands there is kept as `unnamed`. Numbers keep
their digits, because a range is checked only where a number is wanted.
-/

namespace WalletBudget

/-- A number as it is written. -/
structure Json.Number where
  negative : Bool
  whole : List Char
  fraction : List Char
  exponent : Option (Bool × List Char)
  deriving DecidableEq, Repr

/-- The leaf `unpaired` is a string with an escaped surrogate that lacks its partner. It may be
passed over, but it is the text of nothing. An `unnamed` value ends the entries of an object, under
an empty name. -/
inductive Json where
  | null
  | bool (value : Bool)
  | num (value : Json.Number)
  | str (value : String)
  | unpaired
  | arr (items : List Json)
  | obj (entries : List (String × Json))
  | unnamed (value : Json)
  | cut
  deriving Repr

namespace Json

inductive Number.Value where
  | whole (value : Int)
  | float (value : Binary64)

namespace Number

def ofInt (n : Int) : Number := ⟨n < 0, Digits.ofNat n.natAbs, [], none⟩

/-- The longest run of digits at the front whose number fits a word, as its number, with the digits
behind it. -/
def significand (n : Nat) : List Char → Nat × List Char
  | [] => (n, [])
  | c :: rest =>
    if 10 * n + Digits.value c ≤ Word.largest64 then significand (10 * n + Digits.value c) rest
    else (n, c :: rest)

/-- The exponent, unless its digits leave the range of 32 bits. -/
def readExponent? (digits : List Char) : Option Nat :=
  let n := Digits.number digits
  if n < 0x80000000 then some n else none

/-- The nearest number of the binary format, as far as the digits that fit a word tell. -/
def float? (x : Number) : Option Binary64 :=
  let (m, dropped) := significand 0 x.whole
  let (m, places) := if dropped = [] then
      let (m', left) := significand m x.fraction
      (m', ((x.fraction.length - left.length : Nat) : Int))
    else
      let (m', left) := significand m x.fraction
      (m', ((x.fraction.length - left.length : Nat) : Int) - dropped.length)
  match x.exponent with
  | none => Binary64.ofParts x.negative m (-places)
  | some (down, digits) =>
    match readExponent? digits with
    | some e => Binary64.ofParts x.negative m (if down then -places - e else -places + e)
    | none => if m ≠ 0 ∧ down = false then none else some ⟨x.negative, 0, -1074⟩

/-- A whole number of 64 bits, signed or not, or else a binary fraction. Nothing is the value of a
number beyond the range of both. Minus zero is a fraction. -/
def value? (x : Number) : Option Value :=
  if x.fraction = [] ∧ x.exponent = none then
    let n := Digits.number x.whole
    if x.negative = false ∧ n ≤ Word.largest64 then some (.whole n)
    else if x.negative ∧ 0 < n ∧ n ≤ 0x8000000000000000 then some (.whole (-(n : Int)))
    else x.float?.map .float
  else x.float?.map .float

end Number

/-- The fault of a value of a kind that is not wanted. Scalars are read before they are refused. -/
def wrongKind : Json → Fault
  | .cut => .malformed
  | .unnamed _ => .malformed
  | .unpaired => .malformed
  | .num n => if n.value?.isSome then .mismatch else .malformed
  | _ => .mismatch

mutual

/-- All scalars of a value, at any depth, are of a kind. -/
def every (p : Json → Bool) : Json → Bool
  | .arr items => everyItem p items
  | .obj entries => everyEntry p entries
  | j => p j

def everyItem (p : Json → Bool) : List Json → Bool
  | [] => true
  | item :: rest => every p item && everyItem p rest

def everyEntry (p : Json → Bool) : List (String × Json) → Bool
  | [] => true
  | (_, value) :: rest => every p value && everyEntry p rest

end

mutual

/-- How many arrays and objects stand inside one another. -/
def depth : Json → Nat
  | .arr items => depthOfItems items + 1
  | .obj entries => depthOfEntries entries + 1
  | _ => 0

def depthOfItems : List Json → Nat
  | [] => 0
  | item :: rest => max (depth item) (depthOfItems rest)

def depthOfEntries : List (String × Json) → Nat
  | [] => 0
  | (_, value) :: rest => max (depth value) (depthOfEntries rest)

end

/-- A value that is kept whole, before it is known what is wanted of it, is no deeper than this. -/
def maxDepth : Nat := 127

/-- The text of the value is JSON to its end. -/
def isWhole (j : Json) : Bool :=
  j.every (fun
    | .cut => false
    | .unnamed _ => false
    | _ => true)

/-- The value can be kept whole: every number is in range, every string is text, and it is not too
deep. -/
def isSound (j : Json) : Bool :=
  j.every (fun scalar => scalar.wrongKind = .mismatch) && j.depth ≤ maxDepth

/-- The first value under a name. -/
def get? (name : String) : Json → Option Json
  | .obj entries => entries.lookup name
  | _ => none

def int (n : Int) : Json := .num (.ofInt n)

def nat (n : Nat) : Json := .int n

def opt {α : Type} (write : α → Json) : Option α → Json
  | none => .null
  | some a => write a

/-- An entry that is left out when there is no value. -/
def entry? {α : Type} (name : String) (write : α → Json) : Option α → List (String × Json)
  | none => []
  | some a => [(name, write a)]

end Json

end WalletBudget
