import WalletBudget.Text.Ascii
import WalletBudget.Text.Hex
import WalletBudget.Text.Digits

/-!
Identifiers of 128 bits and their text.

One form is written: 32 lower-case hexadecimal digits in groups of 8, 4, 4, 4 and 12. Read are also
the digits without hyphens, and the grouped form in braces or behind `urn:uuid:`, with letters of
either case. The size of a text tells its form, and a form that fits the size decides where the
fault of a text is looked for.
-/

namespace WalletBudget

/-- How many identifiers there are. -/
def Uuid.count : Nat := 0x100000000000000000000000000000000

structure Uuid where
  number : Nat
  lt : number < Uuid.count
  deriving DecidableEq

namespace Uuid

/-- The identifier with a number, which wraps. -/
def ofNat (n : Nat) : Uuid := ⟨n % count, Nat.mod_lt _ (by decide)⟩

def groupLengths : List Nat := [8, 4, 4, 4, 12]

def chars (u : Uuid) : List Char :=
  let ds := Hex.padded 32 u.number
  ds.take 8 ++ '-' :: (ds.drop 8).take 4 ++ '-' :: (ds.drop 12).take 4
    ++ '-' :: (ds.drop 16).take 4 ++ '-' :: ds.drop 20

def text (u : Uuid) : String := String.ofList u.chars

inductive ReadFault where
  | length (found : Nat)
  | character (found : Char) (index : Nat)
  | groupCount (found : Nat)
  | groupLength (group expected found : Nat)
  deriving DecidableEq, Repr

def ReadFault.text : ReadFault → String
  | .length found => "invalid length: found " ++ Digits.text found
  | .character found index =>
    "invalid character: found `" ++ String.singleton found ++ "` at " ++ Digits.text index
  | .groupCount found => "invalid group count: expected 5, found " ++ Digits.text found
  | .groupLength group expected found =>
    "invalid group length in group " ++ Digits.text group ++ ": expected " ++ Digits.text expected
      ++ ", found " ++ Digits.text found

def readPlain? (cs : List Char) : Option Uuid :=
  if cs.length = 32 ∧ cs.all Hex.isDigit then some (ofNat (Hex.number cs)) else none

def readGrouped? (cs : List Char) : Option Uuid :=
  let groups := Ascii.split '-' cs
  if groups.map List.length = groupLengths then readPlain? groups.flatten else none

/-- What stands inside braces. -/
def unbraced? : List Char → Option (List Char)
  | '{' :: rest => if rest.getLast? = some '}' then some rest.dropLast else none
  | _ => none

def urnStart : List Char := "urn:uuid:".toList

/-- What follows `urn:uuid:` in letters of any case. -/
def behindUrn? (cs : List Char) : Option (List Char) :=
  (Ascii.strip? urnStart ((cs.take urnStart.length).map Char.toLower)).map
    (fun _ => cs.drop urnStart.length)

/-- The forms that the size of a text in bytes leaves open. -/
inductive Layout where
  | plain (digits : List Char)
  | grouped (groups : List Char)
  | none
  deriving DecidableEq, Repr

def layout (size : Nat) (cs : List Char) : Layout :=
  if size = 32 then .plain cs
  else if size = 36 then .grouped cs
  else if size = 38 then ((unbraced? cs).map .grouped).getD .none
  else if size = 45 then ((behindUrn? cs).map .grouped).getD .none
  else .none

/-- The text between a wrapper, and how far its first character is from the front. -/
def unwrapped? (cs : List Char) : Option (List Char × Nat) :=
  match unbraced? cs with
  | some inner => some (inner, 1)
  | none => (Ascii.strip? urnStart cs).map (fun inner => (inner, urnStart.length))

/-- The first character that is neither a digit nor a hyphen, with its place in bytes. -/
def strayCharacter? (index : Nat) : List Char → Option (Char × Nat)
  | [] => none
  | c :: rest =>
    if c = '-' ∨ Hex.isDigit c then strayCharacter? (index + c.utf8Size) rest else some (c, index)

/-- The first group with a wrong length. The last one is measured to the end of the text. -/
def wrongGroup (size : Nat) (groups : List (List Char)) : ReadFault :=
  match (groups.zip groupLengths).zipIdx.find? (fun ((g, n), i) => i < 4 && g.length ≠ n) with
  | some ((g, n), i) => .groupLength i n g.length
  | none => .groupLength 4 12 (size - 24)

/-- The fault of a text that is looked at from some place on: its characters, then the number of its
groups, then their lengths. -/
def faultFrom (size index : Nat) (cs : List Char) : ReadFault :=
  match strayCharacter? index cs with
  | some (c, i) => .character c i
  | none =>
    let groups := Ascii.split '-' cs
    if groups.length ≠ 5 then .groupCount groups.length else wrongGroup size groups

/-- Why a text of a given size in bytes is no identifier. In a text whose size belongs to a form,
places are counted in the digits and groups of that form. Any other text may have a wrapper, and
its size is at fault if it has neither a wrapper nor a hyphen. -/
def fault (size : Nat) (cs : List Char) : ReadFault :=
  match layout size cs with
  | .plain ds => faultFrom size 0 ds
  | .grouped gs => faultFrom size 0 gs
  | .none =>
    if size = 0 ∨ size > 45 then .length size
    else match unwrapped? cs with
      | some (inner, index) => faultFrom size index inner
      | Option.none =>
        if (strayCharacter? 0 cs).isNone ∧ '-' ∉ cs then .length size else faultFrom size 0 cs

def readLayout? : Layout → Option Uuid
  | .plain ds => readPlain? ds
  | .grouped gs => readGrouped? gs
  | .none => Option.none

def read (s : String) : Except ReadFault Uuid :=
  match readLayout? (layout s.utf8ByteSize s.toList) with
  | some u => .ok u
  | none => .error (fault s.utf8ByteSize s.toList)

end Uuid

end WalletBudget
