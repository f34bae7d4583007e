import WalletBudget.Instant.Basic
import WalletBudget.Text.Blank
import WalletBudget.Text.Digits

/-!
Reading instants, which always name their offset from UTC.

The strict form has fixed positions: `2024-05-01T08:00:00.5+02:00`. It is checked from left to right
and answers with the first fault. The loose form, in which records are read, has numbers of any
width up to their own, blanks around them, and signed years.
-/

namespace WalletBudget.Instant

inductive ReadFault where
  | premature
  | invalid
  | outOfRange
  | trailing
  deriving DecidableEq, Repr

def ReadFault.text : ReadFault → String
  | .premature => "premature end of input"
  | .invalid => "input contains invalid characters"
  | .outOfRange => "input is out of range"
  | .trailing => "trailing input"

/-- A digit at a fixed position, and the text behind it. -/
def digit : List Char → Except ReadFault (Nat × List Char)
  | c :: rest => if c.isDigit then .ok (Digits.value c, rest) else .error .invalid
  | [] => .error .invalid

def twoDigits (cs : List Char) : Except ReadFault (Nat × List Char) := do
  let (a, cs) ← digit cs
  let (b, cs) ← digit cs
  return (10 * a + b, cs)

def fourDigits (cs : List Char) : Except ReadFault (Nat × List Char) := do
  let (a, cs) ← twoDigits cs
  let (b, cs) ← twoDigits cs
  return (100 * a + b, cs)

def mark (accept : Char → Bool) : List Char → Except ReadFault (List Char)
  | c :: rest => if accept c then .ok rest else .error .invalid
  | [] => .error .premature

/-- The digits of a fraction as nanoseconds. Digits after the ninth count for nothing. -/
def fraction (cs : List Char) : Except ReadFault (Nat × List Char) :=
  match Digits.span cs with
  | ([], []) => .error .premature
  | ([], _) => .error .invalid
  | (ds, rest) =>
    let first := ds.take 9
    .ok (Digits.number first * Nat.pow 10 (9 - first.length), rest)

/-- Two digits of an offset. What is too short to hold them is told from what holds others. -/
def offsetDigits : List Char → Except ReadFault (Nat × List Char)
  | [] => .error .premature
  | [c] => if c.toNat < 128 then .error .premature else .error .invalid
  | a :: b :: rest =>
    if a.isDigit ∧ b.isDigit then .ok (10 * Digits.value a + Digits.value b, rest)
    else .error .invalid

/-- An offset from UTC in seconds. The separator of hours and minutes is given. -/
def offset (separator : List Char → Except ReadFault (List Char)) :
    List Char → Except ReadFault (Int × List Char)
  | [] => .error .premature
  | c :: rest =>
    if c = 'Z' ∨ c = 'z' then .ok (0, rest)
    else if c = '+' ∨ c = '-' ∨ c = '\u2212' then do
      let (hours, rest) ← offsetDigits rest
      let rest ← separator rest
      let (minutes, rest) ← offsetDigits rest
      if minutes ≥ 60 then throw .outOfRange
      let seconds : Int := hours * 3600 + minutes * 60
      return (if c = '+' then seconds else -seconds, rest)
    else .error .invalid

/-- Whether the parts are a time of day. Second 60 is allowed in every minute. -/
def timeInRange (hour minute second : Nat) : Bool := hour < 24 && minute < 60 && second ≤ 60

/-- The instant of a local date and time at an offset. -/
def ofLocal? (date : Calendar.Date) (hour minute second nanos : Nat) (east : Int) :
    Option Instant := do
  let (second, nanos) := if second = 60 then (59, nanos + nanosPerSecond) else (second, nanos)
  let wall : Int := Calendar.dayNumber date * 86400 + hour * 3600 + minute * 60 + second
  let t ← ofParts? wall nanos
  ofParts? (t.secs - east) nanos

def whenOutOfRange {α : Type} : Option α → Except ReadFault α
  | some a => .ok a
  | none => .error .outOfRange

/-- The date is checked as soon as it is read, the time of day behind its fraction, and the size of
the offset last. -/
def readStrict (s : String) : Except ReadFault Instant := do
  if s.utf8ByteSize < 19 then throw .premature
  let fixed (c : Char) (cs : List Char) : Except ReadFault (List Char) :=
    match mark (· = c) cs with
    | .error _ => .error .invalid
    | ok => ok
  let (year, cs) ← fourDigits s.toList
  let cs ← fixed '-' cs
  let (month, cs) ← twoDigits cs
  let cs ← fixed '-' cs
  let (day, cs) ← twoDigits cs
  let date : Calendar.Date := ⟨year, month, day⟩
  if !date.valid then throw .outOfRange
  let cs ← mark (fun c => c = 'T' || c = 't' || c = ' ') cs
  let (hour, cs) ← twoDigits cs
  let cs ← fixed ':' cs
  let (minute, cs) ← twoDigits cs
  let cs ← fixed ':' cs
  let (second, cs) ← twoDigits cs
  let (nanos, cs) ← match cs with
    | '.' :: rest => fraction rest
    | _ => .ok (0, cs)
  if !timeInRange hour minute second then throw .outOfRange
  let (east, cs) ← offset (mark (· = ':')) cs
  if cs ≠ [] then throw .trailing
  if east.natAbs ≥ 86400 then throw .outOfRange
  whenOutOfRange (ofLocal? date hour minute second nanos east)

/-- Blanks, then a number of at most `width` digits. -/
def looseNumber (width : Nat) (cs : List Char) : Option (Nat × List Char) :=
  let cs := Text.trimStart cs
  let ds := (cs.take width).takeWhile Char.isDigit
  if ds = [] then none else some (Digits.number ds, cs.drop ds.length)

/-- A year has four digits at most unless it has a sign. -/
def looseYear (cs : List Char) : Option (Int × List Char) :=
  match Text.trimStart cs with
  | '-' :: rest =>
    let (ds, rest) := Digits.span rest
    if ds = [] then none else some (-(Digits.number ds : Int), rest)
  | '+' :: rest =>
    let (ds, rest) := Digits.span rest
    if ds = [] then none else some (Digits.number ds, rest)
  | cs => (looseNumber 4 cs).map (fun (n, rest) => ((n : Int), rest))

def looseMark (c : Char) (cs : List Char) : Option (List Char) :=
  match Text.trimStart cs with
  | d :: rest => if c = d then some rest else none
  | [] => none

def looseSeparator (cs : List Char) : Except ReadFault (List Char) :=
  .ok (cs.dropWhile (fun c => c = ':' || Text.isBlank c))

def looseOffset (cs : List Char) : Option (Int × List Char) :=
  match Text.trimStart cs with
  | a :: b :: c :: rest =>
    if a.toLower = 'u' ∧ b.toLower = 't' ∧ c.toLower = 'c' then some (0, rest)
    else (offset looseSeparator (a :: b :: c :: rest)).toOption
  | cs => (offset looseSeparator cs).toOption

def readLoose? (s : String) : Option Instant := do
  let (year, cs) ← looseYear s.toList
  let cs ← looseMark '-' cs
  let (month, cs) ← looseNumber 2 cs
  let cs ← looseMark '-' cs
  let (day, cs) ← looseNumber 2 cs
  let date : Calendar.Date := ⟨year, month, day⟩
  if !date.valid then none
  let cs ← (mark (fun c => c = 'T' || c = 't' || c = ' ') cs).toOption
  let (hour, cs) ← looseNumber 2 cs
  let cs ← looseMark ':' cs
  let (minute, cs) ← looseNumber 2 cs
  let cs ← looseMark ':' cs
  let (second, cs) ← looseNumber 2 cs
  let (nanos, cs) ← match cs with
    | '.' :: rest => (fraction rest).toOption
    | _ => some (0, cs)
  if !timeInRange hour minute second then none
  let (east, cs) ← looseOffset cs
  if Text.trimStart cs ≠ [] ∨ east.natAbs ≥ 86400 then none
  ofLocal? date hour minute second nanos east

end WalletBudget.Instant
