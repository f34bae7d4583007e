import WalletBudget.Instant.Calendar

/-!
Points in time, counted from 1970-01-01 00:00:00 UTC.

A leap second has no number of its own. It is kept inside the second before it, with a fraction of
one to two seconds, so every later instant is still a whole number of seconds away in the count.
Durations are whole numbers of nanoseconds.
-/

namespace WalletBudget

def nanosPerSecond : Nat := 1000000000

namespace Instant

/-- First and last second of the years −262143 to 262142. -/
def firstSecond : Int := -8334601228800

def lastSecond : Int := 8210266876799

end Instant

structure Instant where
  secs : Int
  nanos : Nat
  first_le : Instant.firstSecond ≤ secs
  le_last : secs ≤ Instant.lastSecond
  nanos_lt : nanos < 2 * nanosPerSecond
  deriving DecidableEq

namespace Instant

def ofParts? (secs : Int) (nanos : Nat) : Option Instant :=
  if h : firstSecond ≤ secs ∧ secs ≤ lastSecond ∧ nanos < 2 * nanosPerSecond then
    some ⟨secs, nanos, h.1, h.2.1, h.2.2⟩
  else none

def isLeap (t : Instant) : Bool := nanosPerSecond ≤ t.nanos

/-- Instants come in the order of their seconds, and within a second of their fractions. -/
def le (a b : Instant) : Bool := a.secs < b.secs || (a.secs = b.secs && a.nanos ≤ b.nanos)

def lt (a b : Instant) : Bool := !le b a

instance : LE Instant := ⟨fun a b => le a b = true⟩

instance : LT Instant := ⟨fun a b => lt a b = true⟩

instance (a b : Instant) : Decidable (a ≤ b) := inferInstanceAs (Decidable (le a b = true))

instance (a b : Instant) : Decidable (a < b) := inferInstanceAs (Decidable (lt a b = true))

def later (a b : Instant) : Instant := if a ≤ b then b else a

def secondOfDay (t : Instant) : Int := t.secs % 86400

/-- Whole seconds of a duration, cut towards zero. -/
def wholeSeconds (duration : Int) : Int := duration.tdiv nanosPerSecond

/-- The duration from `b` to `a`. The leap second that one of them lies in counts when the other
lies on its far side in the day. -/
def since (a b : Instant) : Int :=
  let leap : Int :=
    if b.secondOfDay < a.secondOfDay then (if b.isLeap then 1 else 0)
    else if a.secondOfDay < b.secondOfDay then (if a.isLeap then -1 else 0)
    else 0
  (a.secs - b.secs + leap) * nanosPerSecond + (a.nanos - b.nanos)

/-- The instant a duration later. An instant in a leap second stays in it when the duration is too
short to leave it. Nothing follows the last second that has a date. -/
def add? (t : Instant) (duration : Int) : Option Instant :=
  let whole := wholeSeconds duration
  let part := duration.tmod nanosPerSecond
  let frac : Int := t.nanos
  if t.isLeap ∧ whole = 0 ∧ ¬(0 < part ∧ 2 * (nanosPerSecond : Int) - part ≤ frac) then
    ofParts? t.secs (frac + part).toNat
  else
    let (secs, frac) : Int × Int :=
      if t.isLeap then
        (if 0 < whole ∨ 0 < part then (t.secs, frac - nanosPerSecond)
        else (t.secs + 1, frac - nanosPerSecond))
      else (t.secs, frac)
    let total := (secs + whole) * nanosPerSecond + (frac + part)
    ofParts? (total / nanosPerSecond) (total % nanosPerSecond).toNat

def seconds (n : Int) : Int := n * nanosPerSecond

end Instant

end WalletBudget
