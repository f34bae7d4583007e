import WalletBudget.Instant.Basic
import WalletBudget.Text.Digits

/-!
Instants as text, in UTC. `stamp` is the form of records and `text` the form of messages.

The fraction has 0, 3, 6 or 9 digits, the fewest that are exact. Years that four digits cannot write
have a sign. A leap second is the sixtieth of its minute.
-/

namespace WalletBudget.Instant

def yearChars (year : Int) : List Char :=
  if 0 ≤ year ∧ year ≤ 9999 then Digits.padded 4 year.toNat
  else (if year < 0 then '-' else '+') :: Digits.atLeast 4 year.natAbs

/-- The fraction of a second below one second. -/
def fractionChars (nanos : Nat) : List Char :=
  if nanos = 0 then []
  else if nanos % 1000000 = 0 then '.' :: Digits.padded 3 (nanos / 1000000)
  else if nanos % 1000 = 0 then '.' :: Digits.padded 6 (nanos / 1000)
  else '.' :: Digits.padded 9 nanos

def dateChars (t : Instant) : List Char :=
  let d := Calendar.ofDayNumber (t.secs / 86400)
  yearChars d.year ++ '-' :: Digits.padded 2 d.month ++ '-' :: Digits.padded 2 d.day

def timeChars (t : Instant) : List Char :=
  let s := t.secondOfDay.toNat
  let second := s % 60 + t.nanos / nanosPerSecond
  Digits.padded 2 (s / 3600) ++ ':' :: Digits.padded 2 (s / 60 % 60)
    ++ ':' :: Digits.padded 2 second ++ fractionChars (t.nanos % nanosPerSecond)

def stamp (t : Instant) : String := String.ofList (t.dateChars ++ 'T' :: t.timeChars ++ ['Z'])

def text (t : Instant) : String := String.ofList (t.dateChars ++ ' ' :: t.timeChars) ++ " UTC"

end WalletBudget.Instant
