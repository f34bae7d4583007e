import WalletBudget.Text.Digits

/-!
Dates and times of TOML: a date, a time of day, or both, then with an offset or without one.

They are kept as a text of one form: `T` between date and time, as many decimal places as are needed
and at most nine, and `Z` or an offset of hours and minutes.
-/

namespace WalletBudget.Settings.Toml

/-- A number of some digits in a range, and what follows it. -/
def fixed? (width least largest : Nat) (cs : List Char) : Option (Nat × List Char) :=
  let ds := cs.take width
  let n := Digits.number ds
  if ds.length = width ∧ ds.all Char.isDigit ∧ least ≤ n ∧ n ≤ largest then
    some (n, cs.drop width)
  else none

def mark? (c : Char) : List Char → Option (List Char)
  | d :: rest => if d = c then some rest else none
  | [] => none

def isLeapYear (year : Nat) : Bool := year % 4 = 0 && (year % 100 ≠ 0 || year % 400 = 0)

def daysIn (year month : Nat) : Nat :=
  match month with
  | 2 => if isLeapYear year then 29 else 28
  | 4 => 30
  | 6 => 30
  | 9 => 30
  | 11 => 30
  | _ => 31

/-- The text of a date, and what follows it. -/
def date? (cs : List Char) : Option (List Char × List Char) := do
  let (year, cs) ← fixed? 4 0 9999 cs
  let (month, cs) ← fixed? 2 1 12 (← mark? '-' cs)
  let (day, cs) ← fixed? 2 1 (daysIn year month) (← mark? '-' cs)
  return (Digits.padded 4 year ++ '-' :: Digits.padded 2 month ++ '-' :: Digits.padded 2 day, cs)

/-- Decimal places behind a point, without zeros at their end. Those behind the ninth are
dropped. -/
def places? (cs : List Char) : Option (List Char × List Char) :=
  match cs with
  | '.' :: rest =>
    let (ds, after) := Digits.span rest
    let kept := ((ds.take 9).reverse.dropWhile (· = '0')).reverse
    if ds = [] then none else some (if kept = [] then [] else '.' :: kept, after)
  | _ => some ([], cs)

/-- The text of a time of day, and what follows it. A minute may have a second 60. -/
def clock? (cs : List Char) : Option (List Char × List Char) := do
  let (hour, cs) ← fixed? 2 0 23 cs
  let (minute, cs) ← fixed? 2 0 59 (← mark? ':' cs)
  let (second, cs) ← fixed? 2 0 60 (← mark? ':' cs)
  let (places, cs) ← places? cs
  return (Digits.padded 2 hour ++ ':' :: Digits.padded 2 minute ++ ':' :: Digits.padded 2 second
    ++ places, cs)

/-- The text of an offset, if there is one, and what follows it. No offset is negative zero. -/
def offset? (cs : List Char) : Option (List Char × List Char) := do
  let amount (sign : Char) (rest : List Char) : Option (List Char × List Char) := do
    let (hour, rest) ← fixed? 2 0 23 rest
    let (minute, rest) ← fixed? 2 0 59 (← mark? ':' rest)
    let sign := if hour = 0 ∧ minute = 0 then '+' else sign
    return (sign :: Digits.padded 2 hour ++ ':' :: Digits.padded 2 minute, rest)
  match cs with
  | 'Z' :: rest => return (['Z'], rest)
  | 'z' :: rest => return (['Z'], rest)
  | '+' :: rest => amount '+' rest
  | '-' :: rest => amount '-' rest
  | _ => return ([], cs)

/-- The time of day and the offset behind a date, if they are there. -/
def behindDate? (cs : List Char) : Option (List Char × List Char) := do
  match cs with
  | c :: rest =>
    if c = 'T' ∨ c = 't' ∨ c = ' ' then
      let (clock, rest) ← clock? rest
      let (offset, rest) ← offset? rest
      return ('T' :: clock ++ offset, rest)
    else none
  | [] => none

/-- The text of a date, a time of day or both, and what follows it. -/
def dateTime? (cs : List Char) : Option (String × List Char) := do
  let (text, rest) ← match date? cs with
    | some (date, rest) =>
      match behindDate? rest with
      | some (time, rest) => some (date ++ time, rest)
      | none => some (date, rest)
    | none => clock? cs
  return (String.ofList text, rest)

end WalletBudget.Settings.Toml
