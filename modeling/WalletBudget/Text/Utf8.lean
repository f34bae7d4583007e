import WalletBudget.Defect

/-!
Texts by their bytes.

Places in a text are counted in bytes from its front. A part of a text lies between two places, the
first of which comes first, and no character lies across one of them.
-/

namespace WalletBudget.Utf8

/-- How many bytes a text has. -/
def size : List Char → Nat
  | [] => 0
  | c :: rest => c.utf8Size + size rest

/-- The place at which a text first occurs in another. -/
def first? (text : List Char) : List Char → Option Nat
  | [] => if text = [] then some 0 else none
  | c :: rest =>
    if text.isPrefixOf (c :: rest) then some 0 else (first? text rest).map (· + c.utf8Size)

/-- The place at which a character last occurs in a text. -/
def last? (c : Char) : List Char → Option Nat
  | [] => none
  | d :: rest =>
    match last? c rest with
    | some place => some (place + d.utf8Size)
    | none => if d = c then some 0 else none

/-- What stands before a place and behind it, unless a character lies across it. -/
def cut? : Nat → List Char → Option (List Char × List Char)
  | 0, cs => some ([], cs)
  | _ + 1, [] => none
  | place + 1, c :: rest =>
    if c.utf8Size ≤ place + 1 then
      (cut? (place + 1 - c.utf8Size) rest).map (fun (before, behind) => (c :: before, behind))
    else none

/-- The part between two places. -/
def part (start stop : Nat) (cs : List Char) : Except Defect (List Char) :=
  if stop < start then .error .partRange
  else orDefect .partBoundary do
    let (_, behind) ← cut? start cs
    let (inside, _) ← cut? (stop - start) behind
    return inside

end WalletBudget.Utf8
