import WalletBudget.Settings.Yaml.Cursor
import WalletBudget.Text.Digits

/-!
Block scalars of YAML: indented lines under a header.

Behind `|` line ends stay, and behind `>` those between two lines that no blank starts fold. The
header may name the indentation, and tells what becomes of the line ends after the last line.
-/

namespace WalletBudget.Settings.Yaml

/-- Of the line ends after the last line, none stays, or the first one, or all of them. -/
inductive Chomping where
  | strip
  | clip
  | keep
  deriving DecidableEq, Repr

structure BlockHeader where
  chomping : Chomping
  increment : Nat
  cursor : Cursor

def chomping? (c : Char) : Option Chomping :=
  if c = '+' then some .keep else if c = '-' then some .strip else none

/-- The digit of an indentation, which is not zero, if one stands here. -/
def increment? (c : Cursor) : Option (Nat × Cursor) :=
  if c.peek.isDigit then
    if c.peek = '0' then none else some (Digits.value c.peek, c.skip 1)
  else some (0, c)

/-- The marks of a header behind its first character, in either order. -/
def blockHeader? (c : Cursor) : Option BlockHeader := do
  match chomping? c.peek with
  | some chomping =>
    let (increment, c) ← increment? (c.skip 1)
    return ⟨chomping, increment, c⟩
  | none =>
    let (increment, c) ← increment? c
    match if increment = 0 then none else chomping? c.peek with
    | some chomping => return ⟨chomping, increment, c.skip 1⟩
    | none => return ⟨.clip, increment, c⟩

/-- Passes over empty lines and over the indentation of the next line, which may be any. Counts the
lines, and keeps the deepest indentation. -/
def firstIndent : Nat → Nat → Nat → Cursor → Nat × Nat × Cursor
  | 0, deepest, breaks, c => (deepest, breaks, c)
  | fuel + 1, deepest, breaks, c =>
    let c := c.skipBlanks (c.rest.takeWhile (· = ' ')).length
    let deepest := max deepest c.column
    if isBreak c.peek then firstIndent fuel deepest (breaks + 1) c.skipBreak
    else (deepest, breaks, c)

/-- Passes over empty lines and over a known indentation. Counts the lines. -/
def skipIndent (indent : Nat) : Nat → Nat → Cursor → Nat × Cursor
  | 0, breaks, c => (breaks, c)
  | fuel + 1, breaks, c =>
    let c := c.skipBlanks ((c.rest.take (indent - c.column)).takeWhile (· = ' ')).length
    if isBreak c.peek then skipIndent indent fuel (breaks + 1) c.skipBreak else (breaks, c)

/-- What is read so far of a block scalar: its characters from the last to the first, whether a line
end was met behind them, how many empty lines follow it, and whether a blank started the last
line. -/
structure Block where
  done : List Char
  broken : Bool
  breaks : Nat
  blank : Bool
  cursor : Cursor

/-- The line ends between the last line and a line that a blank starts or does not. -/
def Block.joint (b : Block) (literal blank : Bool) : List Char :=
  if !literal && b.broken && !b.blank && !blank then
    if b.breaks = 0 then [' '] else List.replicate b.breaks '\n'
  else List.replicate (b.breaks + (if b.broken then 1 else 0)) '\n'

/-- Reads lines of an indentation. -/
def blockLines (literal : Bool) (indent : Nat) : Nat → Block → Block
  | 0, b => b
  | fuel + 1, b =>
    let c := b.cursor
    if c.column ≠ indent ∨ isEnd c.peek ∨ (indent = 0 ∧ c.atMarker '.') then b
    else
      let blank := isBlank c.peek
      let line := c.rest.takeWhile (fun d => !isBreakOrEnd d)
      let done := line.reverse ++ b.joint literal blank ++ b.done
      let c := c.skipBlanks line.length
      if isEnd c.peek then ⟨done, false, 0, blank, c⟩
      else
        let (breaks, c) := skipIndent indent (c.rest.length + 1) 0 c.skipBreak
        blockLines literal indent fuel ⟨done, true, breaks, blank, c⟩

/-- A text of some line ends. -/
def breaksText (n : Nat) : String := String.ofList (List.replicate n '\n')

/-- The text of a scalar without lines. The first line end is the one of the header. -/
def emptyText (chomping : Chomping) (sameLine broken : Bool) (breaks : Nat) : String :=
  let header := breaksText (if broken then 1 else 0)
  match chomping with
  | .strip => ""
  | .clip => if sameLine then "" else header
  | .keep => if sameLine then "" else if breaks = 0 then header else breaksText breaks

/-- The line ends behind the last line. At the end of the text a line that is indented counts as
ended. -/
def tailText (chomping : Chomping) (indent : Nat) (b : Block) : String :=
  let first := if b.broken then 1 else 0
  let last := if isEnd b.cursor.peek ∧ max indent 1 ≤ b.cursor.column then 1 else 0
  match chomping with
  | .strip => ""
  | .clip => breaksText (first + last)
  | .keep => breaksText (first + last + b.breaks)

/-- The text of a block scalar whose first character stands here, and the cursor behind it. -/
def block? (literal : Bool) (indent : Int) (c : Cursor) : Option (String × Cursor) := do
  let header ← blockHeader? (c.skip 1)
  let passed ← header.cursor.toLineEnd? true
  if !isBreakOrEnd passed.cursor.peek then none
  let broken := isBreak passed.cursor.peek
  let body := passed.cursor.skipBreak
  if body.peek = '\t' then none
  let fuel := body.rest.length + 1
  let (depth, breaks, body) :=
    if header.increment = 0 then
      let (deepest, breaks, body) := firstIndent fuel 0 0 body
      let depth := max deepest (indent + 1).toNat
      (if 0 < indent then max depth 1 else depth, breaks, body)
    else
      let depth := (if 0 ≤ indent then indent.toNat else 0) + header.increment
      let (breaks, body) := skipIndent depth fuel 0 body
      (depth, breaks, body)
  if isEnd body.peek then
    return (emptyText header.chomping (body.line = c.line) broken breaks, body)
  if body.column < depth ∧ indent < (body.column : Int) then none
  let b := blockLines literal depth fuel ⟨[], false, breaks, false, body⟩
  return (String.ofList b.done.reverse ++ tailText header.chomping depth b, b.cursor)

end WalletBudget.Settings.Yaml
