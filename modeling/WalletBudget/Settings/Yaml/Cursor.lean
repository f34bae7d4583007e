import WalletBudget.Text.Hex

/-!
Places in a YAML text, and moves over blanks, comments and line ends.

A cursor is the rest of a text together with the place where it begins. Behind the end a text goes
on with the character zero, which therefore also ends a text.
-/

namespace WalletBudget.Settings.Yaml

/-! ### Characters -/

def isEnd (c : Char) : Bool := c = '\x00'

def isBreak (c : Char) : Bool := c = '\n' || c = '\r'

def isBlank (c : Char) : Bool := c = ' ' || c = '\t'

def isBreakOrEnd (c : Char) : Bool := isBreak c || isEnd c

def isGap (c : Char) : Bool := isBlank c || isBreakOrEnd c

/-- Characters that structure flow collections. -/
def isFlow (c : Char) : Bool := c = ',' || c = '[' || c = ']' || c = '\x7b' || c = '\x7d'

/-- Characters of handles, directives and words in general. -/
def isWord (c : Char) : Bool := c.isAlphanum || c = '_' || c = '-'

/-! ### Cursors -/

/-- The flag `leading` says that nothing but blanks was met since the line began. -/
structure Cursor where
  rest : List Char
  index : Nat
  line : Nat
  column : Nat
  leading : Bool
  deriving Repr

namespace Cursor

def start (cs : List Char) : Cursor := ⟨cs, 0, 1, 0, true⟩

def peek (c : Cursor) : Char := c.rest.headD '\x00'

def peekAt (c : Cursor) (n : Nat) : Char := c.rest.getD n '\x00'

/-- Goes on by some blanks. -/
def skipBlanks (c : Cursor) (n : Nat) : Cursor :=
  { c with rest := c.rest.drop n, index := c.index + n, column := c.column + n }

/-- Goes on by some other characters. -/
def skip (c : Cursor) (n : Nat) : Cursor := { c.skipBlanks n with leading := false }

/-- Goes to the next line, if a line end stands here. -/
def skipBreak (c : Cursor) : Cursor :=
  let next (n : Nat) : Cursor := ⟨c.rest.drop n, c.index + n, c.line + 1, 0, true⟩
  match c.rest with
  | '\r' :: '\n' :: _ => next 2
  | '\r' :: _ => next 1
  | '\n' :: _ => next 1
  | _ => c

/-- Goes on while characters are of a kind. -/
def skipWhile (c : Cursor) (p : Char → Bool) : Cursor := c.skip (c.rest.takeWhile p).length

/-- Goes to the end of the line, over a comment. -/
def skipComment (c : Cursor) : Cursor := c.skipWhile (fun d => !isBreakOrEnd d)

/-- Three times a character, and a gap behind, at the front of a line. -/
def atMarker (c : Cursor) (mark : Char) : Bool :=
  c.column = 0 && c.peek = mark && c.peekAt 1 = mark && c.peekAt 2 = mark && isGap (c.peekAt 3)

def atDocumentMarker (c : Cursor) : Bool := c.atMarker '-' || c.atMarker '.'

/-- What was passed over on the way to the end of a line: whether tabs, and whether spaces. -/
structure Passed where
  tabs : Bool
  spaces : Bool
  cursor : Cursor

/-- Passes over spaces, tabs if they are allowed, and a comment, which needs a blank in front. -/
def toLineEnd? (c : Cursor) (tabs : Bool) : Option Passed :=
  let blanks := c.rest.takeWhile (fun d => d = ' ' || (tabs && d = '\t'))
  let after := c.skipBlanks blanks.length
  if after.peek = '#' then
    if blanks = [] then none
    else some ⟨'\t' ∈ blanks, ' ' ∈ blanks, after.skipComment⟩
  else some ⟨'\t' ∈ blanks, ' ' ∈ blanks, after⟩

end Cursor

end WalletBudget.Settings.Yaml
