import WalletBudget.Settings.Yaml.Cursor

/-!
Plain scalars of YAML: text without quotes.

A plain scalar ends in front of a colon with a gap behind it, of a comment, or of a line that is
indented less. Line ends inside fold as in quoted scalars. In a flow collection the characters that
structure it end a plain scalar too.
-/

namespace WalletBudget.Settings.Yaml

/-- A character ends a plain scalar together with the one behind it. -/
def endsPlain (inFlow : Bool) (c next : Char) : Bool :=
  isGap c || (c = ':' && (isGap next || (inFlow && isFlow next))) || (inFlow && isFlow c)

/-- The number of characters up to the first one that ends a plain scalar. -/
def plainLength (inFlow : Bool) : List Char → Nat
  | [] => 0
  | c :: rest =>
    if endsPlain inFlow c (rest.headD '\x00') then 0 else plainLength inFlow rest + 1

/-- Blanks and line ends between two parts of a plain scalar: the blanks of the first line, whether
a line end was met, and how many of them after the first one. -/
structure PlainGap where
  blanks : List Char
  first : Bool
  breaks : Nat

/-- Passes over blanks and line ends. A line in which a tab indents holds nothing else. -/
def plainGap? (indent : Int) : Nat → PlainGap → Cursor → Option (PlainGap × Cursor)
  | 0, _, _ => none
  | fuel + 1, g, c =>
    let d := c.peek
    if isBlank d then
      if c.leading = false then
        plainGap? indent fuel { g with blanks := d :: g.blanks } (c.skipBlanks 1)
      else if (c.column : Int) < indent ∧ d = '\t' then do
        let passed ← c.toLineEnd? true
        if isBreakOrEnd passed.cursor.peek then plainGap? indent fuel g passed.cursor else none
      else plainGap? indent fuel g (c.skipBlanks 1)
    else if isBreak d then
      if c.leading then plainGap? indent fuel { g with breaks := g.breaks + 1 } c.skipBreak
      else plainGap? indent fuel { g with blanks := [], first := true } c.skipBreak
    else some (g, c)

/-- The characters of a gap, from the last to the first, in front of a part that starts a line or
does not. -/
def PlainGap.folded (g : PlainGap) (leading : Bool) : List Char :=
  if leading then
    if g.first ∧ g.breaks = 0 then [' '] else List.replicate g.breaks '\n'
  else g.blanks

/-- Reads on behind a gap, with the characters read so far from the last to the first. -/
def plainBody? (inFlow : Bool) (indent : Int) :
    Nat → List Char → PlainGap → Cursor → Option (List Char × Cursor)
  | 0, _, _, _ => none
  | fuel + 1, done, g, c =>
    if c.atDocumentMarker ∨ c.peek = '#' then some (done.reverse, c)
    else if inFlow ∧ c.peek = '-' ∧ isFlow (c.peekAt 1) then none
    else
      let n := plainLength inFlow c.rest
      if n = 0 then some (done.reverse, c)
      else do
        let done := (c.rest.take n).reverse ++ g.folded c.leading ++ done
        let c := c.skip n
        if !(isBlank c.peek || isBreak c.peek) then return (done.reverse, c)
        let (g, c) ← plainGap? indent (c.rest.length + 1) ⟨[], false, 0⟩ c
        if inFlow = false ∧ (c.column : Int) < indent then return (done.reverse, c)
        plainBody? inFlow indent fuel done g c

/-- The text of a plain scalar that starts here, and the cursor behind it. -/
def plain? (inFlow : Bool) (indent : Int) (c : Cursor) : Option (String × Cursor) := do
  if inFlow ∧ (c.column : Int) < indent then none
  let (text, c) ← plainBody? inFlow indent (c.rest.length + 1) [] ⟨[], false, 0⟩ c
  if text = [] then none else some (String.ofList text, c)

end WalletBudget.Settings.Yaml
