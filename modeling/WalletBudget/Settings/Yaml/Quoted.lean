import WalletBudget.Settings.Yaml.Cursor

/-!
Quoted scalars of YAML.

Line ends inside fold: one becomes a space, and of several all but the first stay. Blanks around
them do not count. Between apostrophes an apostrophe is written twice; between quotation marks a
reverse solidus escapes a character, or a line end.
-/

namespace WalletBudget.Settings.Yaml

/-- The character that an escape of one character stands for. -/
def shortEscape? : Char → Option Char
  | '0' => some '\x00'
  | 'a' => some '\x07'
  | 'b' => some '\x08'
  | 't' => some '\t'
  | '\t' => some '\t'
  | 'n' => some '\n'
  | 'v' => some '\x0b'
  | 'f' => some '\x0c'
  | 'r' => some '\r'
  | 'e' => some '\x1b'
  | ' ' => some ' '
  | '"' => some '"'
  | '/' => some '/'
  | '\\' => some '\\'
  | 'N' => some '\u0085'
  | '_' => some '\u00A0'
  | 'L' => some '\u2028'
  | 'P' => some '\u2029'
  | _ => none

/-- How many hexadecimal digits follow a letter. -/
def escapeWidth? : Char → Option Nat
  | 'x' => some 2
  | 'u' => some 4
  | 'U' => some 8
  | _ => none

/-- The character of an escape that starts here, and the cursor behind it. -/
def escape? (c : Cursor) : Option (Char × Cursor) :=
  match escapeWidth? (c.peekAt 1) with
  | none => (shortEscape? (c.peekAt 1)).map (fun d => (d, c.skip 2))
  | some width =>
    let ds := (c.rest.drop 2).take width
    let n := Hex.number ds
    if ds.length = width ∧ ds.all Hex.isDigit ∧ (n < 0xD800 ∨ (0xDFFF < n ∧ n < 0x110000)) then
      some (Char.ofNat n, c.skip (2 + width))
    else none

/-- What is read so far of a quoted scalar: its characters from the last to the first, and where it
stands. -/
structure Quoting where
  done : List Char
  cursor : Cursor

/-- Reads up to a blank, a line end or the closing quote. The flag tells whether an escaped line end
was met last. The fuel bounds the characters. -/
def solid? (single : Bool) : Nat → Quoting → Option (Quoting × Bool)
  | 0, _ => none
  | fuel + 1, q =>
    let c := q.cursor
    let d := c.peek
    if isGap d then some (q, false)
    else if single then
      if d = '\'' then
        if c.peekAt 1 = '\'' then solid? single fuel ⟨'\'' :: q.done, c.skip 2⟩
        else some (q, false)
      else solid? single fuel ⟨d :: q.done, c.skip 1⟩
    else if d = '"' then some (q, false)
    else if d = '\\' then
      if isBreak (c.peekAt 1) then some (⟨q.done, (c.skip 1).skipBreak⟩, true)
      else do
        let (e, c) ← escape? c
        solid? single fuel ⟨e :: q.done, c⟩
    else solid? single fuel ⟨d :: q.done, c.skip 1⟩

/-- Blanks and line ends between two solid parts: the blanks of the first line, whether a line end
was met, and how many of them after the first one. -/
structure Gap where
  blanks : List Char
  broken : Bool
  first : Bool
  breaks : Nat

/-- Passes over blanks and line ends. A tab does not indent a line. -/
def gap? (indent : Int) : Nat → Gap → Cursor → Option (Gap × Cursor)
  | 0, _, _ => none
  | fuel + 1, g, c =>
    let d := c.peek
    if isBlank d then
      if g.broken then
        if d = '\t' ∧ (c.column : Int) < indent then none else gap? indent fuel g (c.skipBlanks 1)
      else gap? indent fuel { g with blanks := d :: g.blanks } (c.skipBlanks 1)
    else if isBreak d then
      if g.broken then gap? indent fuel { g with breaks := g.breaks + 1 } c.skipBreak
      else gap? indent fuel { g with blanks := [], broken := true, first := true } c.skipBreak
    else some (g, c)

/-- The characters of a gap, from the last to the first. -/
def Gap.folded (g : Gap) : List Char :=
  if g.broken then
    if g.first ∧ g.breaks = 0 then [' '] else List.replicate g.breaks '\n'
  else g.blanks

/-- Reads on up to the closing quote. The lines of a scalar are indented like what is around it. -/
def quotedBody? (single : Bool) (indent : Int) : Nat → Quoting → Option (List Char × Cursor)
  | 0, _ => none
  | fuel + 1, q => do
    let c := q.cursor
    if c.atDocumentMarker ∨ isEnd c.peek ∨ (c.column : Int) < indent then none
    let (q, escaped) ← solid? single (c.rest.length + 1) q
    let quote := if single then '\'' else '"'
    if q.cursor.peek = quote then return (q.done.reverse, q.cursor.skip 1)
    let (g, c) ← gap? indent (q.cursor.rest.length + 1) ⟨[], escaped, false, 0⟩ q.cursor
    quotedBody? single indent fuel ⟨g.folded ++ q.done, c⟩

/-- What may follow a quoted scalar on its last line. -/
def mayFollow (inFlow sameLine : Bool) (d : Char) : Bool :=
  isBreakOrEnd d || (inFlow && (d = ',' || d = '\x7d' || d = ']' || d = ':'))
    || (!inFlow && sameLine && d = ':')

/-- The text of a quoted scalar that starts here, and the cursor behind it and the blanks and the
comment that follow it. -/
def quoted? (single inFlow : Bool) (indent : Int) (c : Cursor) : Option (String × Cursor) := do
  let (text, after) ← quotedBody? single indent (c.rest.length + 1) ⟨[], c.skip 1⟩
  let passed ← after.toLineEnd? true
  if mayFollow inFlow (c.line = passed.cursor.line) passed.cursor.peek then
    return (String.ofList text, passed.cursor)
  else none

end WalletBudget.Settings.Yaml
