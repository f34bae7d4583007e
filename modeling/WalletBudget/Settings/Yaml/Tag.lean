import WalletBudget.Settings.Yaml.Cursor

/-!
Tags, anchors and directives of YAML.

A tag is a handle and a suffix: `!suffix`, `!!suffix`, `!handle!suffix`, or `!<suffix>` as a whole.
A directive names the version of the format, or declares a handle. Other directives count for
nothing.
-/

namespace WalletBudget.Settings.Yaml

structure Tag where
  handle : String
  suffix : String
  deriving DecidableEq, Repr

def isUriChar (c : Char) : Bool :=
  c.isAlphanum || "-#;/?:@&=+$,_.!~*'()[]%".toList.contains c

def isTagChar (c : Char) : Bool := isUriChar c && !isFlow c && c ≠ '!'

/-- How many bytes an encoded character has that starts with a byte. -/
def widthOf? (byte : Nat) : Option Nat :=
  if byte < 0x80 then some 1
  else if byte < 0xC0 then none
  else if byte < 0xE0 then some 2
  else if byte < 0xF0 then some 3
  else if byte < 0xF8 then some 4
  else none

/-- The byte of an escape that stands here. -/
def escapedByte? (c : Cursor) : Option Nat := do
  if c.peek ≠ '%' then none
  return 16 * (← Hex.digit? (c.peekAt 1)) + (← Hex.digit? (c.peekAt 2))

/-- Further bytes of an escaped character behind the number that its first bytes are. -/
def escapedRest? : Nat → Nat → Cursor → Option (Nat × Cursor)
  | 0, code, c => some (code, c)
  | count + 1, code, c => do
    let byte ← escapedByte? c
    if byte / 64 ≠ 2 then none
    escapedRest? count (256 * code + byte) (c.skip 3)

/-- The character that the bytes of an escape are as one number. -/
def escaped? (c : Cursor) : Option (Char × Cursor) := do
  let byte ← escapedByte? c
  let (code, c) ← escapedRest? ((← widthOf? byte) - 1) byte (c.skip 3)
  if code < 0xD800 ∨ (0xDFFF < code ∧ code < 0x110000) then return (Char.ofNat code, c) else none

/-- Characters of a kind with their escapes read, and the cursor behind them. -/
def uri? (accepts : Char → Bool) : Nat → Cursor → Option (List Char × Cursor)
  | 0, _ => none
  | fuel + 1, c =>
    if !accepts c.peek then some ([], c)
    else do
      let (d, c) ← if c.peek = '%' then escaped? c else some (c.peek, c.skip 1)
      let (ds, c) ← uri? accepts fuel c
      return (d :: ds, c)

/-- A handle: an exclamation mark, a word, and perhaps another mark. The handle that a directive
declares ends with a mark. -/
def handle? (declared : Bool) (c : Cursor) : Option (List Char × Cursor) :=
  if c.peek ≠ '!' then none
  else
    let c := c.skip 1
    let word := c.rest.takeWhile isWord
    let c := c.skip word.length
    if c.peek = '!' then some ('!' :: word ++ ['!'], c.skip 1)
    else if declared ∧ word ≠ [] then none
    else some ('!' :: word, c)

/-- The suffix of a tag behind a handle, or the whole of a tag without one. -/
def suffixed? (c : Cursor) : Option (Tag × Cursor) := do
  let (handle, c) ← handle? false c
  let (suffix, c) ← uri? isTagChar (c.rest.length + 1) c
  if 2 ≤ handle.length ∧ handle.getLast? = some '!' then
    if suffix = [] then none
    return (⟨String.ofList handle, String.ofList suffix⟩, c)
  else
    match handle.drop 1 ++ suffix with
    | [] => return (⟨"", "!"⟩, c)
    | suffix => return (⟨"!", String.ofList suffix⟩, c)

/-- The suffix of a tag between angle brackets. -/
def verbatim? (c : Cursor) : Option (Tag × Cursor) := do
  let (suffix, c) ← uri? isUriChar (c.rest.length + 1) (c.skip 2)
  if c.peek = '>' then return (⟨"", String.ofList suffix⟩, c.skip 1) else none

/-- The tag that stands here, with a gap behind it, and the cursor behind it. -/
def tag? (inFlow : Bool) (c : Cursor) : Option (Tag × Cursor) := do
  let (tag, c) ← if c.peekAt 1 = '<' then verbatim? c else suffixed? c
  if isGap c.peek ∨ (inFlow ∧ isFlow c.peek) then return (tag, c) else none

/-- The name of an anchor or an alias behind its mark, and the cursor behind it. -/
def anchorName? (c : Cursor) : Option (String × Cursor) :=
  let c := c.skip 1
  let name := c.rest.takeWhile (fun d => !isGap d && !isFlow d && d ≠ '\uFEFF')
  if name = [] then none else some (String.ofList name, c.skip name.length)

inductive Directive where
  | version
  | declares (handle pre : String)
  deriving DecidableEq, Repr

/-- The digits of a version number, of which there are at most nine. -/
def versionNumber? (c : Cursor) : Option Cursor :=
  let ds := c.rest.takeWhile Char.isDigit
  if ds = [] ∨ 9 < ds.length then none else some (c.skip ds.length)

def skipGapBlanks (c : Cursor) : Cursor := c.skipBlanks (c.rest.takeWhile isBlank).length

def version? (c : Cursor) : Option (Directive × Cursor) := do
  let c ← versionNumber? (skipGapBlanks c)
  if c.peek ≠ '.' then none
  return (.version, ← versionNumber? (c.skip 1))

/-- What a declared handle stands for. It may start with an exclamation mark. -/
def declared? (c : Cursor) : Option (List Char × Cursor) := do
  let (first, c) ←
    if c.peek = '!' then some ('!', c.skip 1)
    else if !isTagChar c.peek then none
    else if c.peek = '%' then escaped? c
    else some (c.peek, c.skip 1)
  let (more, c) ← uri? isUriChar (c.rest.length + 1) c
  return (first :: more, c)

def declaration? (c : Cursor) : Option (Directive × Cursor) := do
  let (handle, c) ← handle? true (skipGapBlanks c)
  let (pre, c) ← declared? (skipGapBlanks c)
  if isGap c.peek then return (.declares (String.ofList handle) (String.ofList pre), c) else none

/-- The directive that stands here, and the cursor on the next line. One that is not known declares
the empty handle. -/
def directive? (c : Cursor) : Option (Directive × Cursor) := do
  let c := c.skip 1
  let name := c.rest.takeWhile isWord
  let c := c.skip name.length
  if name = [] ∨ !isGap c.peek then none
  let (directive, c) ← match String.ofList name with
    | "YAML" => version? c
    | "TAG" => declaration? c
    | _ => some (.declares "" "", c.skipWhile (fun d => !isBreakOrEnd d))
  let passed ← c.toLineEnd? true
  if isBreakOrEnd passed.cursor.peek then return (directive, passed.cursor.skipBreak) else none

end WalletBudget.Settings.Yaml
