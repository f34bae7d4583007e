import WalletBudget.Settings.Yaml.Block
import WalletBudget.Settings.Yaml.Plain
import WalletBudget.Settings.Yaml.Quoted
import WalletBudget.Settings.Yaml.Tag

/-!
Tokens of YAML.

Indentation becomes tokens too: a block starts where something is indented more than what is around
it, and ends where something is indented less. A colon tells only afterwards that what stands in
front of it is a key, so the token of a key is put in front of tokens that are there already. The
same holds for the start of a block of keys, and for the start of a single entry of a flow sequence.
-/

namespace WalletBudget.Settings.Yaml

inductive Token where
  | directive (directive : Directive)
  | documentStart
  | documentEnd
  | streamEnd
  | sequenceStart
  | mappingStart
  | blockEnd
  | flowSequenceStart
  | flowSequenceEnd
  | flowMappingStart
  | flowMappingEnd
  | item
  | comma
  | key
  | value
  | alias (name : String)
  | anchor (name : String)
  | tag (tag : Tag)
  | scalar (plain : Bool) (text : String)
  deriving DecidableEq, Repr

/-- What may turn out to be a key: the number of its first token, and where it starts. A required
one has to turn out so. -/
structure KeyStart where
  possible : Bool
  required : Bool
  token : Nat
  index : Nat
  line : Nat
  column : Nat

def KeyStart.none : KeyStart := ⟨false, false, 0, 0, 0, 0⟩

/-- An indentation that was left, to come back to. Not every one was left for a block. -/
structure Indent where
  before : Int
  isBlock : Bool

/-- A text while it is cut into tokens. Each flow collection around the cursor, and the block around
all of them, has a start of a key. Each flow sequence knows whether it is inside a single entry of a
mapping. -/
structure Lexer where
  cursor : Cursor
  tokens : Array (Token × Nat)
  adjacent : Nat
  keyAllowed : Bool
  keys : List KeyStart
  indent : Int
  indents : List Indent
  flow : Nat
  mappingOpen : Bool
  single : List Bool

namespace Lexer

def start (text : List Char) : Lexer :=
  ⟨.start text, #[], 0, true, [.none], -1, [], 0, false, []⟩

def inFlow (l : Lexer) : Bool := 0 < l.flow

/-- Adds a token that starts in a column. -/
def push (l : Lexer) (token : Token) (column : Nat) : Lexer :=
  { l with tokens := l.tokens.push (token, column) }

/-- Adds a token in front of a token with some number. -/
def insert (l : Lexer) (place : Nat) (token : Token) (column : Nat) : Lexer :=
  { l with tokens := l.tokens.insertIdxIfInBounds place (token, column) }

/-! ### Keys -/

/-- What starts here may turn out to be a key, where keys are allowed. -/
def saveKey (l : Lexer) : Lexer :=
  if l.keyAllowed then
    let c := l.cursor
    let required := !l.inFlow && l.indent = c.column && (l.indents.head?.map (·.isBlock)).getD false
    let key : KeyStart := ⟨true, required, l.tokens.size, c.index, c.line, c.column⟩
    { l with keys := key :: l.keys.drop 1 }
  else l

/-- What was saved last is no key. -/
def dropKey? (l : Lexer) : Option Lexer :=
  match l.keys with
  | [] => some l
  | k :: ks =>
    if k.possible ∧ k.required then none
    else some { l with keys := { k with possible := false } :: ks }

/-- The longest key. -/
def longestKey : Nat := 1024

/-- A key outside of flow collections stays in its line and is not too long. -/
def isStale (c : Cursor) (k : KeyStart) : Bool :=
  k.possible && (k.line < c.line || k.index + longestKey < c.index)

def staleKeys? (l : Lexer) : Option Lexer :=
  if l.inFlow then some l
  else if l.keys.any (fun k => isStale l.cursor k && k.required) then none
  else
    some { l with
      keys := l.keys.map (fun k => if isStale l.cursor k then { k with possible := false } else k) }

/-! ### Indentation -/

/-- Starts a block in a column that is indented more than what is around it. Its token goes to the
end, or in front of a token. -/
def roll (l : Lexer) (column : Nat) (place : Option Nat) (token : Token) : Lexer :=
  if l.inFlow then l
  else
    let l : Lexer := match l.indents with
      | i :: rest =>
        if i.isBlock = false ∧ l.indent ≤ (column : Int) then
          { l with indent := i.before, indents := rest }
        else l
      | [] => l
    if l.indent < (column : Int) then
      let l : Lexer := { l with indents := ⟨l.indent, true⟩ :: l.indents, indent := (column : Int) }
      match place with
      | some n => l.insert n token column
      | none => l.push token column
    else l

def unrollTo (column : Int) (at_ : Nat) : List Indent → Int → Array (Token × Nat) →
    List Indent × Int × Array (Token × Nat)
  | [], indent, tokens => ([], indent, tokens)
  | i :: rest, indent, tokens =>
    if indent > column then
      unrollTo column at_ rest i.before (if i.isBlock then tokens.push (.blockEnd, at_) else tokens)
    else (i :: rest, indent, tokens)

/-- Ends all blocks that are indented more than a column. -/
def unroll (l : Lexer) (column : Int) : Lexer :=
  if l.inFlow then l
  else
    let (indents, indent, tokens) := unrollTo column l.cursor.column l.indents l.indent l.tokens
    { l with indents, indent, tokens }

/-- Inside a block, what follows has to be indented by one column more. -/
def rollOne (l : Lexer) : Lexer :=
  if !l.inFlow && (l.indents.head?.map (·.isBlock)).getD false then
    { l with indents := ⟨l.indent, false⟩ :: l.indents, indent := l.indent + 1 }
  else l

def leaveTo : List Indent → Int → List Indent × Int
  | [], indent => ([], indent)
  | i :: rest, indent => if i.isBlock then (i :: rest, indent) else leaveTo rest i.before

/-- Goes back to the indentation of the block around. -/
def unrollOnes (l : Lexer) : Lexer :=
  let (indents, indent) := leaveTo l.indents l.indent
  { l with indents, indent }

/-! ### Blanks -/

/-- Passes over blanks, comments and line ends. A tab does not indent what is inside a block. -/
def skipGaps? : Nat → Lexer → Option Lexer
  | 0, _ => none
  | fuel + 1, l =>
    let c := l.cursor
    let d := c.peek
    if d = '\t' ∧ l.indents.isEmpty = false ∧ c.leading ∧ (c.column : Int) < l.indent then do
      let passed ← c.toLineEnd? true
      if isBreakOrEnd passed.cursor.peek then skipGaps? fuel { l with cursor := passed.cursor }
      else none
    else if isBlank d then skipGaps? fuel { l with cursor := c.skipBlanks 1 }
    else if isBreak d then
      skipGaps? fuel { l with cursor := c.skipBreak, keyAllowed := l.keyAllowed || !l.inFlow }
    else if d = '#' then skipGaps? fuel { l with cursor := c.skipComment }
    else some l

def gaps? (l : Lexer) : Option Lexer := skipGaps? (l.cursor.rest.length + 1) l

/-- Goes on by some characters, and over what is left of a line but for content. -/
def skipToLineEnd? (l : Lexer) (n : Nat) : Option Lexer := do
  return { l with cursor := (← (l.cursor.skip n).toLineEnd? true).cursor }

/-- Passes over spaces, comments and line ends, at least over one space or line end. -/
def skipSpaces? : Nat → Bool → Lexer → Option Lexer
  | 0, _, _ => none
  | fuel + 1, found, l =>
    let c := l.cursor
    if c.peek = ' ' then skipSpaces? fuel true { l with cursor := c.skipBlanks 1 }
    else if isBreak c.peek then
      skipSpaces? fuel true
        { l with cursor := c.skipBreak, keyAllowed := l.keyAllowed || !l.inFlow }
    else if c.peek = '#' then skipSpaces? fuel found { l with cursor := c.skipComment }
    else if found then some l
    else none

/-! ### Documents -/

/-- Everything that is open ends here. -/
def close? (l : Lexer) : Option Lexer := do
  let l ← (l.unroll (-1)).dropKey?
  return { l with keyAllowed := false }

def streamEnd? (l : Lexer) : Option Lexer := do
  if l.keys.any (fun k => k.possible && k.required) then none
  return (← l.close?).push .streamEnd 0

def directive? (l : Lexer) : Option Lexer := do
  let l ← l.close?
  let (directive, cursor) ← Yaml.directive? l.cursor
  return { l.push (.directive directive) 0 with cursor }

def documentStart? (l : Lexer) : Option Lexer := do
  let l ← l.close?
  return { l.push .documentStart 0 with cursor := l.cursor.skip 3 }

/-- Nothing follows the end of a document in its line. -/
def documentEnd? (l : Lexer) : Option Lexer := do
  let l ← (← l.close?).push .documentEnd 0 |>.skipToLineEnd? 3
  if isBreakOrEnd l.cursor.peek then return l else none

/-! ### Flow collections -/

/-- How many flow collections may stand inside one another. -/
def deepestFlow : Nat := 255

def flowStart? (l : Lexer) (isMapping : Bool) : Option Lexer := do
  let l := l.saveKey.rollOne
  if l.flow ≥ deepestFlow then none
  let column := l.cursor.column
  let l := { l with
    keys := .none :: l.keys, flow := l.flow + 1, keyAllowed := true,
    mappingOpen := isMapping || l.mappingOpen,
    single := if isMapping then l.single else false :: l.single }
  let l ← l.skipToLineEnd? 1
  return l.push (if isMapping then .flowMappingStart else .flowSequenceStart) column

/-- Ends the single entry of a mapping, if the flow sequence is inside one. -/
def endSingle (l : Lexer) : Lexer :=
  match l.single with
  | true :: rest =>
    { l with mappingOpen := false, single := false :: rest }.push .flowMappingEnd l.cursor.column
  | _ => l

/-- A value may stand directly behind the colon that follows a flow collection inside another. -/
def flowEnd? (l : Lexer) (isMapping : Bool) : Option Lexer := do
  let l ← l.dropKey?
  let l := if l.inFlow then { l with flow := l.flow - 1, keys := l.keys.drop 1 } else l
  let l := { l with keyAllowed := false }
  let l := if isMapping then l
    else
      let l := l.endSingle
      { l with single := l.single.drop 1 }
  let column := l.cursor.column
  let l ← l.skipToLineEnd? 1
  let l := if l.inFlow then { l with adjacent := l.cursor.index } else l
  return l.push (if isMapping then .flowMappingEnd else .flowSequenceEnd) column

def comma? (l : Lexer) : Option Lexer := do
  let l := { (← l.dropKey?) with keyAllowed := true }.endSingle
  let column := l.cursor.column
  return (← l.skipToLineEnd? 1).push .comma column

/-! ### Items, keys and values -/

/-- An anchor or a tag in the first column does not stand in front of an item there. -/
def isMisplaced (l : Lexer) : Bool :=
  match l.tokens.back? with
  | some (.anchor _, 0) => l.cursor.column = 0 && l.indent > -1
  | some (.tag _, 0) => l.cursor.column = 0 && l.indent > -1
  | _ => false

def item? (l : Lexer) : Option Lexer := do
  if l.inFlow ∨ l.keyAllowed = false ∨ l.isMisplaced then none
  let l := l.roll l.cursor.column none .sequenceStart
  let passed ← (l.cursor.skip 1).toLineEnd? true
  let c := passed.cursor
  if passed.tabs ∧ c.peek = '-' ∧ isGap (c.peekAt 1) then none
  let c := (← c.toLineEnd? false).cursor
  let l := { l with cursor := c }
  let l ← (if isBreak c.peek || isFlow c.peek then l.rollOne else l).dropKey?
  return { l with keyAllowed := true }.push .item c.column

def key? (l : Lexer) : Option Lexer := do
  let column := l.cursor.column
  if l.inFlow = false ∧ l.keyAllowed = false then none
  let l := if l.inFlow then { l with mappingOpen := true } else l.roll column none .mappingStart
  let l ← l.dropKey?
  let l := { l with keyAllowed := !l.inFlow, cursor := l.cursor.skip 1 }
  let l ← skipSpaces? (l.cursor.rest.length + 1) false l
  if l.cursor.peek = '\t' then none
  return l.push .key column

/-- Goes over a colon. Tabs alone do not keep it apart from a word. -/
def behindColon? (c : Cursor) : Option Cursor := do
  let c := c.skip 1
  if c.peek ≠ '\t' then return c
  let passed ← c.toLineEnd? true
  let d := passed.cursor.peek
  if passed.spaces = false ∧ isWord d then none else return passed.cursor

/-- A value, and its key if that was saved. In a flow sequence the first of them starts a single
entry of a mapping. -/
def value? (l : Lexer) : Option Lexer := do
  let start := l.cursor
  let k := l.keys.headD .none
  let isSingle := !l.single.isEmpty && !l.mappingOpen
  let l := if isSingle then { l with single := true :: l.single.drop 1 } else l
  let l := { l with cursor := ← behindColon? start }
  if k.possible then
    if isSingle ∧ k.line < start.line then none
    let l := l.insert k.token .key k.column
    let l := if isSingle then l.insert k.token .flowMappingStart l.cursor.column else l
    let l := (l.roll k.column (some k.token) .mappingStart).rollOne
    let l := { l with keys := { k with possible := false } :: l.keys.drop 1, keyAllowed := false }
    return l.push .value start.column
  else
    let l := if isSingle then l.push .flowMappingStart l.cursor.column else l
    if l.inFlow = false ∧ l.keyAllowed = false then none
    let l := (l.roll start.column none .mappingStart).rollOne
    return { l with keyAllowed := !l.inFlow }.push .value start.column

/-! ### Nodes -/

def alias? (l : Lexer) : Option Lexer := do
  let l := { l.saveKey with keyAllowed := false }
  let (name, cursor) ← anchorName? l.cursor
  return { l.push (.alias name) l.cursor.column with cursor }

def anchor? (l : Lexer) : Option Lexer := do
  let l := { l.saveKey with keyAllowed := false }
  let (name, cursor) ← anchorName? l.cursor
  return { l.push (.anchor name) l.cursor.column with cursor }

def tag? (l : Lexer) : Option Lexer := do
  let l := { l.saveKey with keyAllowed := false }
  let (tag, cursor) ← Yaml.tag? l.inFlow l.cursor
  return { l.push (.tag tag) l.cursor.column with cursor }

def block? (l : Lexer) (literal : Bool) : Option Lexer := do
  let l := { l.saveKey with keyAllowed := true }.unrollOnes
  let (text, cursor) ← Yaml.block? literal l.indent l.cursor
  return { l.push (.scalar false text) l.cursor.column with cursor }

/-- A value may stand directly behind the colon that follows a quoted scalar. -/
def quoted? (l : Lexer) (single : Bool) : Option Lexer := do
  let l := { l.saveKey with keyAllowed := false }
  let column := l.cursor.column
  let (text, cursor) ← Yaml.quoted? single l.inFlow l.indent l.cursor
  let l ← { l with cursor }.gaps?
  return { l with adjacent := l.cursor.index }.push (.scalar false text) column

def plain? (l : Lexer) : Option Lexer := do
  let l := { l.saveKey with keyAllowed := false }.unrollOnes
  let (text, cursor) ← Yaml.plain? l.inFlow (l.indent + 1) l.cursor
  let keyAllowed := l.keyAllowed || cursor.leading
  return { l.push (.scalar true text) l.cursor.column with cursor, keyAllowed }

/-! ### Tokens -/

/-- A colon stands in front of a gap. In a flow collection it may also stand in front of a character
that structures it, and directly behind what is quoted or in brackets. -/
def isValue (l : Lexer) : Bool :=
  let next := l.cursor.peekAt 1
  isGap next || (l.inFlow && (isFlow next || l.cursor.index = l.adjacent))

/-- Adds the token that starts here, with those that go with it. -/
def token? (l : Lexer) : Option Lexer :=
  let c := l.cursor
  let spaced := isGap (c.peekAt 1)
  match c.peek with
  | '[' => l.flowStart? false
  | '{' => l.flowStart? true
  | ']' => l.flowEnd? false
  | '}' => l.flowEnd? true
  | ',' => l.comma?
  | '-' => if spaced then l.item? else l.plain?
  | '?' => if spaced then l.key? else l.plain?
  | ':' => if l.isValue then l.value? else l.plain?
  | '*' => l.alias?
  | '&' => l.anchor?
  | '!' => l.tag?
  | '|' => if l.inFlow then l.plain? else l.block? true
  | '>' => if l.inFlow then l.plain? else l.block? false
  | '\'' => l.quoted? true
  | '"' => l.quoted? false
  | d => if d = '%' ∨ d = '@' ∨ d = '\x60' then none else l.plain?

/-- Adds the next tokens, up to the end of the text. Every step but the last takes a character. -/
def tokens? : Nat → Lexer → Option (Array (Token × Nat))
  | 0, _ => none
  | fuel + 1, l => do
    let l ← (← l.gaps?).staleKeys?
    let l := l.unroll l.cursor.column
    let c := l.cursor
    if isEnd c.peek then return (← l.streamEnd?).tokens
    let l ←
      if c.column = 0 ∧ c.peek = '%' then l.directive?
      else if c.atMarker '-' then l.documentStart?
      else if c.atMarker '.' then l.documentEnd?
      else if (c.column : Int) < l.indent then none
      else l.token?
    tokens? fuel l

end Lexer

/-- The tokens of a text. -/
def Token.scan? (text : List Char) : Option (List Token) :=
  (Lexer.tokens? (text.length + 1) (.start text)).map (fun tokens => tokens.toList.map Prod.fst)

end WalletBudget.Settings.Yaml
