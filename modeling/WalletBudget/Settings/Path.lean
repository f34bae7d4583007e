import WalletBudget.Defect
import WalletBudget.Settings.Value
import WalletBudget.Text.Ascii

/-!
Paths to settings: `server.port`, `server[0]`.

A path starts with a name. A further name goes into a table and an index into an array; a negative
index counts from the end. Setting a value makes what is missing on the way, and replaces what is of
another kind. Names are in lower case.
-/

namespace WalletBudget.Settings

inductive Step where
  | name (name : String)
  | index (index : Int)
  deriving DecidableEq, Repr

abbrev Path := List Step

/-! ### Reading -/

def isPathChar (c : Char) : Bool := c.isAlphanum || c = ' ' || c = '_' || c = '-'

def isPathBlank (c : Char) : Bool := c = ' ' || c = '\t'

def readName? (cs : List Char) : Option (Step × List Char) :=
  let name := cs.takeWhile isPathChar
  if name = [] then none
  else some (.name (Ascii.lowerText (String.ofList name)), cs.drop name.length)

/-- An index behind its opening bracket, and what follows the closing one. -/
def readIndex? (cs : List Char) : Option (Step × List Char) := do
  let cs := cs.dropWhile isPathBlank
  let sign := match cs with
    | '-' :: _ => ['-']
    | _ => []
  let (ds, rest) := Digits.span (cs.drop sign.length)
  let index ← Digits.readWithin? leastAmount largestAmount (sign ++ ds)
  return (.index index, ← Ascii.strip? [']'] (rest.dropWhile isPathBlank))

/-- The steps behind the first one. The fuel bounds their number. -/
def readSteps? : Nat → List Char → Option Path
  | _, [] => some []
  | 0, _ => none
  | fuel + 1, c :: rest => do
    let (step, rest) ←
      if c = '.' then readName? rest else if c = '[' then readIndex? rest else none
    return step :: (← readSteps? fuel rest)

def readPath? (text : String) : Option Path := do
  let (step, rest) ← readName? text.toList
  return step :: (← readSteps? rest.length rest)

/-- A text that is no path is a name as a whole. -/
def pathOf (text : String) : Path :=
  (readPath? text).getD [.name (Ascii.lowerText text)]

/-! ### Setting -/

mutual

/-- A value over another one. Tables are joined entry by entry; a table without entries leaves what
is there. -/
def overlay (below : Option Value) : Value → Value
  | .table [] => below.getD (.table [])
  | .table (entry :: entries) =>
    .table (overlayEntries (entry :: entries) ((below.map Value.entries).getD []))
  | value => value

def overlayEntries : Entries → Entries → Entries
  | [], below => below
  | (name, value) :: rest, below =>
    let name := Ascii.lowerText name
    overlayEntries rest (put name (overlay (below.lookup name) value) below)

end

/-- No array is made longer than this. -/
def longestArray : Nat := 0x1000000

/-- The place of an index in an array of some length. It is a defect to lie in front of the first
item, or too far behind the last one. -/
def placeOf (length : Nat) (index : Int) : Except Defect Nat :=
  if index < 0 then
    if index.natAbs ≤ length then .ok (length - index.natAbs) else .error .itemRange
  else if index.toNat < longestArray then .ok index.toNat
  else .error .itemRange

/-- Changes an item. An array that is too short is filled up. -/
def putItem (place : Nat) (value : Value) (items : List Value) : List Value :=
  (items ++ List.replicate (place + 1 - items.length) Value.nil).set place value

/-- What a value is after another one is set at a path in it. -/
def setAt : Path → Value → Value → Except Defect Value
  | [], value, _ => .ok value
  | [.name name], value, below => .ok (.table (overlayEntries [(name, value)] below.entries))
  | .name name :: path, value, below => do
    let inner ← setAt path value ((below.entries.lookup name).getD .nil)
    return .table (put name inner below.entries)
  | .index index :: path, value, below => do
    let place ← placeOf below.items.length index
    let inner ← setAt path value (below.items[place]?.getD .nil)
    return .array (putItem place inner below.items)

end WalletBudget.Settings
