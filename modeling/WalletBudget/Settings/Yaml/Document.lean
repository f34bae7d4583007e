import WalletBudget.Settings.Yaml.Node
import WalletBudget.Settings.Yaml.Token

/-!
Documents of YAML: the nodes that tokens make.

A part that is left out counts as null: a key without a value, a value without a key, an item
without a node. In a block mapping the items of a sequence may stand as deep as the key in front of
them. A name that an alias repeats stands for the node that had it last; while that node is not
complete, the alias is the bad node.
-/

namespace WalletBudget.Settings.Yaml

/-- The tokens that are left, the handles that directives declare, and the anchors of a document in
their order with the nodes that are complete. -/
structure Parsing where
  tokens : List Token
  handles : List (String × String)
  anchors : Array (String × Option Node)

abbrev Parser := StateT Parsing Option

namespace Parser

/-- The next token. The last one ends the stream. -/
def peek : Parser Token := fun s => some (s.tokens.headD .streamEnd, s)

def skip : Parser Unit := modify (fun s => { s with tokens := s.tokens.drop 1 })

/-- Passes over a token that has to come next. -/
def expect (token : Token) : Parser Unit := do
  if (← peek) = token then skip else failure

/-! ### Anchors and tags -/

/-- An anchor if one comes next, by its number. -/
def anchor : Parser (Option Nat) := do
  match ← peek with
  | .anchor name =>
    skip
    let s ← get
    set { s with anchors := s.anchors.push (name, none) }
    return some s.anchors.size
  | _ => return none

/-- The node of an anchor is complete. -/
def complete (anchor : Option Nat) (node : Node) : Parser Unit :=
  match anchor with
  | none => pure ()
  | some n => modify (fun s =>
      { s with anchors := s.anchors.modify n (fun a => (a.1, some node)) })

/-- The node that an alias stands for. Its name has to be known. -/
def known (name : String) : Parser Node := do
  match (← get).anchors.toList.reverse.lookup name with
  | some node => return node.getD .bad
  | none => failure

/-- A tag with what its handle stands for. A handle that is a word between two marks has to be
declared. -/
def resolved? (handles : List (String × String)) (tag : Tag) : Option Tag :=
  match handles.lookup tag.handle with
  | some handle => some { tag with handle }
  | none =>
    if tag.handle = "!!" then some { tag with handle := kindsOfScalars }
    else if 2 ≤ tag.handle.length ∧ tag.handle.endsWith "!" then none
    else some tag

def tag : Parser (Option Tag) := do
  match ← peek with
  | .tag tag =>
    skip
    return some (← StateT.lift (resolved? (← get).handles tag))
  | _ => return none

/-- The anchor and the tag of a node, in either order. -/
def properties : Parser (Option Nat × Option Tag) := do
  let first ← anchor
  let tag ← tag
  let anchor ← if first.isSome then pure first else anchor
  return (anchor, tag)

/-! ### Nodes -/

/-- A part is left out in front of some tokens. -/
def orNull (absent : List Token) (node : Parser Node) : Parser Node := do
  if (← peek) ∈ absent then return .null else node

/-- The value of an entry. Without its mark it is left out. -/
def valueOr (absent : List Token) (node : Parser Node) : Parser Node := do
  if (← peek) ≠ .value then return .null
  skip
  orNull absent node

def mapping (nodes : List Node) : Parser Node :=
  StateT.lift ((Node.entries? nodes).map .map)

mutual

/-- A node. Blocks are not allowed everywhere, and neither are items without a block. The fuel
bounds the steps. -/
def node : Nat → Bool → Bool → Parser Node
  | 0, _, _ => failure
  | fuel + 1, block, items => do
    if let .alias name ← peek then
      skip
      return ← known name
    let (anchor, tag) ← properties
    let node ← content fuel block items (anchor.isSome || tag.isSome) tag
    complete anchor node
    return node

/-- What follows the anchor and the tag of a node. With one of them it may be left out. -/
def content : Nat → Bool → Bool → Bool → Option Tag → Parser Node
  | 0, _, _, _, _ => failure
  | fuel + 1, block, items, marked, tag => do
    match ← peek, block, items with
    | .item, _, true => .list <$> bareItems fuel
    | .scalar plain text, _, _ =>
      skip
      return scalar plain tag text
    | .flowSequenceStart, _, _ =>
      skip
      .list <$> flowItems fuel true
    | .flowMappingStart, _, _ =>
      skip
      mapping (← flowEntries fuel true)
    | .sequenceStart, true, _ =>
      skip
      .list <$> blockItems fuel
    | .mappingStart, true, _ =>
      skip
      mapping (← blockEntries fuel)
    | _, _, _ => if marked then return scalar true tag "" else failure

/-- The items of a sequence that is a block. -/
def blockItems : Nat → Parser (List Node)
  | 0 => failure
  | fuel + 1 => do
    if (← peek) = .blockEnd then
      skip
      return []
    expect .item
    let item ← orNull [.item, .blockEnd] (node fuel true false)
    return item :: (← blockItems fuel)

/-- The items of a sequence without a block. -/
def bareItems : Nat → Parser (List Node)
  | 0 => failure
  | fuel + 1 => do
    if (← peek) ≠ .item then return []
    skip
    let item ← orNull [.item, .key, .value, .blockEnd] (node fuel true false)
    return item :: (← bareItems fuel)

/-- The keys and values of a mapping that is a block. -/
def blockEntries : Nat → Parser (List Node)
  | 0 => failure
  | fuel + 1 => do
    let absent : List Token := [.key, .value, .blockEnd]
    match ← peek with
    | .blockEnd =>
      skip
      return []
    | .value => do
      let value ← valueOr absent (node fuel true true)
      return .null :: value :: (← blockEntries fuel)
    | _ => do
      expect .key
      let key ← orNull absent (node fuel true true)
      let value ← valueOr absent (node fuel true true)
      return key :: value :: (← blockEntries fuel)

/-- The keys and values of a flow mapping. A node without the mark of a key has no value behind it:
that mark comes first wherever a colon follows. -/
def flowEntries : Nat → Bool → Parser (List Node)
  | 0, _ => failure
  | fuel + 1, first => do
    let finish : Parser (List Node) := do
      skip
      return []
    if (← peek) = .flowMappingEnd then return ← finish
    if !first then expect .comma
    match ← peek with
    | .flowMappingEnd => finish
    | .key => do
      skip
      let key ← orNull [.value, .comma, .flowMappingEnd] (node fuel false false)
      let value ← valueOr [.comma, .flowMappingEnd] (node fuel false false)
      return key :: value :: (← flowEntries fuel false)
    | .value => do
      let value ← valueOr [.comma, .flowMappingEnd] (node fuel false false)
      return .null :: value :: (← flowEntries fuel false)
    | _ => do
      let key ← node fuel false false
      return key :: .null :: (← flowEntries fuel false)

/-- The items of a flow sequence. The mark of a key makes a mapping of one entry. -/
def flowItems : Nat → Bool → Parser (List Node)
  | 0, _ => failure
  | fuel + 1, first => do
    let finish : Parser (List Node) := do
      skip
      return []
    if (← peek) = .flowSequenceEnd then return ← finish
    if !first then expect .comma
    match ← peek with
    | .flowSequenceEnd => finish
    | .key => do
      skip
      let item ← singleEntry fuel
      return item :: (← flowItems fuel false)
    | _ => do
      let item ← node fuel false false
      return item :: (← flowItems fuel false)

/-- A mapping of one entry in a flow sequence. A token in front of which its key is left out is
passed over. -/
def singleEntry : Nat → Parser Node
  | 0 => failure
  | fuel + 1 => do
    let key ←
      if (← peek) ∈ [.value, .comma, .flowSequenceEnd] then do
        skip
        pure Node.null
      else node fuel false false
    let value ← valueOr [.comma, .flowSequenceEnd] (node fuel false false)
    mapping [key, value]

end

/-! ### Documents -/

def isDirective : Token → Bool
  | .directive _ => true
  | _ => false

/-- Reads directives. Each declares one handle, and makes those before it void. The version comes
once. The fuel bounds their number. -/
def directives : Nat → Bool → Parser Unit
  | 0, _ => failure
  | fuel + 1, versioned => do
    match ← peek with
    | .directive .version => do
      if versioned then failure
      skip
      modify (fun s => { s with handles := [] })
      directives fuel true
    | .directive (.declares handle pre) => do
      skip
      modify (fun s => { s with handles := [(handle, pre)] })
      directives fuel versioned
    | _ => return ()

def skipDocumentEnds : Nat → Parser Unit
  | 0 => failure
  | fuel + 1 => do
    if (← peek) = .documentEnd then
      skip
      skipDocumentEnds fuel

/-- A document behind the mark that starts it, which may be empty. -/
def startedDocument (fuel : Nat) : Parser Node := do
  directives fuel false
  expect .documentStart
  let next ← peek
  if isDirective next || next ∈ [.documentStart, .documentEnd, .streamEnd] then return .null
  else node fuel true false

/-- All documents. One without a mark at its start stands at the start of the stream or behind a
mark that ends a document. Directives need such a mark in front of them. -/
def documents : Nat → Bool → Parser (List Node)
  | 0, _ => failure
  | fuel + 1, bare => do
    skipDocumentEnds (fuel + 1)
    let next ← peek
    if next = .streamEnd then return []
    modify (fun s => { s with anchors := #[] })
    let document ←
      if isDirective next || next = .documentStart || !bare then startedDocument fuel
      else node fuel true false
    modify (fun s => { s with handles := [] })
    let last ← peek
    if isDirective last then failure
    return document :: (← documents fuel (last = .documentEnd))

end Parser

/-- The documents of a text. A text ends at the character zero. -/
def documents? (text : String) : Option (List Node) := do
  let tokens ← Token.scan? (text.toList.takeWhile (!isEnd ·))
  let (nodes, _) ← (Parser.documents (3 * tokens.length + 3) true).run ⟨tokens, [], #[]⟩
  return nodes

end WalletBudget.Settings.Yaml
