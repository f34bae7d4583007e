import WalletBudget.Settings.Number
import WalletBudget.Settings.Yaml.Tag
import WalletBudget.Text.Hex

/-!
Nodes of YAML documents.

A plain scalar is null, a truth value, a number or a text, whichever its characters read as; a tag
may say which. Any other scalar is a text. A fraction keeps its text, so that two fractions are the
same key only if they are written in the same way.
-/

namespace WalletBudget.Settings.Yaml

/-- The bad node stands for what is no value: a text that its tag does not fit, or an alias inside
of the node that it stands for. -/
inductive Node where
  | null
  | bool (value : Bool)
  | int (value : Int)
  | real (text : String)
  | str (value : String)
  | list (items : List Node)
  | map (entries : List (Node × Node))
  | bad
  deriving Repr

namespace Node

mutual

/-- Whether two nodes are the same key. -/
def same : Node → Node → Bool
  | .null, .null => true
  | .bool a, .bool b => a = b
  | .int a, .int b => a = b
  | .real a, .real b => a = b
  | .str a, .str b => a = b
  | .list xs, .list ys => sameItems xs ys
  | .map xs, .map ys => sameEntries xs ys
  | .bad, .bad => true
  | _, _ => false

def sameItems : List Node → List Node → Bool
  | [], [] => true
  | x :: xs, y :: ys => same x y && sameItems xs ys
  | _, _ => false

def sameEntries : List (Node × Node) → List (Node × Node) → Bool
  | [], [] => true
  | (k, x) :: xs, (l, y) :: ys => same k l && same x y && sameEntries xs ys
  | _, _ => false

end

/-- The entries of a mapping whose keys and values follow each other. In the place of a key the bad
node counts for nothing, and so does a key without a value. No key may come twice. -/
def entries? : List Node → Option (List (Node × Node))
  | .bad :: rest => entries? rest
  | key :: value :: rest => do
    let entries ← entries? rest
    if entries.any (fun e => same key e.1) then none else return (key, value) :: entries
  | _ => some []

end Node

/-! ### Scalars -/

def octalDigit? (c : Char) : Option Nat :=
  if '0' ≤ c ∧ c ≤ '7' then some (Digits.value c) else none

/-- A whole number with a mark in front: of base sixteen, of base eight, or a further plus sign. -/
def readMarked? : List Char → Option Int
  | '0' :: 'x' :: ds => readBased? 16 Hex.digit? ds
  | '0' :: 'o' :: ds => readBased? 8 octalDigit? ds
  | '+' :: ds => readWhole? ds
  | _ => none

/-- Words of fractions that are no numbers, beside those without a point. -/
def fractionWords : List String :=
  [".inf", ".Inf", ".INF", "+.inf", "+.Inf", "+.INF", "-.inf", "-.Inf", "-.INF",
    ".nan", ".NaN", ".NAN"]

def isReal (text : String) : Bool :=
  text ∈ fractionWords || (Fraction.read? text.toList).isSome

/-- The node of a plain scalar without a tag. -/
def untagged (text : String) : Node :=
  match text with
  | "" => .null
  | "~" => .null
  | "null" => .null
  | "true" => .bool true
  | "false" => .bool false
  | _ =>
    match readMarked? text.toList <|> readWhole? text.toList with
    | some n => .int n
    | none => if isReal text then .real text else .str text

/-- What the tags of the kinds of scalars start with. -/
def kindsOfScalars : String := "tag:yaml.org,2002:"

/-- The node of a plain scalar whose tag is one of the kinds of scalars. -/
def ofKind (kind text : String) : Node :=
  match kind with
  | "bool" => if text = "true" then .bool true else if text = "false" then .bool false else .bad
  | "int" => (readWhole? text.toList).elim .bad .int
  | "float" => if isReal text then .real text else .bad
  | "null" => if text = "~" ∨ text = "null" then .null else .bad
  | _ => .str text

/-- The node of a scalar. Tags of other kinds make it a text. -/
def scalar (plain : Bool) (tag : Option Tag) (text : String) : Node :=
  if plain = false then .str text
  else
    match tag with
    | none => untagged text
    | some tag => if tag.handle = kindsOfScalars then ofKind tag.suffix text else .str text

end WalletBudget.Settings.Yaml
