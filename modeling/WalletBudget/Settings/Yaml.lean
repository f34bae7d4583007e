import WalletBudget.Settings.Layer
import WalletBudget.Settings.Yaml.Document

/-!
Reading settings in YAML. A text holds one document, or none for no settings.

Names are texts or whole numbers. What is no value counts as null.
-/

namespace WalletBudget.Settings.Yaml

/-- The name that a key is. It is a defect to be a key of another kind. -/
def nameOf : Node → Except LayerFault String
  | .str s => .ok s
  | .int n => .ok (Digits.signed n)
  | _ => .error (.defect .keyKind)

mutual

/-- The value of a node. Words of fractions with a point are not read. -/
def valueOf : Node → Except LayerFault Value
  | .bool b => .ok (.bool b)
  | .int n => .ok (.int n)
  | .real text => (Fraction.read? text.toList).elim (.error .unreadable) (.ok ∘ .fraction)
  | .str s => .ok (.str s)
  | .list items => .array <$> valuesOf items
  | .map entries => .table <$> entriesOf entries []
  | _ => .ok .nil

def valuesOf : List Node → Except LayerFault (List Value)
  | [] => .ok []
  | node :: rest => do
    let value ← valueOf node
    return value :: (← valuesOf rest)

def entriesOf : List (Node × Node) → Entries → Except LayerFault Entries
  | [], done => .ok done
  | (key, node) :: rest, done => do
    let name ← nameOf key
    entriesOf rest (put name (← valueOf node) done)

end

def read (text : String) : Except LayerFault Value :=
  match documents? text with
  | some [] => .ok (.table [])
  | some [document] => valueOf document
  | _ => .error .unreadable

end WalletBudget.Settings.Yaml
