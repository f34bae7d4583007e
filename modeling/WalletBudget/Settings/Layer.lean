import WalletBudget.Environment
import WalletBudget.Json.Read
import WalletBudget.Settings.Path

/-!
Layers of settings: trees of named sections, laid over each other.

A later layer replaces the values it has and keeps the others. At the top of a layer a name may be a
path.
-/

namespace WalletBudget.Settings

/-- Why a layer cannot be laid. -/
inductive LayerFault where
  | unreadable
  | defect (defect : Defect)
  deriving DecidableEq

/-- Lays the entries of a layer over a tree, each at its path. -/
def overlayAll (layer : Entries) (below : Value) : Except Defect Value :=
  layer.foldlM (fun below (text, value) => setAt (pathOf text) value below) below

/-- The layer that a value is, which has to be a table. -/
def layerOf (value : Option Value) : Except LayerFault Entries :=
  (value.bind Value.table?).elim (.error .unreadable) .ok

/-- The value of a JSON text. -/
def jsonValue? (text : String) : Option Value := do
  let j ← Json.read? text
  if j.isSound then some (.ofJson j) else none

/-! ### The environment -/

/-- Variables of settings start so, in letters of either case. -/
def variableStart : List Char := "nwc__".toList

/-- Two low lines in the name of a variable separate the names of a path. -/
def dotted : List Char → List Char
  | '_' :: '_' :: rest => '.' :: dotted rest
  | c :: rest => c :: dotted rest
  | [] => []

/-- The path of a variable, if it is one of settings. -/
def variablePath? (name : String) : Option String :=
  (Ascii.strip? variableStart (name.toList.map Char.toLower)).map
    (fun rest => String.ofList (dotted rest))

/-- The value of a variable: a truth value, a whole number, a fraction, or a text. -/
def variableValue (text : String) : Value :=
  match Ascii.lowerText text with
  | "true" => .bool true
  | "false" => .bool false
  | _ =>
    match readWhole? text.toList, Fraction.read? text.toList with
    | some n, _ => .int n
    | none, some x => .fraction x
    | none, none => .str text

def environmentLayer (env : Environment) : Entries :=
  env.filterMap (fun (name, text) => (variablePath? name).map (fun p => (p, variableValue text)))

end WalletBudget.Settings
