import WalletBudget.Settings.Basic
import WalletBudget.Settings.Ini
import WalletBudget.Settings.Json5
import WalletBudget.Settings.Ron
import WalletBudget.Settings.Scalar
import WalletBudget.Settings.Toml
import WalletBudget.Settings.Yaml

/-!
Loading settings: from a file, if one is named, and from the environment over it.
-/

namespace WalletBudget.Settings

/-- The file that settings are wanted from. -/
inductive Source where
  | none
  | missing
  | file (name text : String)
  deriving DecidableEq, Repr

inductive LoadError where
  | unreadable
  | invalid (error : ValidationError)
  | broken (defect : Defect)
  deriving DecidableEq

def LayerFault.toLoadError : LayerFault → LoadError
  | .unreadable => .unreadable
  | .defect d => .broken d

/-- What follows the last point of a name that does not start with it. -/
def fileType (name : String) : String :=
  match (Ascii.split '.' name.toList).reverse with
  | last :: _ :: _ =>
    if last.length + 1 < name.toList.length then String.ofList last else ""
  | _ => ""

/-- The text behind a mark of the order of bytes at its front. -/
def unmarked (text : String) : String :=
  match text.toList with
  | '\uFEFF' :: rest => String.ofList rest
  | _ => text

/-- The layer of a file of a known type. -/
def fileLayer (name text : String) : Except LayerFault Entries :=
  let text := unmarked text
  match fileType name with
  | "json" => layerOf (jsonValue? text)
  | "json5" => layerOf (Json5.read? text)
  | "toml" => layerOf (Toml.read? text)
  | "ini" => layerOf (Ini.read? text)
  | "ron" => layerOf (Ron.read? text)
  | "yaml" => do layerOf (← Yaml.read text)
  | "yml" => do layerOf (← Yaml.read text)
  | _ => .error .unreadable

def Source.layer : Source → Except LayerFault Entries
  | .none => .ok []
  | .missing => .error .unreadable
  | .file name text => fileLayer name text

/-- The tree of all layers. -/
def tree (env : Environment) (source : Source) : Except LayerFault Value := do
  let lay (layer : Entries) (below : Value) := (overlayAll layer below).mapError .defect
  lay (environmentLayer env) (← lay (← source.layer) (.table []))

/-- A database that is not in the settings may still be in the environment. The hold policy is
checked last. -/
def load (env : Environment) (source : Source) : Except LoadError Settings := do
  let tree ← (tree env source).mapError LayerFault.toLoadError
  let s ← ((record loose decimal env).named tree.entries).mapError (fun _ => .unreadable)
  let s := { s with database := s.database <|> DatabaseConfig.fromEnvironment? env }
  s.budget.validate.mapError .invalid
  return s

end WalletBudget.Settings
