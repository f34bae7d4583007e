import WalletBudget.Json.Basic
import WalletBudget.Settings.Number

/-!
Values of settings, in the form in which all sources of settings agree: the leaves and trees that
files and variables of the environment hold.
-/

namespace WalletBudget.Settings

inductive Value where
  | nil
  | bool (value : Bool)
  | int (value : Int)
  | fraction (value : Fraction)
  | str (value : String)
  | array (items : List Value)
  | table (entries : List (String × Value))
  deriving Repr

abbrev Entries := List (String × Value)

/-- Changes the value of a name, or adds it. -/
def put {α : Type} (name : String) (value : α) : List (String × α) → List (String × α)
  | [] => [(name, value)]
  | e :: rest => if e.1 = name then (name, value) :: rest else e :: put name value rest

namespace Value

/-- The entries of a table. Any other value has none. -/
def entries : Value → Entries
  | .table entries => entries
  | _ => []

/-- The items of an array. Any other value has none. -/
def items : Value → List Value
  | .array items => items
  | _ => []

def table? : Value → Option Entries
  | .table entries => some entries
  | _ => none

def isNil : Value → Bool
  | .nil => true
  | _ => false

instance : Nullable Value := ⟨isNil⟩

/-- A whole number as it is if 64 bits with sign hold it, or else the fraction nearest to it. -/
def ofInt (n : Int) : Value := if inRange n then .int n else .fraction (.ofInt n)

mutual

/-- Of a repeated name the last value counts. -/
def ofJson : Json → Value
  | .bool b => .bool b
  | .num n =>
    match n.value? with
    | some (.whole i) => ofInt i
    | some (.float x) => .fraction (.finite x)
    | none => .nil
  | .str s => .str s
  | .arr items => .array (ofJsonItems items)
  | .obj entries => .table (ofJsonEntries entries [])
  | _ => .nil

def ofJsonItems : List Json → List Value
  | [] => []
  | item :: rest => ofJson item :: ofJsonItems rest

def ofJsonEntries : List (String × Json) → Entries → Entries
  | [], done => done
  | (name, value) :: rest, done => ofJsonEntries rest (put name (ofJson value) done)

end

end Value

end WalletBudget.Settings
