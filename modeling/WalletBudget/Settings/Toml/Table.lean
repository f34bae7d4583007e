import WalletBudget.Settings.Value

/-!
Tables of TOML while a text is read.

A table remembers how it came about, because that decides who may still add to it: dotted keys only
to tables that dotted keys or longer headers made, and a header only to a table that longer headers
made.
-/

namespace WalletBudget.Settings.Toml

/-- A table was given by its own header or in braces, or it was made on the way to another table, by
a longer header or by a dotted key. -/
inductive Origin where
  | own
  | header
  | dotted
  deriving DecidableEq, Repr

inductive Item where
  | value (value : Value)
  | table (origin : Origin) (items : List (String × Item))
  | tables (tables : List (List (String × Item)))

abbrev Items := List (String × Item)

mutual

def Item.toValue : Item → Value
  | .value v => v
  | .table _ items => .table (entriesOf items)
  | .tables ts => .array (tablesOf ts)

def entriesOf : Items → Entries
  | [] => []
  | (name, item) :: rest => (name, item.toValue) :: entriesOf rest

def tablesOf : List Items → List Value
  | [] => []
  | items :: rest => .table (entriesOf items) :: tablesOf rest

end

/-- Changes the table at a path, and makes the tables on the way that are missing. An array of
tables stands for its last one. A value stands in the way, and so does a table of its own on the way
of a dotted key. -/
def within? {α : Type} (dotted : Bool) (change : Origin → Items → Option (α × Items)) :
    List String → Origin → Items → Option (α × Items)
  | [], origin, items => change origin items
  | name :: path, _, items =>
    let made : Origin := if dotted then .dotted else .header
    match items.lookup name with
    | none => do
      let (a, inner) ← within? dotted change path made []
      return (a, put name (.table made inner) items)
    | some (.table origin inner) => do
      if dotted ∧ origin = .own then none
      let (a, inner) ← within? dotted change path origin inner
      return (a, put name (.table origin inner) items)
    | some (.tables ts) => do
      let (a, inner) ← within? dotted change path .own (← ts.getLast?)
      return (a, put name (.tables (ts.dropLast ++ [inner])) items)
    | some (.value _) => none

/-- Adds a value at a dotted key. The table it goes into was made by dotted keys if and only if the
key has points. -/
def assign? (path : List String) (value : Value) (items : Items) : Option Items := do
  let name ← path.getLast?
  let parents := path.dropLast
  let add (origin : Origin) (items : Items) : Option (Unit × Items) :=
    if decide (origin = .dotted) = parents.isEmpty ∨ (items.lookup name).isSome then none
    else some ((), put name (.value value) items)
  return (← within? true add parents .own items).2

/-- All tables but the open one, and the path, the kind and the items of that one. -/
structure Document where
  root : Items
  path : List String
  isArray : Bool
  items : Items

def Document.empty : Document := ⟨[], [], false, []⟩

/-- Puts the open table into its place. -/
def Document.close? (d : Document) : Option Items := do
  match d.path.getLast? with
  | none => return d.items
  | some name =>
    let store (_ : Origin) (items : Items) : Option (Unit × Items) :=
      if d.isArray then
        match items.lookup name with
        | some (.tables ts) => some ((), put name (.tables (ts ++ [d.items])) items)
        | none => some ((), put name (.tables [d.items]) items)
        | _ => none
      else some ((), put name (.table .own d.items) items)
    return (← within? false store d.path.dropLast .own d.root).2

/-- Opens the table of a header. It goes on with a table that longer headers made. -/
def Document.table? (d : Document) (path : List String) : Option Document := do
  let name ← path.getLast?
  let take (_ : Origin) (items : Items) : Option (Items × Items) :=
    match items.lookup name with
    | none => some ([], items)
    | some (.table .header inner) => some (inner, items)
    | some _ => none
  let (inner, root) ← within? false take path.dropLast .own (← d.close?)
  return ⟨root, path, false, inner⟩

/-- Opens one more table of an array of tables. -/
def Document.arrayTable? (d : Document) (path : List String) : Option Document := do
  let name ← path.getLast?
  let check (_ : Origin) (items : Items) : Option (Unit × Items) :=
    match items.lookup name with
    | none => some ((), items)
    | some (.tables _) => some ((), items)
    | some _ => none
  let (_, root) ← within? false check path.dropLast .own (← d.close?)
  return ⟨root, path, true, []⟩

def Document.assign? (d : Document) (path : List String) (value : Value) : Option Document := do
  return { d with items := ← Toml.assign? path value d.items }

end WalletBudget.Settings.Toml
