/-!
Records as lists of named fields, over any kind of value that a format or a tree may hold.

A record is read from named entries or from its fields in order. Named entries may hold others, but
no field twice. Faults are reported in the order of the entries: the fields that stand among them
first, the missing ones last.
-/

namespace WalletBudget

/-- Why a value is not the wanted one. A malformed value is broken, or holds what stands for
nothing; a mismatch is a sound value of another shape. -/
inductive Fault where
  | malformed
  | mismatch
  deriving DecidableEq, Repr

abbrev Reader (V α : Type) := V → Except Fault α

/-- Values with some among them that stand for the lack of a value. -/
class Nullable (V : Type) where
  isNull : V → Bool

/-- Null stands for no value. -/
def optional {V α : Type} [Nullable V] (reader : Reader V α) : Reader V (Option α) :=
  fun v => if Nullable.isNull v then .ok none else some <$> reader v

/-- A field: its name, its reader, and the values it takes where it is missing from named entries or
where the fields in order end before it. -/
structure Field (V α : Type) where
  name : String
  reader : Reader V α
  missing : Option α
  short : Option α

namespace Field

variable {V α : Type}

def required (name : String) (reader : Reader V α) : Field V α := ⟨name, reader, none, none⟩

/-- A field without a value when it is missing. Fields in order have to hold it all the same. -/
def nullable [Nullable V] (name : String) (reader : Reader V α) : Field V (Option α) :=
  ⟨name, optional reader, some none, none⟩

def defaulted (name : String) (reader : Reader V α) (value : α) : Field V α :=
  ⟨name, reader, some value, some value⟩

/-- A field that has no value unless it is given, in either form. -/
def omissible [Nullable V] (name : String) (reader : Reader V α) : Field V (Option α) :=
  .defaulted name (optional reader) none

end Field

/-- How a record is made of fields: a check for each field name, and the record from named entries
or from fields in order. -/
structure Record (V α : Type) where
  checks : List (String × (V → Except Fault Unit))
  named : List (String × V) → Except Fault α
  positional : List V → Except Fault (α × List V)

namespace Record

variable {V α β : Type}

/-- A record without fields. -/
def build (a : α) : Record V α where
  checks := []
  named := fun _ => .ok a
  positional := fun items => .ok (a, items)

/-- The value of a field, if it has one, or the fault of its absence. -/
def found (missing : Option α) : Except Fault α := missing.elim (.error .mismatch) .ok

/-- A record builder and one more field for it. -/
def field (r : Record V (α → β)) (f : Field V α) : Record V β where
  checks := r.checks ++ [(f.name, fun v => (fun _ => ()) <$> f.reader v)]
  named := fun entries => do
    let g ← r.named entries
    let a ← match entries.lookup f.name with
      | some v => f.reader v
      | none => found f.missing
    return g a
  positional := fun items => do
    let (g, rest) ← r.positional items
    match rest with
    | [] => return (g (← found f.short), [])
    | v :: rest => return (g (← f.reader v), rest)

/-- Entries in their order: known fields once each, others only if they are whole. -/
def scan (isWhole : V → Bool) (checks : List (String × (V → Except Fault Unit)))
    (seen : List String) : List (String × V) → Except Fault Unit
  | [] => .ok ()
  | (name, value) :: rest =>
    match checks.lookup name with
    | none => if isWhole value then scan isWhole checks seen rest else .error .malformed
    | some check =>
      if name ∈ seen then .error .mismatch
      else do
        check value
        scan isWhole checks (name :: seen) rest

end Record

/-- How the parts of a record are read: the record itself and the scalars in it. Records that are
read in more than one way take the way as a value. -/
structure Parts (V : Type) where
  record : {α : Type} → Record V α → Reader V α
  string : Reader V String
  boolean : Reader V Bool
  natural : Nat → Reader V Nat

end WalletBudget
