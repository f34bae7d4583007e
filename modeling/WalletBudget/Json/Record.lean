import WalletBudget.Json.Read

/-!
Decoders for scalars, and records in JSON.

A record is an object of its fields, or an array of them in order. Faults are reported in the order
of the text.
-/

namespace WalletBudget

namespace Json

abbrev Decoder (α : Type) := Reader Json α

def string : Decoder String
  | .str s => .ok s
  | j => .error (wrongKind j)

def boolean : Decoder Bool
  | .bool b => .ok b
  | j => .error (wrongKind j)

/-- A whole number between two bounds. -/
def integer (least largest : Int) : Decoder Int
  | .num n =>
    match n.value? with
    | none => .error .malformed
    | some (.whole i) => if least ≤ i ∧ i ≤ largest then .ok i else .error .mismatch
    | some (.float _) => .error .mismatch
  | j => .error (wrongKind j)

/-- A whole number of 64 bits. -/
def int64 : Decoder Int := integer (-0x8000000000000000) 0x7FFFFFFFFFFFFFFF

def natural (largest : Nat) : Decoder Nat := fun j => Int.toNat <$> integer 0 largest j

/-- A string that a reader accepts. -/
def parsed {α : Type} (read? : String → Option α) : Decoder α := fun j => do
  match read? (← string j) with
  | some a => return a
  | none => throw .mismatch

/-- A word of a fixed list: the word as a string, or an object that maps it to nothing. The word is
looked up before the rest of the object is read. -/
def wordOver {α : Type} (isNothing : Json → Bool) (find? : String → Option α) : Decoder α
  | .str s => (find? s).elim (.error .mismatch) .ok
  | .obj [] => .error .malformed
  | .obj ((_, .unnamed value) :: _) => .error (wrongKind value)
  | .obj ((name, value) :: rest) =>
    match find? name, isNothing value, rest with
    | none, _, _ => .error .mismatch
    | some a, true, [] => .ok a
    | some _, true, _ :: _ => .error .malformed
    | some _, false, _ => .error (wrongKind value)
  | _ => .error .malformed

def isNull : Json → Bool
  | .null => true
  | _ => false

instance : Nullable Json := ⟨isNull⟩

/-- Null, or an object without entries. -/
def isEmpty : Json → Bool
  | .null => true
  | .obj [] => true
  | _ => false

def word {α : Type} (find? : String → Option α) : Decoder α := wordOver isNull find?

/-- A word in a value that is kept whole before it is decoded: its object may also map it to an
empty object. -/
def keptWord {α : Type} (find? : String → Option α) : Decoder α := wordOver isEmpty find?

/-- The items of an array. -/
def items {α : Type} (decoder : Decoder α) : Decoder (List α)
  | .arr js => js.mapM decoder
  | j => .error (wrongKind j)

end Json

/-- A record as an object of its fields, or as an array of them in order and of nothing else. -/
def Record.decode {α : Type} (r : Record Json α) : Json.Decoder α
  | .obj entries => do
    scan Json.isWhole r.checks [] entries
    r.named entries
  | .arr items => do
    let (a, rest) ← r.positional items
    match rest with
    | [] => return a
    | _ :: _ => throw .malformed
  | j => .error j.wrongKind

/-- Every scalar has to be of its own kind. -/
def Json.strict : Parts Json := ⟨Record.decode, Json.string, Json.boolean, Json.natural⟩

end WalletBudget
