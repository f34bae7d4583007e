/-!
Tables as lists of rows, each row under a key of its own.

Rows stay in the order in which their keys were first written. Writing a row under a key that is
there replaces the row in its place.
-/

namespace WalletBudget.Table

variable {ρ κ : Type} [DecidableEq κ]

/-- The row under a key. -/
def get? (key : ρ → κ) (k : κ) (rows : List ρ) : Option ρ := rows.find? (fun r => key r = k)

def has (key : ρ → κ) (k : κ) (rows : List ρ) : Bool := rows.any (fun r => key r = k)

/-- Writes a row under its key. -/
def put (key : ρ → κ) (row : ρ) : List ρ → List ρ
  | [] => [row]
  | r :: rest => if key r = key row then row :: rest else r :: put key row rest

end WalletBudget.Table
