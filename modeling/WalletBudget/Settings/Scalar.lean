import WalletBudget.Decimal.Read
import WalletBudget.Settings.Value
import WalletBudget.Text.Ascii

/-!
Reading settings loosely: a setting of one kind may be given as another that stands for it, because
variables of the environment and files do not tell kinds apart in the same way.
-/

namespace WalletBudget.Settings

def trueWords : List String := ["true", "on", "yes"]

def falseWords : List String := ["false", "off", "no"]

def string : Reader Value String
  | .str s => .ok s
  | .bool b => .ok (if b then "true" else "false")
  | .int n => .ok (Digits.signed n)
  | .fraction x => .ok x.text
  | _ => .error .mismatch

/-- Words count in any case, and so do the digits one and zero. -/
def boolean : Reader Value Bool
  | .bool b => .ok b
  | .int n => .ok (n ≠ 0)
  | .fraction x => .ok (!x.isZero)
  | .str s =>
    let word := Ascii.lowerText s
    if word = "1" ∨ word ∈ trueWords then .ok true
    else if word = "0" ∨ word ∈ falseWords then .ok false
    else .error .mismatch
  | _ => .error .mismatch

/-- A word of 64 bits. A whole number is not negative, and a fraction is rounded into the range. -/
def word : Reader Value Nat
  | .int n => if n < 0 then .error .mismatch else .ok n.toNat
  | .fraction x => .ok x.nearestWord
  | .bool b => .ok (if b then 1 else 0)
  | .str s =>
    if Ascii.lowerText s ∈ trueWords then .ok 1
    else if Ascii.lowerText s ∈ falseWords then .ok 0
    else (Digits.readUpTo? Word.largest64 s.toList).elim (.error .mismatch) .ok
  | _ => .error .mismatch

/-- A word of 64 bits that does not exceed the largest value of the setting. -/
def natural (largest : Nat) : Reader Value Nat := fun v => do
  let n ← word v
  if n ≤ largest then return n else throw .mismatch

/-- A decimal as a text or as a number. A fraction counts as its shortest decimal. -/
def decimal : Reader Value Decimal
  | .int n => (Decimal.ofInt? n).elim (.error .mismatch) .ok
  | .fraction x => (Decimal.readPlain? x.text.toList).elim (.error .mismatch) .ok
  | .str s => (Decimal.read? s).elim (.error .mismatch) .ok
  | _ => .error .mismatch

/-- A section by names, or by the order of its settings. What is not known or too much is passed
over. -/
def section? {α : Type} (r : Record Value α) : Reader Value α
  | .table entries => r.named entries
  | .array items => Prod.fst <$> r.positional items
  | _ => .error .mismatch

def loose : Parts Value := ⟨section?, string, boolean, natural⟩

end WalletBudget.Settings
