import WalletBudget.Amount
import WalletBudget.Currency
import WalletBudget.Frequency

/-!
Budgets in their short text form `100.USD/weekly`.

The currency and the frequency may be left out: `100` is a hundred sats that never renew. All three
parts are written.
-/

namespace WalletBudget

structure Budget where
  amount : Int
  currency : Currency
  frequency : Frequency
  deriving DecidableEq

namespace Budget

def text (b : Budget) : String :=
  Digits.signed b.amount ++ "." ++ b.currency.code ++ "/" ++ b.frequency.name

/-- The part behind the slash, if there is one. -/
def frequencyOf (whole : String) :
    Option (List Char) → Except ValidationError Frequency
  | none => .ok .never
  | some [] => .error (.budgetText whole .frequencyMissing)
  | some cs => Frequency.read (String.ofList cs)

/-- The part between the point and the slash, if there is one. -/
def currencyOf (whole : String) :
    Option (List Char) → Except ValidationError Currency
  | none => .ok Currency.sat
  | some [] => .error (.budgetText whole .currencyMissing)
  | some cs => Currency.ofCode (String.ofList cs)

/-- Digits alone, for a positive amount in range. -/
def amountOf (cs : List Char) : Except BudgetTextFault Int :=
  if cs = [] then .error .amountMissing
  else match Digits.read? cs with
    | none => .error .amountNotInteger
    | some n =>
      if largestAmount < n then .error .amountNotInteger
      else if n = 0 then .error .amountNotPositive
      else .ok n

/-- The text before the first place of a character, and what follows it if it occurs. -/
def cut (sep : Char) (cs : List Char) : List Char × Option (List Char) :=
  match Ascii.splitOnce sep cs with
  | some (before, after) => (before, some after)
  | none => (cs, none)

/-- The frequency is checked first, then the currency, then the amount. -/
def read (s : String) : Except ValidationError Budget := do
  let (head, frequencyPart) := cut '/' s.toList
  let frequency ← frequencyOf s frequencyPart
  let (amountPart, currencyPart) := cut '.' head
  let currency ← currencyOf s currencyPart
  match amountOf amountPart with
  | .ok amount => return ⟨amount, currency, frequency⟩
  | .error fault => throw (.budgetText s fault)

end Budget

end WalletBudget
