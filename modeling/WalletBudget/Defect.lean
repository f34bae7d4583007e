import WalletBudget.Identity.Basic
import WalletBudget.Instant.Text
import WalletBudget.Frequency

/-!
Defects: what a running operation must never meet. No caller gets one as an answer; the operation
stops in its tracks.
-/

namespace WalletBudget

inductive Defect where
  /-- An amount left the range of 64 bits. -/
  | amountRange
  /-- A product left the range of decimals. -/
  | productRange
  /-- An instant left the range of dates. -/
  | instantRange
  /-- A part of a text was wanted whose end comes before its start. -/
  | partRange
  /-- A part of a text was wanted that starts or ends within a character or behind the text. -/
  | partBoundary
  /-- An item of an array was wanted that no array can have. -/
  | itemRange
  /-- An entry had a key that is neither a text nor a whole number. -/
  | keyKind
  | cycleBeforeLimit (start : Instant) (limit : LimitId) (limitStart : Instant)
  | cycleOffPeriod (start : Instant) (limit : LimitId) (frequency : Frequency)
      (limitStart : Instant)
  deriving DecidableEq

namespace Defect

/-- The words of the two defects that a wrong start of a cycle has. -/
def message? : Defect → Option String
  | .cycleBeforeLimit start limit limitStart =>
    some ("cycle start " ++ start.text ++ " precedes limit " ++ limit.text ++ " start "
      ++ limitStart.text)
  | .cycleOffPeriod start limit frequency limitStart =>
    some ("cycle start " ++ start.text ++ " is not aligned to limit " ++ limit.text ++ " ("
      ++ frequency.name ++ " periods from " ++ limitStart.text ++ ")")
  | _ => none

end Defect

/-- The value, which is a defect to lack. -/
def orDefect {α : Type} (d : Defect) : Option α → Except Defect α
  | some a => .ok a
  | none => .error d

end WalletBudget
