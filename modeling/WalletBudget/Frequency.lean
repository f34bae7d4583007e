import WalletBudget.Validation
import WalletBudget.Text.Ascii

/-!
How often a spending limit renews. Periods have a fixed number of days, whatever the calendar says.
-/

namespace WalletBudget

inductive Frequency where
  | daily
  | weekly
  | monthly
  | yearly
  | never
  deriving DecidableEq, Repr

namespace Frequency

/-- Days of one period. -/
def days? : Frequency → Option Nat
  | .daily => some 1
  | .weekly => some 7
  | .monthly => some 30
  | .yearly => some 365
  | .never => none

/-- Seconds of one period. -/
def period? (f : Frequency) : Option Int := f.days?.map (fun d => (d * 86400 : Int))

def isPeriodic (f : Frequency) : Bool := f.period?.isSome

def name : Frequency → String
  | .daily => "daily"
  | .weekly => "weekly"
  | .monthly => "monthly"
  | .yearly => "yearly"
  | .never => "none"

def all : List Frequency := [.daily, .weekly, .monthly, .yearly, .never]

def ofName? (s : String) : Option Frequency := all.find? (fun f => f.name = s)

/-- Names in any case. The fault names the text in lower case. -/
def read (s : String) : Except ValidationError Frequency :=
  match ofName? (Ascii.lowerText s) with
  | some f => .ok f
  | none => .error (.frequency (Ascii.lowerText s))

end Frequency

end WalletBudget
