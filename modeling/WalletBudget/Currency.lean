import WalletBudget.Validation
import WalletBudget.Text.Ascii

/-!
Currencies that label amounts. An amount is always a whole number of the smallest unit.

Two descriptors name the same currency when their codes agree, whatever else they say. A peer may
describe a currency in its own words.
-/

namespace WalletBudget

structure Currency where
  code : String
  symbol : String
  name : String
  decimals : UInt8
  deriving DecidableEq

namespace Currency

def same (a b : Currency) : Bool := a.code = b.code

def satCode : String := "SAT"

def sat : Currency := ⟨satCode, "sat", "Satoshi", 0⟩

def isSat (c : Currency) : Bool := c.code = satCode

/-- Descriptors that are known by their codes. -/
def known : List Currency :=
  [ sat,
    ⟨"BTC", "₿", "Bitcoin", 8⟩,
    ⟨"USD", "$", "US Dollar", 2⟩,
    ⟨"EUR", "€", "Euro", 2⟩,
    ⟨"GBP", "£", "Pound Sterling", 2⟩,
    ⟨"MXN", "$", "Mexican Peso", 2⟩,
    ⟨"CAD", "$", "Canadian Dollar", 2⟩,
    ⟨"BRL", "R$", "Brazilian Real", 2⟩,
    ⟨"INR", "₹", "Indian Rupee", 2⟩,
    ⟨"JPY", "¥", "Japanese Yen", 0⟩,
    ⟨"KRW", "₩", "South Korean Won", 0⟩ ]

/-- The known descriptor of an upper-case code. Any other code describes itself, with two
decimals. -/
def describe (code : String) : Currency :=
  (known.find? (fun c => c.code = code)).getD ⟨code, code, code, 2⟩

def isCode (s : String) : Bool := s.toList.length = 3 && s.toList.all Ascii.isLetter

/-- A code is three letters in either case. -/
def ofCode (s : String) : Except ValidationError Currency :=
  if isCode s then .ok (describe (Ascii.upperText s)) else .error (.currencyCode s)

end Currency

end WalletBudget
