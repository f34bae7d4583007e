import WalletBudget.Environment
import WalletBudget.Json.Record
import WalletBudget.Text.Ascii
import WalletBudget.Word

/-! Where and how the service provider's interface is reached. -/

namespace WalletBudget

structure VaspConfig where
  baseUrl : String
  timeoutSecs : Nat
  userAgent : String
  deriving DecidableEq, Repr

namespace VaspConfig

def defaultTimeoutSecs : Nat := 30

def defaultUserAgent : String := "NWC"

/-- The base URL of the environment, or one of this machine. -/
def default (env : Environment) : VaspConfig :=
  ⟨(env.get? "VASP_UMA_API_BASE_URL").getD "http://localhost:9000/umanwc", defaultTimeoutSecs,
    defaultUserAgent⟩

/-- One slash joins the base URL and a path, whatever slashes they end and begin with. -/
def url (c : VaspConfig) (path : String) : String :=
  let base := (c.baseUrl.toList.reverse.dropWhile (· = '/')).reverse
  String.ofList (base ++ '/' :: path.toList.dropWhile (· = '/'))

/-- Header values hold visible characters, blanks and tabs. -/
def isHeaderValue (s : String) : Bool :=
  s.toList.all (fun c => c = '\t' || (c.toNat ≥ 32 && c.toNat ≠ 127))

def record {V : Type} (parts : Parts V) : Record V VaspConfig :=
  (Record.build VaspConfig.mk)
    |>.field (.required "base_url" parts.string)
    |>.field (.defaulted "timeout_secs" (parts.natural Word.largest64) defaultTimeoutSecs)
    |>.field (.defaulted "user_agent" parts.string defaultUserAgent)

def fromJson : Json.Decoder VaspConfig := Record.decode (record Json.strict)

def toJson (c : VaspConfig) : Json :=
  .obj [("base_url", .str c.baseUrl), ("timeout_secs", .nat c.timeoutSecs),
    ("user_agent", .str c.userAgent)]

end VaspConfig

end WalletBudget
