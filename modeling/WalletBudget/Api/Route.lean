import WalletBudget.Text.Ascii
import WalletBudget.Text.Digits
import WalletBudget.Text.Form
import WalletBudget.Word

/-!
Addresses of the admin interface. A path is split at its slashes as it stands; only the segment that
holds a connection's identifier is decoded afterwards. The segment may be empty.
-/

namespace WalletBudget.Api

/-- What a path names. Identifiers are as they stand in the path. -/
inductive Resource where
  | health
  | connections
  | budget (id : String)
  | limit (id : String)
  | limits (id : String)
  | payments (id : String)
  deriving DecidableEq, Repr

def resource? (path : String) : Option Resource :=
  match (Ascii.split '/' path.toList).map String.ofList with
  | ["", "health"] => some .health
  | ["", "api", "v1", "connections"] => some .connections
  | ["", "api", "v1", "connections", id, part] =>
    match part with
    | "budget" => some (.budget id)
    | "limit" => some (.limit id)
    | "limits" => some (.limits id)
    | "payments" => some (.payments id)
    | _ => none
  | _ => none

inductive Action where
  | health
  | createConnection
  | budget (id : String)
  | updateLimit (id : String)
  | disableLimit (id : String)
  | limits (id : String)
  | payments (id : String)
  deriving DecidableEq, Repr

/-- A request for the head of an answer is one for the answer. -/
def Resource.action? (r : Resource) (method : String) : Option Action :=
  let reads := method = "GET" ∨ method = "HEAD"
  match r with
  | .health => if reads then some .health else none
  | .connections => if method = "POST" then some .createConnection else none
  | .budget id => if reads then some (.budget id) else none
  | .limit id =>
    if method = "PUT" then some (.updateLimit id)
    else if method = "DELETE" then some (.disableLimit id)
    else none
  | .limits id => if reads then some (.limits id) else none
  | .payments id => if reads then some (.payments id) else none

def defaultPage : Nat := 50

def largestPage : Nat := 500

/-- The wanted number of payments. It may be given once, in decimal digits. -/
def pageSize? (query : Option String) : Option Nat :=
  let given := (Form.decode (query.getD "")).filter (fun p => p.1 = Percent.bytes "limit")
  match given with
  | [] => some defaultPage
  | [(_, value)] =>
    (Digits.readUpTo? Word.largest64 (value.map Percent.char)).map (min largestPage)
  | _ => none

end WalletBudget.Api
