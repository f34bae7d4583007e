import WalletBudget.Budget
import WalletBudget.HoldPolicy
import WalletBudget.Decimal.Read
import WalletBudget.Instant.Text
import WalletBudget.Json.Record
import WalletBudget.Payment

/-!
Scalars of records in JSON: identifiers without their tags, instants as stamps, words of fixed
lists, and decimals, which are also read from numbers.
-/

namespace WalletBudget

open Json (Decoder)

def Uuid.fromJson : Decoder Uuid := Json.parsed (fun s => (Uuid.read s).toOption)

def Uuid.toJson (u : Uuid) : Json := .str u.text

def Id.fromJson {kind : Kind} : Decoder (Id kind) := fun j => Id.mk <$> Uuid.fromJson j

def Id.toJson {kind : Kind} (id : Id kind) : Json := id.uuid.toJson

def Instant.fromJson : Decoder Instant := Json.parsed Instant.readLoose?

def Instant.toJson (t : Instant) : Json := .str t.stamp

def Frequency.fromJson : Decoder Frequency := Json.word Frequency.ofName?

def Frequency.toJson (f : Frequency) : Json := .str f.name

def PaymentStatus.fromJson : Decoder PaymentStatus := Json.word PaymentStatus.ofName?

def PaymentStatus.toJson (s : PaymentStatus) : Json := .str s.name

def ReceiverType.fromJson : Decoder ReceiverType := Json.word ReceiverType.ofName?

/-- A kind of receiver in a value that is kept whole before it is decoded. -/
def ReceiverType.fromKept : Decoder ReceiverType := Json.keptWord ReceiverType.ofName?

def ReceiverType.toJson (r : ReceiverType) : Json := .str r.name

/-- A decimal as text, or as a number. A fraction counts as its shortest decimal. -/
def Decimal.fromJson : Decoder Decimal
  | .num n =>
    match n.value? with
    | none => .error .malformed
    | some (.whole i) => (Decimal.ofInt? i).elim (.error .mismatch) .ok
    | some (.float x) => (Decimal.ofBinary? x).elim (.error .mismatch) .ok
  | j => Json.parsed Decimal.read? j

def Decimal.toJson (d : Decimal) : Json := .str d.text

end WalletBudget
