import WalletBudget.Identity.Uuid

/-!
Identifiers by kind. A cycle's identifier cannot be passed where a limit's is expected.

In messages an identifier stands behind the tag of its kind; in records it stands alone. Both forms
are read.
-/

namespace WalletBudget

inductive Kind where
  | connection
  | limit
  | cycle
  | payment
  | request
  | quote
  deriving DecidableEq, Repr

def Kind.tag : Kind → String
  | .connection => "conn"
  | .limit => "limit"
  | .cycle => "cycle"
  | .payment => "payment"
  | .request => "req"
  | .quote => "quote"

structure Id (kind : Kind) where
  uuid : Uuid
  deriving DecidableEq

namespace Id

variable {kind : Kind}

def text (id : Id kind) : String := kind.tag ++ "_" ++ id.uuid.text

/-- The text without the tag of the kind, if it has it. -/
def untagged (kind : Kind) (s : String) : String :=
  match Ascii.strip? (kind.tag ++ "_").toList s.toList with
  | some rest => String.ofList rest
  | none => s

def read (kind : Kind) (s : String) : Except Uuid.ReadFault (Id kind) :=
  Id.mk <$> Uuid.read (untagged kind s)

end Id

abbrev ConnectionId := Id .connection

abbrev LimitId := Id .limit

abbrev CycleId := Id .cycle

abbrev PaymentId := Id .payment

abbrev RequestId := Id .request

abbrev QuoteId := Id .quote

end WalletBudget
