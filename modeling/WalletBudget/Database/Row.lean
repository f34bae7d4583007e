import WalletBudget.Connection
import WalletBudget.Cycle
import WalletBudget.Database.Error
import WalletBudget.Limit

/-!
Rows of the database, and the records they stand for.

Identifiers have lost their kinds in a row, and words of fixed lists are plain text. A row with a
word of no list is corrupt.
-/

namespace WalletBudget

structure ConnectionRow where
  id : Uuid
  budgetCurrency : Currency
  limit : Option Uuid
  accessToken : Option String
  createdAt : Instant
  deriving DecidableEq

def ConnectionRow.connection (r : ConnectionRow) : Connection :=
  ⟨⟨r.id⟩, r.budgetCurrency, r.limit.map Id.mk, r.accessToken, r.createdAt⟩

structure LimitRow where
  id : Uuid
  connection : Uuid
  currency : Currency
  amount : Int
  frequency : String
  start : Instant
  finish : Option Instant
  deriving DecidableEq

/-- A word of a row, or the report of the row that holds it. -/
def rowWord {α : Type} (table : String) (id : Uuid) (read : Except ValidationError α) :
    Except DatabaseError α :=
  match read with
  | .ok a => .ok a
  | .error e => .error (.corrupt (table ++ " " ++ id.text ++ ": " ++ e.message))

def LimitRow.limit (r : LimitRow) : Except DatabaseError Limit := do
  let frequency ← rowWord "spending limit" r.id (Frequency.read r.frequency)
  return ⟨⟨r.id⟩, ⟨r.connection⟩, r.currency, r.amount, frequency, r.start, r.finish⟩

structure CycleRow where
  id : Uuid
  limit : Uuid
  currency : Currency
  limitAmount : Int
  start : Instant
  finish : Option Instant
  spent : Int
  held : Int
  deriving DecidableEq

def CycleRow.cycle (r : CycleRow) : Cycle :=
  ⟨⟨r.id⟩, ⟨r.limit⟩, r.currency, r.limitAmount, r.start, r.finish, r.spent, r.held⟩

structure PaymentRow where
  id : Uuid
  request : Uuid
  connection : Uuid
  quote : Option Uuid
  receiver : String
  receiverType : String
  sendingCurrency : Currency
  sendingAmount : Int
  status : String
  cycle : Option Uuid
  budgetCurrency : Option Currency
  estimate : Option Int
  hold : Option Int
  settled : Option Int
  createdAt : Instant
  updatedAt : Instant
  deriving DecidableEq

/-- The type of the receiver is looked at before the status. -/
def PaymentRow.payment (r : PaymentRow) : Except DatabaseError Payment := do
  let receiverType ← rowWord "payment" r.id (ReceiverType.read r.receiverType)
  let status ← rowWord "payment" r.id (PaymentStatus.read r.status)
  return {
    id := ⟨r.id⟩
    request := ⟨r.request⟩
    connection := ⟨r.connection⟩
    quote := r.quote.map Id.mk
    receiver := r.receiver
    receiverType
    sendingCurrency := r.sendingCurrency
    sendingAmount := r.sendingAmount
    status
    cycle := r.cycle.map Id.mk
    budgetCurrency := r.budgetCurrency
    estimate := r.estimate
    hold := r.hold
    settled := r.settled
    createdAt := r.createdAt
    updatedAt := r.updatedAt }

end WalletBudget
