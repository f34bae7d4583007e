import WalletBudget.Amount
import WalletBudget.Currency
import WalletBudget.Identity.Basic

/-!
Payments: what is to be paid, and the record every attempt leaves.

A payment is pending until it has succeeded or failed, and then stays so. A payment that reserved
budget knows its cycle, what it was estimated to cost in the cycle's currency, and what is held.
-/

namespace WalletBudget

inductive PaymentStatus where
  | pending
  | succeeded
  | failed
  deriving DecidableEq, Repr

namespace PaymentStatus

def name : PaymentStatus → String
  | .pending => "PENDING"
  | .succeeded => "SUCCEEDED"
  | .failed => "FAILED"

def all : List PaymentStatus := [.pending, .succeeded, .failed]

def ofName? (s : String) : Option PaymentStatus := all.find? (fun p => p.name = s)

def read (s : String) : Except ValidationError PaymentStatus :=
  (ofName? s).elim (.error (.paymentStatus s)) .ok

def isFinal : PaymentStatus → Bool
  | .pending => false
  | .succeeded => true
  | .failed => true

end PaymentStatus

/-- What a payment is addressed to. -/
inductive ReceiverType where
  | invoice
  | nodeKey
  | lightningAddress
  | humanName
  deriving DecidableEq, Repr

namespace ReceiverType

def name : ReceiverType → String
  | .invoice => "BOLT11_INVOICE"
  | .nodeKey => "NODE_PUBKEY"
  | .lightningAddress => "LUD16"
  | .humanName => "BIP353"

def all : List ReceiverType := [.invoice, .nodeKey, .lightningAddress, .humanName]

def ofName? (s : String) : Option ReceiverType := all.find? (fun r => r.name = s)

def read (s : String) : Except ValidationError ReceiverType :=
  (ofName? s).elim (.error (.receiverType s)) .ok

end ReceiverType

/-- What is paid to whom, in the currency it is sent in. -/
structure Intent where
  receiver : String
  receiverType : ReceiverType
  currency : Currency
  amount : Int
  quote : Option QuoteId
  amount_pos : 0 < amount
  deriving DecidableEq

/-- A positive amount is sent. -/
def Intent.create (receiver : String) (receiverType : ReceiverType) (currency : Currency)
    (amount : Int) (quote : Option QuoteId) : Except ValidationError Intent :=
  if h : amount ≤ 0 then .error (.sendingAmount amount)
  else .ok ⟨receiver, receiverType, currency, amount, quote, Int.not_le.mp h⟩

structure Payment where
  id : PaymentId
  request : RequestId
  connection : ConnectionId
  quote : Option QuoteId
  receiver : String
  receiverType : ReceiverType
  sendingCurrency : Currency
  sendingAmount : Int
  status : PaymentStatus
  cycle : Option CycleId
  budgetCurrency : Option Currency
  estimate : Option Int
  hold : Option Int
  settled : Option Int
  createdAt : Instant
  updatedAt : Instant
  deriving DecidableEq

namespace Payment

/-- A pending payment without a share in any budget. -/
def pending (id : PaymentId) (request : RequestId) (connection : ConnectionId) (intent : Intent)
    (now : Instant) : Payment where
  id
  request
  connection
  quote := intent.quote
  receiver := intent.receiver
  receiverType := intent.receiverType
  sendingCurrency := intent.currency
  sendingAmount := intent.amount
  status := .pending
  cycle := none
  budgetCurrency := none
  estimate := none
  hold := none
  settled := none
  createdAt := now
  updatedAt := now

def isBudgeted (p : Payment) : Bool := p.cycle.isSome

def reserved (p : Payment) (cycle : CycleId) (currency : Currency) (estimate hold : Int) :
    Payment :=
  { p with
    cycle := some cycle
    budgetCurrency := some currency
    estimate := some estimate
    hold := some hold }

def succeed (p : Payment) (settled : Int) (now : Instant) : Payment :=
  { p with status := .succeeded, settled := some settled, updatedAt := now }

def fail (p : Payment) (now : Instant) : Payment :=
  { p with status := .failed, updatedAt := now }

/-- What a payment is taken to have cost when no cost was reported, and whether that is the
estimate. The estimate stands in when the payment was sent in another currency than the budget's. -/
def fallbackCost (p : Payment) : Int × Bool :=
  match p.budgetCurrency, p.estimate with
  | some currency, some estimate =>
    if currency.same p.sendingCurrency then (p.sendingAmount, false) else (estimate, true)
  | _, _ => (p.sendingAmount, false)

end Payment

end WalletBudget
