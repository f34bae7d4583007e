import WalletBudget.Service.Flow
import WalletBudget.Wire.Budget

/-!
Payments, requests to pay and their outcomes as JSON records.

A request names its method in the entry `method`, beside the fields that the method has. In the
array form the method comes first.
-/

namespace WalletBudget

open Json (Decoder)
open Record (build)

/-- A kind of receiver is read in one of two ways. -/
def ReceivingAddress.record (kind : Decoder ReceiverType) : Record Json ReceivingAddress :=
  (build ReceivingAddress.mk)
    |>.field (.required "address" Json.string)
    |>.field (.required "receiver_type" kind)

def ReceivingAddress.fromJson : Decoder ReceivingAddress :=
  (ReceivingAddress.record ReceiverType.fromJson).decode

def ReceivingAddress.toJson (a : ReceivingAddress) : Json :=
  .obj [("address", .str a.address), ("receiver_type", a.receiverType.toJson)]

def QuoteDetails.record (kind : Decoder ReceiverType) : Record Json QuoteDetails :=
  (build QuoteDetails.mk)
    |>.field (.required "id" Id.fromJson)
    |>.field (.required "payment_hash" Json.string)
    |>.field (.required "receiver" (ReceivingAddress.record kind).decode)
    |>.field (.required "sending_currency" Currency.fromJson)
    |>.field (.required "sending_amount" Json.int64)

def QuoteDetails.fromJson : Decoder QuoteDetails :=
  (QuoteDetails.record ReceiverType.fromJson).decode

def QuoteDetails.toJson (q : QuoteDetails) : Json :=
  .obj [("id", q.id.toJson), ("payment_hash", .str q.paymentHash), ("receiver", q.receiver.toJson),
    ("sending_currency", q.sendingCurrency.toJson), ("sending_amount", .int q.sendingAmount)]

namespace PaymentRequest

def payInvoiceRecord : Record Json PaymentRequest :=
  (build PaymentRequest.payInvoice)
    |>.field (.required "invoice" Json.string)
    |>.field (.required "amount_msats" Json.int64)

def payKeysendRecord : Record Json PaymentRequest :=
  (build PaymentRequest.payKeysend)
    |>.field (.required "pubkey" Json.string)
    |>.field (.required "amount_msats" Json.int64)
    |>.field (.omissible "preimage" Json.string)

def payToAddressRecord : Record Json PaymentRequest :=
  (build PaymentRequest.payToAddress)
    |>.field (.required "receiver" (ReceivingAddress.record ReceiverType.fromKept).decode)
    |>.field (.required "sending_currency" Currency.fromJson)
    |>.field (.required "sending_amount" Json.int64)

def executeQuoteRecord : Record Json PaymentRequest :=
  (build PaymentRequest.executeQuote)
    |>.field (.required "quote" (QuoteDetails.record ReceiverType.fromKept).decode)

/-- The fields of each method. -/
def records : List (String × Record Json PaymentRequest) :=
  [("pay_invoice", payInvoiceRecord), ("pay_keysend", payKeysendRecord),
    ("pay_to_address", payToAddressRecord), ("execute_quote", executeQuoteRecord)]

def decodeMethod (method fields : Json) : Except Fault PaymentRequest := do
  match records.lookup (← Json.string method) with
  | some record => record.decode fields
  | none => throw .mismatch

/-- All of the value is read before its method decides what is wanted of it. -/
def fromJson : Decoder PaymentRequest := fun j =>
  if j.isSound = false then .error .malformed
  else match j with
    | .obj entries =>
      match entries.filter (fun e => e.1 = "method") with
      | [(_, method)] => decodeMethod method (.obj (entries.filter (fun e => e.1 ≠ "method")))
      | _ => .error .mismatch
    | .arr (method :: fields) => decodeMethod method (.arr fields)
    | _ => .error .mismatch

def fieldsJson : PaymentRequest → List (String × Json)
  | .payInvoice invoice msats => [("invoice", .str invoice), ("amount_msats", .int msats)]
  | .payKeysend pubkey msats preimage =>
    [("pubkey", .str pubkey), ("amount_msats", .int msats)] ++ Json.entry? "preimage" .str preimage
  | .payToAddress receiver currency amount =>
    [("receiver", receiver.toJson), ("sending_currency", currency.toJson),
      ("sending_amount", .int amount)]
  | .executeQuote quote => [("quote", quote.toJson)]

def toJson (r : PaymentRequest) : Json := .obj (("method", .str r.method) :: r.fieldsJson)

end PaymentRequest

def Payment.record : Record Json Payment :=
  (build Payment.mk)
    |>.field (.required "id" Id.fromJson)
    |>.field (.required "request_id" Id.fromJson)
    |>.field (.required "connection_id" Id.fromJson)
    |>.field (.nullable "quote_id" Id.fromJson)
    |>.field (.required "receiver" Json.string)
    |>.field (.required "receiver_type" ReceiverType.fromJson)
    |>.field (.required "sending_currency" Currency.fromJson)
    |>.field (.required "sending_amount" Json.int64)
    |>.field (.required "status" PaymentStatus.fromJson)
    |>.field (.nullable "spending_cycle_id" Id.fromJson)
    |>.field (.nullable "budget_currency" Currency.fromJson)
    |>.field (.nullable "estimated_budget_amount" Json.int64)
    |>.field (.nullable "budget_on_hold" Json.int64)
    |>.field (.nullable "settled_budget_amount" Json.int64)
    |>.field (.required "created_at" Instant.fromJson)
    |>.field (.required "updated_at" Instant.fromJson)

def Payment.fromJson : Decoder Payment := Payment.record.decode

def Payment.toJson (p : Payment) : Json :=
  .obj [("id", p.id.toJson), ("request_id", p.request.toJson),
    ("connection_id", p.connection.toJson), ("quote_id", .opt Id.toJson p.quote),
    ("receiver", .str p.receiver), ("receiver_type", p.receiverType.toJson),
    ("sending_currency", p.sendingCurrency.toJson), ("sending_amount", .int p.sendingAmount),
    ("status", p.status.toJson), ("spending_cycle_id", .opt Id.toJson p.cycle),
    ("budget_currency", .opt Currency.toJson p.budgetCurrency),
    ("estimated_budget_amount", .opt .int p.estimate), ("budget_on_hold", .opt .int p.hold),
    ("settled_budget_amount", .opt .int p.settled), ("created_at", p.createdAt.toJson),
    ("updated_at", p.updatedAt.toJson)]

def PaymentOutcome.record : Record Json PaymentOutcome :=
  (build PaymentOutcome.mk)
    |>.field (.nullable "preimage" Json.string)
    |>.field (.nullable "settled_budget_amount" Json.int64)

def PaymentOutcome.fromJson : Decoder PaymentOutcome := PaymentOutcome.record.decode

def PaymentOutcome.toJson (o : PaymentOutcome) : Json :=
  .obj [("preimage", .opt .str o.preimage), ("settled_budget_amount", .opt .int o.settled)]

def PaymentReceipt.record : Record Json PaymentReceipt :=
  (build PaymentReceipt.mk)
    |>.field (.required "payment" Payment.fromJson)
    |>.field (.nullable "preimage" Json.string)

def PaymentReceipt.fromJson : Decoder PaymentReceipt := PaymentReceipt.record.decode

def PaymentReceipt.toJson (r : PaymentReceipt) : Json :=
  .obj [("payment", r.payment.toJson), ("preimage", .opt .str r.preimage)]

end WalletBudget
