import WalletBudget.Payment

/-!
Requests that move money, and what they ask to be paid.

Invoices and key payments are asked for in thousandths of a sat and charged in whole sats.
-/

namespace WalletBudget

structure ReceivingAddress where
  address : String
  receiverType : ReceiverType
  deriving DecidableEq

/-- A quote that the service provider gave and can execute. -/
structure QuoteDetails where
  id : QuoteId
  paymentHash : String
  receiver : ReceivingAddress
  sendingCurrency : Currency
  sendingAmount : Int
  deriving DecidableEq

inductive PaymentRequest where
  | payInvoice (invoice : String) (msats : Int)
  | payKeysend (pubkey : String) (msats : Int) (preimage : Option String)
  | payToAddress (receiver : ReceivingAddress) (currency : Currency) (amount : Int)
  | executeQuote (quote : QuoteDetails)
  deriving DecidableEq

/-- Whole sats for thousandths of a sat, rounded up. What is not positive stays as it is. -/
def satsOfMsats (msats : Int) : Int :=
  if msats ≤ 0 then msats else msats / 1000 + (if msats % 1000 = 0 then 0 else 1)

namespace PaymentRequest

def method : PaymentRequest → String
  | .payInvoice _ _ => "pay_invoice"
  | .payKeysend _ _ _ => "pay_keysend"
  | .payToAddress _ _ _ => "pay_to_address"
  | .executeQuote _ => "execute_quote"

def intent : PaymentRequest → Except ValidationError Intent
  | .payInvoice invoice msats => Intent.create invoice .invoice .sat (satsOfMsats msats) none
  | .payKeysend pubkey msats _ => Intent.create pubkey .nodeKey .sat (satsOfMsats msats) none
  | .payToAddress receiver currency amount =>
    Intent.create receiver.address receiver.receiverType currency amount none
  | .executeQuote quote =>
    Intent.create quote.receiver.address quote.receiver.receiverType quote.sendingCurrency
      quote.sendingAmount (some quote.id)

end PaymentRequest

end WalletBudget
