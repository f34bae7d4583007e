import WalletBudget.Json.Record

/-!
Bodies of requests to the service provider and of its answers. Fields without a value are left out
of requests.
-/

namespace WalletBudget

open Json (Decoder)
open Record (build)

structure EstimateAnswer where
  amount : Int
  deriving DecidableEq, Repr

structure PayInvoiceBody where
  invoice : String
  amount : Option Int
  budgetCurrency : Option String
  deriving DecidableEq, Repr

structure PayKeysendBody where
  amount : Int
  pubkey : String
  preimage : Option String
  budgetCurrency : Option String
  deriving DecidableEq, Repr

structure PayToAddressBody where
  receiver : String
  sendingCurrency : String
  sendingAmount : Int
  budgetCurrency : Option String
  deriving DecidableEq, Repr

/-- The cost is in the budget currency that was asked for. -/
structure PaymentAnswer where
  preimage : String
  cost : Option Int
  deriving DecidableEq, Repr

namespace EstimateAnswer

def fromJson : Decoder EstimateAnswer :=
  ((build EstimateAnswer.mk).field (.required "estimated_budget_currency_amount" Json.int64)).decode

def toJson (a : EstimateAnswer) : Json := .obj [("estimated_budget_currency_amount", .int a.amount)]

end EstimateAnswer

namespace PayInvoiceBody

def record : Record Json PayInvoiceBody :=
  (build PayInvoiceBody.mk)
    |>.field (.required "invoice" Json.string)
    |>.field (.nullable "amount" Json.int64)
    |>.field (.nullable "budget_currency_code" Json.string)

def fromJson : Decoder PayInvoiceBody := record.decode

def toJson (b : PayInvoiceBody) : Json :=
  .obj ([("invoice", .str b.invoice)] ++ Json.entry? "amount" .int b.amount
    ++ Json.entry? "budget_currency_code" .str b.budgetCurrency)

end PayInvoiceBody

namespace PayKeysendBody

def record : Record Json PayKeysendBody :=
  (build PayKeysendBody.mk)
    |>.field (.required "amount" Json.int64)
    |>.field (.required "pubkey" Json.string)
    |>.field (.nullable "preimage" Json.string)
    |>.field (.nullable "budget_currency_code" Json.string)

def fromJson : Decoder PayKeysendBody := record.decode

def toJson (b : PayKeysendBody) : Json :=
  .obj ([("amount", .int b.amount), ("pubkey", .str b.pubkey)]
    ++ Json.entry? "preimage" .str b.preimage
    ++ Json.entry? "budget_currency_code" .str b.budgetCurrency)

end PayKeysendBody

namespace PayToAddressBody

def record : Record Json PayToAddressBody :=
  (build PayToAddressBody.mk)
    |>.field (.required "receiver_address" Json.string)
    |>.field (.required "sending_currency_code" Json.string)
    |>.field (.required "sending_currency_amount" Json.int64)
    |>.field (.nullable "budget_currency_code" Json.string)

def fromJson : Decoder PayToAddressBody := record.decode

def toJson (b : PayToAddressBody) : Json :=
  .obj ([("receiver_address", .str b.receiver), ("sending_currency_code", .str b.sendingCurrency),
      ("sending_currency_amount", .int b.sendingAmount)]
    ++ Json.entry? "budget_currency_code" .str b.budgetCurrency)

end PayToAddressBody

namespace PaymentAnswer

def record : Record Json PaymentAnswer :=
  (build PaymentAnswer.mk)
    |>.field (.required "preimage" Json.string)
    |>.field (.omissible "total_budget_currency_amount" Json.int64)

def fromJson : Decoder PaymentAnswer := record.decode

def toJson (a : PaymentAnswer) : Json :=
  .obj [("preimage", .str a.preimage), ("total_budget_currency_amount", .opt .int a.cost)]

end PaymentAnswer

end WalletBudget
