import WalletBudget.Database.Row
import WalletBudget.Wire.Budget

/-! Rows of the database as JSON records, whose fields are the columns. -/

namespace WalletBudget

open Json (Decoder)
open Record (build)

def ConnectionRow.record : Record Json ConnectionRow :=
  (build ConnectionRow.mk)
    |>.field (.required "id" Uuid.fromJson)
    |>.field (.required "budget_currency" Currency.fromJson)
    |>.field (.nullable "spending_limit_id" Uuid.fromJson)
    |>.field (.nullable "vasp_access_token" Json.string)
    |>.field (.required "created_at" Instant.fromJson)

def LimitRow.record : Record Json LimitRow :=
  (build LimitRow.mk)
    |>.field (.required "id" Uuid.fromJson)
    |>.field (.required "connection_id" Uuid.fromJson)
    |>.field (.required "currency" Currency.fromJson)
    |>.field (.required "amount" Json.int64)
    |>.field (.required "frequency" Json.string)
    |>.field (.required "start_time" Instant.fromJson)
    |>.field (.nullable "end_time" Instant.fromJson)

def CycleRow.record : Record Json CycleRow :=
  (build CycleRow.mk)
    |>.field (.required "id" Uuid.fromJson)
    |>.field (.required "spending_limit_id" Uuid.fromJson)
    |>.field (.required "limit_currency" Currency.fromJson)
    |>.field (.required "limit_amount" Json.int64)
    |>.field (.required "start_time" Instant.fromJson)
    |>.field (.nullable "end_time" Instant.fromJson)
    |>.field (.required "total_spent" Json.int64)
    |>.field (.required "total_spent_on_hold" Json.int64)

def PaymentRow.record : Record Json PaymentRow :=
  (build PaymentRow.mk)
    |>.field (.required "id" Uuid.fromJson)
    |>.field (.required "request_id" Uuid.fromJson)
    |>.field (.required "connection_id" Uuid.fromJson)
    |>.field (.nullable "quote_id" Uuid.fromJson)
    |>.field (.required "receiver" Json.string)
    |>.field (.required "receiver_type" Json.string)
    |>.field (.required "sending_currency" Currency.fromJson)
    |>.field (.required "sending_amount" Json.int64)
    |>.field (.required "status" Json.string)
    |>.field (.nullable "spending_cycle_id" Uuid.fromJson)
    |>.field (.nullable "budget_currency" Currency.fromJson)
    |>.field (.nullable "estimated_budget_amount" Json.int64)
    |>.field (.nullable "budget_on_hold" Json.int64)
    |>.field (.nullable "settled_budget_amount" Json.int64)
    |>.field (.required "created_at" Instant.fromJson)
    |>.field (.required "updated_at" Instant.fromJson)

end WalletBudget
