import WalletBudget.Service.LimitChange
import WalletBudget.Service.View
import WalletBudget.Wire.Scalar

/-!
Budgets, limits, cycles, connections and views as JSON records.

Each type has its fields in order, which is how it is read, and a writer beside them. The access
token of a connection is read and never written.
-/

namespace WalletBudget

open Json (Decoder)
open Record (build)

def Currency.record : Record Json Currency :=
  (build fun code symbol name (decimals : Nat) => ⟨code, symbol, name, decimals.toUInt8⟩)
    |>.field (.required "code" Json.string)
    |>.field (.required "symbol" Json.string)
    |>.field (.required "name" Json.string)
    |>.field (.required "decimals" (Json.natural 255))

def Currency.fromJson : Decoder Currency := Currency.record.decode

def Currency.toJson (c : Currency) : Json :=
  .obj [("code", .str c.code), ("symbol", .str c.symbol), ("name", .str c.name),
    ("decimals", .nat c.decimals.toNat)]

def Budget.record : Record Json Budget :=
  (build Budget.mk)
    |>.field (.required "amount" Json.int64)
    |>.field (.required "currency" Currency.fromJson)
    |>.field (.required "frequency" Frequency.fromJson)

def Budget.fromJson : Decoder Budget := Budget.record.decode

def Budget.toJson (b : Budget) : Json :=
  .obj [("amount", .int b.amount), ("currency", b.currency.toJson),
    ("frequency", b.frequency.toJson)]

def HoldPolicy.record {V : Type} (decimal : Reader V Decimal) : Record V HoldPolicy :=
  (build HoldPolicy.mk)
    |>.field (.defaulted "buffer_multiplier" decimal HoldPolicy.exact.multiplier)

def HoldPolicy.fromJson : Decoder HoldPolicy :=
  Record.decode (HoldPolicy.record Decimal.fromJson)

def HoldPolicy.toJson (p : HoldPolicy) : Json :=
  .obj [("buffer_multiplier", p.multiplier.toJson)]

def Limit.record : Record Json Limit :=
  (build Limit.mk)
    |>.field (.required "id" Id.fromJson)
    |>.field (.required "connection_id" Id.fromJson)
    |>.field (.required "currency" Currency.fromJson)
    |>.field (.required "amount" Json.int64)
    |>.field (.required "frequency" Frequency.fromJson)
    |>.field (.required "start_time" Instant.fromJson)
    |>.field (.nullable "end_time" Instant.fromJson)

def Limit.fromJson : Decoder Limit := Limit.record.decode

def Limit.toJson (l : Limit) : Json :=
  .obj [("id", l.id.toJson), ("connection_id", l.connection.toJson),
    ("currency", l.currency.toJson), ("amount", .int l.amount), ("frequency", l.frequency.toJson),
    ("start_time", l.start.toJson), ("end_time", .opt Instant.toJson l.finish)]

def Cycle.record : Record Json Cycle :=
  (build Cycle.mk)
    |>.field (.required "id" Id.fromJson)
    |>.field (.required "spending_limit_id" Id.fromJson)
    |>.field (.required "limit_currency" Currency.fromJson)
    |>.field (.required "limit_amount" Json.int64)
    |>.field (.required "start_time" Instant.fromJson)
    |>.field (.nullable "end_time" Instant.fromJson)
    |>.field (.required "total_spent" Json.int64)
    |>.field (.required "total_spent_on_hold" Json.int64)

def Cycle.fromJson : Decoder Cycle := Cycle.record.decode

def Cycle.toJson (c : Cycle) : Json :=
  .obj [("id", c.id.toJson), ("spending_limit_id", c.limit.toJson),
    ("limit_currency", c.currency.toJson), ("limit_amount", .int c.limitAmount),
    ("start_time", c.start.toJson), ("end_time", .opt Instant.toJson c.finish),
    ("total_spent", .int c.spent), ("total_spent_on_hold", .int c.held)]

def Connection.record : Record Json Connection :=
  (build Connection.mk)
    |>.field (.required "id" Id.fromJson)
    |>.field (.required "budget_currency" Currency.fromJson)
    |>.field (.nullable "spending_limit_id" Id.fromJson)
    |>.field (.omissible "vasp_access_token" Json.string)
    |>.field (.required "created_at" Instant.fromJson)

def Connection.fromJson : Decoder Connection := Connection.record.decode

def Connection.toJson (c : Connection) : Json :=
  .obj [("id", c.id.toJson), ("budget_currency", c.budgetCurrency.toJson),
    ("spending_limit_id", .opt Id.toJson c.limit), ("created_at", c.createdAt.toJson)]

def LimitUpdate.record : Record Json LimitUpdate :=
  (build LimitUpdate.mk)
    |>.field (.required "enabled" Json.boolean)
    |>.field (.omissible "amount" Json.int64)
    |>.field (.omissible "currency" Currency.fromJson)
    |>.field (.omissible "frequency" Frequency.fromJson)

def LimitUpdate.fromJson : Decoder LimitUpdate := LimitUpdate.record.decode

def LimitUpdate.toJson (u : LimitUpdate) : Json :=
  .obj [("enabled", .bool u.enabled), ("amount", .opt .int u.amount),
    ("currency", .opt Currency.toJson u.currency), ("frequency", .opt Frequency.toJson u.frequency)]

def CurrencyBudget.record : Record Json CurrencyBudget :=
  (build fun code symbol name (decimals : Nat) total remaining =>
      ⟨code, symbol, name, decimals.toUInt8, total, remaining⟩)
    |>.field (.required "code" Json.string)
    |>.field (.required "symbol" Json.string)
    |>.field (.required "name" Json.string)
    |>.field (.required "decimals" (Json.natural 255))
    |>.field (.required "total_budget" Json.int64)
    |>.field (.required "remaining_budget" Json.int64)

def CurrencyBudget.fromJson : Decoder CurrencyBudget := CurrencyBudget.record.decode

def CurrencyBudget.toJson (b : CurrencyBudget) : Json :=
  .obj [("code", .str b.code), ("symbol", .str b.symbol), ("name", .str b.name),
    ("decimals", .nat b.decimals.toNat), ("total_budget", .int b.total),
    ("remaining_budget", .int b.remaining)]

def BudgetView.record : Record Json BudgetView :=
  (build BudgetView.mk)
    |>.field (.nullable "total_budget_msats" Json.int64)
    |>.field (.nullable "remaining_budget_msats" Json.int64)
    |>.field (.nullable "renews_at" Json.int64)
    |>.field (.nullable "currency" CurrencyBudget.fromJson)

def BudgetView.fromJson : Decoder BudgetView := BudgetView.record.decode

/-- Fields without a value are left out. -/
def BudgetView.toJson (v : BudgetView) : Json :=
  .obj (Json.entry? "total_budget_msats" .int v.totalMsats
    ++ Json.entry? "remaining_budget_msats" .int v.remainingMsats
    ++ Json.entry? "renews_at" .int v.renewsAt
    ++ Json.entry? "currency" CurrencyBudget.toJson v.currency)

end WalletBudget
