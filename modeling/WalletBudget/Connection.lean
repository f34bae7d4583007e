import WalletBudget.Currency
import WalletBudget.Identity.Basic

/-!
Connections of client applications to a wallet. A connection points to its active limit; limits that
have ended are only in its history.
-/

namespace WalletBudget

/-- New limits are in the budget currency unless they say otherwise. The token acts on the user's
behalf at the service provider and never leaves the service. -/
structure Connection where
  id : ConnectionId
  budgetCurrency : Currency
  limit : Option LimitId
  accessToken : Option String
  createdAt : Instant
  deriving DecidableEq

def Connection.create (id : ConnectionId) (currency : Currency) (token : Option String)
    (now : Instant) : Connection :=
  ⟨id, currency, none, token, now⟩

end WalletBudget
