/-! Variables of the environment by name. -/

namespace WalletBudget

abbrev Environment := List (String × String)

def Environment.get? (env : Environment) (name : String) : Option String := env.lookup name

end WalletBudget
