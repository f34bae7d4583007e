/-! Rounding of quotients to whole numbers. -/

namespace WalletBudget

/-- The whole number nearest to a quotient of natural numbers, a half to the even neighbour. -/
def roundHalfEven (num den : Nat) : Nat :=
  let q := num / den
  let twice := 2 * (num % den)
  if den < twice ∨ (twice = den ∧ q % 2 = 1) then q + 1 else q

end WalletBudget
