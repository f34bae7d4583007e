/-! Largest whole numbers of machine words without sign. -/

namespace WalletBudget.Word

/-- The largest number of 16 bits. -/
def largest16 : Nat := 0xFFFF

/-- The largest number of 32 bits. -/
def largest32 : Nat := 0xFFFFFFFF

/-- The largest number of 64 bits. -/
def largest64 : Nat := 0xFFFFFFFFFFFFFFFF

end WalletBudget.Word
