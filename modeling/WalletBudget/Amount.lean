/-!
Amounts of money in the smallest unit of a currency, in the range of 64 bits with sign.

Sums and differences that leave the range are defects of the running program, not refusals: no
caller is told of them.
-/

namespace WalletBudget

def leastAmount : Int := -0x8000000000000000

def largestAmount : Int := 0x7FFFFFFFFFFFFFFF

def inRange (n : Int) : Bool := leastAmount ≤ n && n ≤ largestAmount

/-- The nearest amount in the range. -/
def saturate (n : Int) : Int := max leastAmount (min largestAmount n)

end WalletBudget
