/-!
# Signed integers of 64 bits

The range of the integers that typed access, scripts and documents admit.
-/

namespace Stepwise

/-- The integers that fit 64 bits with a sign. -/
def fitsInt64 (n : Int) : Bool :=
  decide (-Int.pow 2 63 ≤ n ∧ n < Int.pow 2 63)

end Stepwise
