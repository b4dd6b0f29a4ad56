/-!
# Hexadecimal digits

Digits of base sixteen, in either case.
-/

namespace Stepwise.Text

/-- What a hexadecimal digit counts. -/
def hexDigit? (c : Char) : Option Nat :=
  if c.isDigit then some (c.toNat - '0'.toNat)
  else if 'a' ≤ c ∧ c ≤ 'f' then some (c.toNat - 'a'.toNat + 10)
  else if 'A' ≤ c ∧ c ≤ 'F' then some (c.toNat - 'A'.toNat + 10)
  else none

end Stepwise.Text
