import Stepwise.Number.Double
/-!
# Shortest decimal text of a double

`Double.shortest` is the decimal with the fewest digits that rounds to the given double, and among
those the one nearest to it. The reals that round to a double form an interval, whose ends belong
to it exactly when the significand is even; a decimal grid is tried for one digit, two digits and
so on, and on each grid only the two neighbours of the double can lie in the interval closest to it.
`Double.text` lays the digits out.
-/

namespace Stepwise

/-- The number `digits * 10 ^ exponent`. -/
structure Decimal where
  digits : Nat
  exponent : Int
deriving DecidableEq, Repr

namespace Double

/-- The number of decimal digits of a natural number. -/
def digitCount (n : Nat) : Nat :=
  (Nat.toDigits 10 n).length

/-- Counts how often `num` must be multiplied by ten to reach `den`, giving up after `tries`. -/
def tensToReach (num den : Nat) : Nat → Nat
  | 0 => 0
  | tries + 1 => if den ≤ num then 0 else tensToReach (num * 10) den tries + 1

/-- The `k` with `10 ^ (k - 1) ≤ num / den < 10 ^ k`, for a positive double `num / den`. -/
def decimalPoint (num den : Nat) : Int :=
  if den ≤ num then digitCount (num / den) else 1 - (tensToReach num den 400 : Int)

/--
The decimals that round to a double, around its own value: all three numbers are in units of
`1 / unit`, and the ends count when `closed`.
-/
structure Rounding where
  lower : Nat
  value : Nat
  upper : Nat
  unit : Nat
  closed : Bool

/--
The interval of reals that round to a finite positive double. Its ends lie halfway to the
neighbouring doubles, and the one below a power of two is only half as far away.
-/
def rounding (d : Double) : Rounding :=
  let quarters := 4 * d.significand
  let below := if d.fraction = 0 ∧ 1 < d.exponentField then 1 else 2
  let shift := d.scale - 2
  let factor := Nat.pow 2 shift.toNat
  { lower := (quarters - below) * factor
    value := quarters * factor
    upper := (quarters + 2) * factor
    unit := Nat.pow 2 (-shift).toNat
    closed := d.significand % 2 == 0 }

namespace Rounding

def holds (r : Rounding) (num den : Nat) : Bool :=
  let scaled := num * r.unit
  if r.closed then r.lower * den ≤ scaled && scaled ≤ r.upper * den
  else r.lower * den < scaled && scaled < r.upper * den

/--
The best decimal of the grid with spacing `10 ^ exponent`: of the two neighbours of the value, the
nearer one in the interval, an exact tie going to the even digits.
-/
def onGrid? (r : Rounding) (exponent : Int) : Option Nat :=
  let up := Nat.pow 10 exponent.toNat
  let down := Nat.pow 10 (-exponent).toNat
  let num := r.value * down
  let den := r.unit * up
  let floor := num / den
  let remainder := num % den
  let low := r.holds (floor * up) down
  let high := r.holds ((floor + 1) * up) down
  if low && high then
    if 2 * remainder < den then some floor
    else if den < 2 * remainder then some (floor + 1)
    else some (floor + floor % 2)
  else if low then some floor
  else if high then some (floor + 1)
  else none

/-- Tries grids of growing precision, `tries` of them. -/
def search (r : Rounding) (exponent : Int) : Nat → Decimal
  | 0 => ⟨0, 0⟩
  | tries + 1 =>
    match r.onGrid? exponent with
    | some digits => ⟨digits, exponent⟩
    | none => r.search (exponent - 1) tries

end Rounding

/-- Seventeen digits always suffice for a finite double that is not zero. -/
def shortest (d : Double) : Decimal :=
  let r := d.rounding
  r.search (decimalPoint r.value r.unit - 1) 17

/-- Digits without the zeros at their end, which move into the exponent. -/
def dropZeros (digits : List Char) : List Char :=
  (digits.reverse.dropWhile (· == '0')).reverse

/--
Lays digits out around the decimal point: positional when the exponent of the first digit is from
-5 to 15, always with a digit after the point, and otherwise with a signed exponent.
-/
def layout (digits : List Char) (first : Int) : String :=
  if -5 ≤ first ∧ first < 0 then
    "0." ++ String.ofList (List.replicate (-first - 1).toNat '0' ++ digits)
  else if 0 ≤ first ∧ first ≤ 15 then
    let places := first.toNat + 1
    let whole := digits.take places ++ List.replicate (places - digits.length) '0'
    let rest := digits.drop places
    String.ofList whole ++ "." ++ (if rest.isEmpty then "0" else String.ofList rest)
  else
    let sign := if first < 0 then "-" else "+"
    let rest := digits.drop 1
    String.ofList (digits.take 1) ++ (if rest.isEmpty then "" else "." ++ String.ofList rest)
      ++ "e" ++ sign ++ toString first.natAbs

/-- The shortest text that reads back as this finite double. -/
def text (d : Double) : String :=
  let sign := if d.isNegative then "-" else ""
  if d.isZero then sign ++ "0.0"
  else
    let decimal := d.shortest
    let digits := Nat.toDigits 10 decimal.digits
    sign ++ layout (dropZeros digits) (decimal.exponent + digits.length - 1)

end Double

end Stepwise
