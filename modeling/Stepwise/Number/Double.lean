/-!
# Binary64 numbers

A `Double` is given by its 64 bits, so that two of them are equal exactly when every bit is.
Conversions are exact arithmetic on natural numbers: `magnitudeBits` rounds a quotient to the
nearest binary64 magnitude, a tie going to the even neighbour, and everything else is built on it.
-/

namespace Stepwise

/-- The quotient `num / den` rounded to the nearest natural number, a tie to the even one. -/
def roundQuotient (num den : Nat) : Nat :=
  let quotient := num / den
  let remainder := num % den
  if 2 * remainder < den then quotient
  else if den < 2 * remainder then quotient + 1
  else quotient + quotient % 2

/-- A binary64 number, given by its bits. -/
structure Double where
  bits : UInt64
deriving DecidableEq, Repr

namespace Double

def signBit : Nat := Nat.pow 2 63

/-- The bits of positive infinity, above those of every finite magnitude. -/
def infinityBits : Nat := 2047 * Nat.pow 2 52

def isNegative (d : Double) : Bool :=
  signBit ≤ d.bits.toNat

def exponentField (d : Double) : Nat :=
  d.bits.toNat / Nat.pow 2 52 % Nat.pow 2 11

def fraction (d : Double) : Nat :=
  d.bits.toNat % Nat.pow 2 52

def isFinite (d : Double) : Bool :=
  d.exponentField != 2047

/-- Zero of either sign. -/
def isZero (d : Double) : Bool :=
  d.exponentField == 0 && d.fraction == 0

def isNaN (d : Double) : Bool :=
  d.exponentField == 2047 && d.fraction != 0

/-- The magnitude of a finite double is `significand * 2 ^ scale`. -/
def significand (d : Double) : Nat :=
  if d.exponentField = 0 then d.fraction else Nat.pow 2 52 + d.fraction

def scale (d : Double) : Int :=
  max 1 d.exponentField - 1075

/-- The largest `k` with `2 ^ k ≤ num / den`, for positive `num` and `den`. -/
def binade (num den : Nat) : Int :=
  let k : Int := (num.log2 : Int) - den.log2
  if den * Nat.pow 2 k.toNat ≤ num * Nat.pow 2 (-k).toNat then k else k - 1

/--
The bits of the binary64 magnitude nearest to `num / den`. The significand is rounded in units of
`2 ^ unit`; adding it to the exponent field carries by itself when rounding reaches the next binade.
-/
def magnitudeBits (num den : Nat) : Nat :=
  if num = 0 then 0
  else
    let unit : Int := max (-1074) (binade num den - 52)
    let rounded := roundQuotient (num * Nat.pow 2 (-unit).toNat) (den * Nat.pow 2 unit.toNat)
    min infinityBits (rounded + (unit + 1074).toNat * Nat.pow 2 52)

def ofMagnitude (negative : Bool) (magnitude : Nat) : Double :=
  ⟨UInt64.ofNat ((if negative then signBit else 0) + magnitude)⟩

/-- The double nearest to an integer. -/
def ofInt (n : Int) : Double :=
  ofMagnitude (n < 0) (magnitudeBits n.natAbs 1)

/--
The double nearest to `digits * 10 ^ exponent`. Powers of ten outside the range of binary64 are
settled first, so that no exponent makes the arithmetic large.
-/
def ofDecimal (negative : Bool) (digits : Nat) (exponent : Int) : Double :=
  ofMagnitude negative <|
    if digits = 0 then 0
    else if 400 < exponent then infinityBits
    else if exponent < -400 - (digits.log2 : Int) then 0
    else magnitudeBits (digits * Nat.pow 10 exponent.toNat) (Nat.pow 10 (-exponent).toNat)

/-- The double equal to the binary32 number with the given bits. -/
def ofSingle (bits : UInt32) : Double :=
  let negative := decide (Nat.pow 2 31 ≤ bits.toNat)
  let exponent := bits.toNat / Nat.pow 2 23 % Nat.pow 2 8
  let fraction := bits.toNat % Nat.pow 2 23
  ofMagnitude negative <|
    if exponent = 255 then infinityBits + fraction * Nat.pow 2 29
    else
      let significand := if exponent = 0 then fraction else Nat.pow 2 23 + fraction
      magnitudeBits (significand * Nat.pow 2 (max 1 exponent)) (Nat.pow 2 150)

/-- Numeric equality: zeros of both signs are equal, and what is not a number equals nothing. -/
def numEq (a b : Double) : Bool :=
  !a.isNaN && !b.isNaN && (a == b || (a.isZero && b.isZero))

/-- The bits as sixteen lowercase hexadecimal digits. -/
def hex (d : Double) : String :=
  let digits := Nat.toDigits 16 d.bits.toNat
  String.ofList (List.replicate (16 - digits.length) '0' ++ digits)

end Double

end Stepwise
