import Mathlib.Algebra.Order.Field.Power
import Mathlib.Algebra.Order.Field.Rat
import Mathlib.Data.Rat.Cast.CharZero
import Mathlib.Tactic.FieldSimp
import Mathlib.Tactic.Linarith
import Mathlib.Tactic.Positivity
import Mathlib.Tactic.Ring
import Stepwise.Number.Double
/-!
# Numbers behind the bits

A finite double stands for a rational number, and so does a finite binary32 number.  Rounding to
the nearest binary64 magnitude leaves a number alone whose significand and exponent fit, so every
finite binary32 number becomes the double that stands for the same number, with the same sign.  No
integer but zero rounds to zero.
-/

namespace Stepwise

/-- The sign of a number as a factor. -/
def signOf (negative : Bool) : ℚ := if negative then -1 else 1

theorem signOf_ne_zero (negative : Bool) : signOf negative ≠ 0 := by
  cases negative <;> simp [signOf]

/-! ## Quotients in units of a power of two

Powers of two are kept apart by the sign of the exponent, so that no fraction is formed.
-/

theorem two_zpow (k : Int) : (2 : ℚ) ^ k = 2 ^ k.toNat / 2 ^ (-k).toNat := by
  obtain ⟨n, rfl | rfl⟩ := k.eq_nat_or_neg <;> simp

theorem zpow_le_quotient_iff {num den : Nat} (hden : 0 < den) (k : Int) :
    (2 : ℚ) ^ k ≤ num / den ↔ den * 2 ^ k.toNat ≤ num * 2 ^ (-k).toNat := by
  have hden' : (0 : ℚ) < den := by exact_mod_cast hden
  rw [two_zpow, div_le_div_iff₀ (by positivity) hden', mul_comm _ (den : ℚ)]
  norm_cast

theorem quotient_eq_iff {num den m : Nat} (hden : 0 < den) (k : Int) :
    (num / den : ℚ) = m * 2 ^ k ↔ num * 2 ^ (-k).toNat = m * (den * 2 ^ k.toNat) := by
  have hden' : (den : ℚ) ≠ 0 := by positivity
  rw [two_zpow, mul_div_assoc', div_eq_div_iff hden' (by positivity)]
  norm_cast
  rw [mul_assoc, mul_comm (2 ^ _) den]

theorem roundQuotient_mul (m : Nat) {den : Nat} (hden : 0 < den) :
    roundQuotient (m * den) den = m := by
  simp [roundQuotient, Nat.mul_div_cancel _ hden, hden]

theorem le_roundQuotient {q num den : Nat} (hden : 0 < den) (h : q * den ≤ num) :
    q ≤ roundQuotient num den := by
  have hq : q ≤ num / den := (Nat.le_div_iff_mul_le hden).2 h
  simp only [roundQuotient]
  split
  · exact hq
  · split <;> omega

namespace Double

theorem signBit_eq : signBit = 2 ^ 63 := rfl

theorem infinityBits_eq : infinityBits = 2047 * 2 ^ 52 := rfl

/-! ## Fields -/

theorem fraction_lt (d : Double) : d.fraction < 2 ^ 52 := Nat.mod_lt _ (by decide)

theorem exponentField_lt (d : Double) : d.exponentField < 2 ^ 11 := Nat.mod_lt _ (by decide)

theorem significand_lt (d : Double) : d.significand < 2 ^ 53 := by
  have := d.fraction_lt
  simp only [significand, Nat.pow_eq]
  split <;> omega

theorem toNat_bits (d : Double) : d.bits.toNat =
    (if d.isNegative then 2 ^ 63 else 0) + d.exponentField * 2 ^ 52 + d.fraction := by
  have hlt := d.bits.toNat_lt
  simp only [isNegative, exponentField, fraction, signBit_eq, Nat.pow_eq]
  by_cases hneg : 2 ^ 63 ≤ d.bits.toNat
  · simp only [hneg, decide_true, if_true]
    omega
  · simp only [hneg, decide_false, Bool.false_eq_true, if_false]
    omega

theorem isFinite_iff (d : Double) : d.isFinite ↔ d.exponentField < 2047 := by
  have := d.exponentField_lt
  simp only [isFinite, bne_iff_ne]
  omega

theorem isZero_iff (d : Double) : d.isZero ↔ d.significand = 0 := by
  simp only [isZero, significand, Bool.and_eq_true, beq_iff_eq, Nat.pow_eq]
  split <;> omega

/-- Zero has two encodings. -/
theorem isZero_iff_bits (d : Double) : d.isZero ↔ d = ⟨0⟩ ∨ d = ⟨0x8000000000000000⟩ := by
  have hbits (bits : UInt64) : d = ⟨bits⟩ ↔ d.bits.toNat = bits.toNat := by
    obtain ⟨own⟩ := d
    rw [mk.injEq, UInt64.toNat_inj]
  have hlt := d.bits.toNat_lt
  rw [hbits, hbits]
  simp only [isZero, exponentField, fraction, Bool.and_eq_true, beq_iff_eq, Nat.pow_eq,
    UInt64.reduceToNat]
  omega

section OfMagnitude

variable {negative : Bool} {magnitude : Nat}

theorem toNat_ofMagnitude (h : magnitude < 2 ^ 63) :
    (ofMagnitude negative magnitude).bits.toNat = (if negative then 2 ^ 63 else 0) + magnitude := by
  simp only [ofMagnitude, signBit_eq, UInt64.toNat_ofNat']
  apply Nat.mod_eq_of_lt
  split <;> omega

theorem isNegative_ofMagnitude (h : magnitude < 2 ^ 63) :
    (ofMagnitude negative magnitude).isNegative = negative := by
  simp only [isNegative, toNat_ofMagnitude h, signBit_eq]
  cases negative
  · simp
    omega
  · simp

theorem exponentField_ofMagnitude (h : magnitude < 2 ^ 63) :
    (ofMagnitude negative magnitude).exponentField = magnitude / 2 ^ 52 := by
  simp only [exponentField, toNat_ofMagnitude h, Nat.pow_eq]
  split <;> omega

theorem fraction_ofMagnitude (h : magnitude < 2 ^ 63) :
    (ofMagnitude negative magnitude).fraction = magnitude % 2 ^ 52 := by
  simp only [fraction, toNat_ofMagnitude h, Nat.pow_eq]
  split <;> omega

theorem isZero_ofMagnitude (h : magnitude < 2 ^ 63) :
    (ofMagnitude negative magnitude).isZero = decide (magnitude = 0) := by
  simp only [isZero, exponentField_ofMagnitude h, fraction_ofMagnitude h]
  rw [Bool.eq_iff_iff]
  simp
  omega

end OfMagnitude

/-! ## The number that a double stands for -/

/-- The number that a finite double stands for. -/
def toRat (d : Double) : ℚ := signOf d.isNegative * (d.significand * (2 : ℚ) ^ d.scale)

theorem toRat_eq_zero_iff (d : Double) : d.toRat = 0 ↔ d.isZero := by
  rw [isZero_iff, toRat, mul_eq_zero, or_iff_right (signOf_ne_zero _), mul_eq_zero,
    or_iff_left (zpow_ne_zero _ two_ne_zero), Nat.cast_eq_zero]

/-- The magnitude of a double in units of the least positive one. -/
def units (d : Double) : Nat := d.significand * 2 ^ (d.exponentField - 1)

theorem toRat_eq_units (d : Double) :
    d.toRat = signOf d.isNegative * (d.units * 2 ^ (-1074 : Int)) := by
  have hscale : d.scale = ((d.exponentField - 1 : Nat) : Int) + -1074 := by
    simp only [scale]
    omega
  rw [toRat, hscale, zpow_add₀ two_ne_zero, units]
  rw [Nat.cast_mul, Nat.cast_pow, Nat.cast_ofNat, zpow_natCast, mul_assoc]

/-- A larger exponent means a larger magnitude, unless both are those of the least doubles. -/
theorem exponentField_le_of_units {a b : Double} (h : a.units = b.units) :
    b.exponentField ≤ max 1 a.exponentField := by
  by_contra! hlt
  have hsig : b.significand = 2 ^ 52 + b.fraction := by
    rw [significand, if_neg (by omega), Nat.pow_eq]
  have : a.units < b.units :=
    calc a.units < 2 ^ 53 * 2 ^ (a.exponentField - 1) := by
          unfold units
          gcongr
          exact a.significand_lt
      _ = 2 ^ 52 * 2 ^ (a.exponentField - 1 + 1) := by ring
      _ ≤ b.significand * 2 ^ (b.exponentField - 1) := by
          gcongr
          · omega
          · norm_num
          · omega
  omega

theorem eq_of_units {a b : Double} (hsign : a.isNegative = b.isNegative)
    (hunits : a.units = b.units) : a = b := by
  have hab := exponentField_le_of_units hunits
  have hba := exponentField_le_of_units hunits.symm
  have hsig : a.significand = b.significand := by
    have hexp : a.exponentField - 1 = b.exponentField - 1 := by omega
    rw [units, units, hexp] at hunits
    exact Nat.eq_of_mul_eq_mul_right (by positivity) hunits
  have ha := a.fraction_lt
  have hb := b.fraction_lt
  have hfields : a.exponentField = b.exponentField ∧ a.fraction = b.fraction := by
    simp only [significand, Nat.pow_eq] at hsig
    split at hsig <;> split at hsig <;> omega
  have hbits : a.bits.toNat = b.bits.toNat := by
    rw [toNat_bits, toNat_bits, hsign, hfields.1, hfields.2]
  obtain ⟨bits⟩ := a
  obtain ⟨bits'⟩ := b
  exact congrArg Double.mk (UInt64.toNat_inj.1 hbits)

/-- A double is determined by its sign and the number that it stands for. -/
theorem eq_of_toRat {a b : Double} (hsign : a.isNegative = b.isNegative)
    (hvalue : a.toRat = b.toRat) : a = b := by
  apply eq_of_units hsign
  rw [toRat_eq_units, toRat_eq_units, hsign] at hvalue
  have hunit : (2 : ℚ) ^ (-1074 : Int) ≠ 0 := zpow_ne_zero _ two_ne_zero
  exact Nat.cast_injective
    (mul_right_cancel₀ hunit (mul_left_cancel₀ (signOf_ne_zero _) hvalue))

/-- A finite double with a sign, which zeros have as well, that stands for a number. -/
structure Represents (d : Double) (negative : Bool) (value : ℚ) : Prop where
  finite : d.isFinite
  sign : d.isNegative = negative
  value : d.toRat = value

theorem Represents.unique {a b : Double} {negative : Bool} {value : ℚ}
    (ha : a.Represents negative value) (hb : b.Represents negative value) : a = b :=
  eq_of_toRat (ha.sign.trans hb.sign.symm) (ha.value.trans hb.value.symm)

theorem represents_zero (negative : Bool) : (ofMagnitude negative 0).Represents negative 0 where
  finite := by
    rw [isFinite_iff, exponentField_ofMagnitude (by decide)]
    decide
  sign := isNegative_ofMagnitude (by decide)
  value := by
    rw [toRat_eq_zero_iff, isZero_ofMagnitude (by decide)]
    rfl

/-- Fields put together from a significand of full length and its unit. -/
theorem represents_normal (negative : Bool) {m : Nat} {unit : Int} (hlow : 2 ^ 52 ≤ m)
    (hhigh : m < 2 ^ 53) (hmin : -1074 ≤ unit) (hmax : unit ≤ 971) :
    (ofMagnitude negative (m + (unit + 1074).toNat * 2 ^ 52)).Represents negative
      (signOf negative * (m * 2 ^ unit)) := by
  have hlt : m + (unit + 1074).toNat * 2 ^ 52 < 2 ^ 63 := by omega
  generalize hd : ofMagnitude negative (m + (unit + 1074).toNat * 2 ^ 52) = d
  have hsign : d.isNegative = negative := by rw [← hd, isNegative_ofMagnitude hlt]
  have hexp : d.exponentField = (unit + 1075).toNat := by
    rw [← hd, exponentField_ofMagnitude hlt]
    omega
  have hsig : d.significand = m := by
    rw [significand, if_neg (by omega), ← hd, fraction_ofMagnitude hlt, Nat.pow_eq]
    omega
  have hscale : d.scale = unit := by
    simp only [scale]
    omega
  exact ⟨(isFinite_iff d).2 (by omega), hsign, by rw [toRat, hsign, hsig, hscale]⟩

/-! ## Rounding -/

/-- The binade of a number that is at least `2 ^ b` and less than twice that. -/
theorem binade_eq {num den : Nat} (hden : 0 < den) {b : Int} (hlow : (2 : ℚ) ^ b ≤ num / den)
    (hhigh : (num / den : ℚ) < 2 ^ (b + 1)) : binade num den = b := by
  have hden' : (0 : ℚ) < den := by exact_mod_cast hden
  have hnum : 0 < num := by
    have hpos : (0 : ℚ) < num / den := lt_of_lt_of_le (by positivity) hlow
    by_contra! hzero
    rw [Nat.le_zero.1 hzero, Nat.cast_zero, zero_div] at hpos
    exact hpos.false
  have hnumLow : (2 : ℚ) ^ (num.log2 : Int) ≤ num := by
    exact_mod_cast Nat.log2_self_le hnum.ne'
  have hnumHigh : (num : ℚ) < 2 ^ ((num.log2 : Int) + 1) := by
    exact_mod_cast Nat.lt_log2_self
  have hdenLow : (2 : ℚ) ^ (den.log2 : Int) ≤ den := by
    exact_mod_cast Nat.log2_self_le hden.ne'
  have hdenHigh : (den : ℚ) < 2 ^ ((den.log2 : Int) + 1) := by
    exact_mod_cast Nat.lt_log2_self
  -- The difference of the logarithms is the binade or the one above.
  have hle : b ≤ (num.log2 : Int) - den.log2 := by
    have hpow : (2 : ℚ) ^ (b + den.log2) < 2 ^ ((num.log2 : Int) + 1) := by
      rw [zpow_add₀ two_ne_zero]
      calc (2 : ℚ) ^ b * 2 ^ (den.log2 : Int) ≤ num / den * den := by gcongr
        _ = num := div_mul_cancel₀ _ hden'.ne'
        _ < _ := hnumHigh
    have := (zpow_lt_zpow_iff_right₀ one_lt_two).1 hpow
    omega
  have hge : (num.log2 : Int) - den.log2 ≤ b + 1 := by
    have hpow : (2 : ℚ) ^ (num.log2 : Int) < 2 ^ (b + 1 + ((den.log2 : Int) + 1)) := by
      rw [zpow_add₀ two_ne_zero (b + 1)]
      calc (2 : ℚ) ^ (num.log2 : Int) ≤ num := hnumLow
        _ = num / den * den := (div_mul_cancel₀ _ hden'.ne').symm
        _ < _ := by gcongr
    have := (zpow_lt_zpow_iff_right₀ one_lt_two).1 hpow
    omega
  have hcases : (num.log2 : Int) - den.log2 = b ∨ (num.log2 : Int) - den.log2 = b + 1 := by omega
  unfold binade
  simp only [Nat.pow_eq, ← zpow_le_quotient_iff hden]
  rcases hcases with hk | hk
  · rw [hk, if_pos hlow]
  · rw [hk, if_neg hhigh.not_ge]
    omega

/-- A number that has a significand of full length and a unit in range is not rounded. -/
theorem magnitudeBits_exact {num den m : Nat} {unit : Int} (hden : 0 < den) (hlow : 2 ^ 52 ≤ m)
    (hhigh : m < 2 ^ 53) (hmin : -1074 ≤ unit) (hmax : unit ≤ 971)
    (hvalue : (num / den : ℚ) = m * 2 ^ unit) :
    magnitudeBits num den = m + (unit + 1074).toNat * 2 ^ 52 := by
  have hbinade : binade num den = unit + 52 := by
    apply binade_eq hden
    · rw [hvalue, add_comm unit, zpow_add₀ two_ne_zero]
      gcongr
      exact_mod_cast hlow
    · rw [hvalue, add_assoc, add_comm unit, zpow_add₀ two_ne_zero]
      gcongr
      exact_mod_cast hhigh
  have hscaled := (quotient_eq_iff hden unit).1 hvalue
  have hnum : num ≠ 0 := by
    rintro rfl
    have : 0 < m * (den * 2 ^ unit.toNat) := by positivity
    omega
  have hunit : max (-1074) (binade num den - 52) = unit := by omega
  simp only [magnitudeBits, hnum, if_false, hunit, Nat.pow_eq, hscaled, infinityBits_eq]
  rw [roundQuotient_mul m (by positivity)]
  omega

/-- A shorter significand is shifted to its full length. -/
theorem exists_shift {sig : Nat} (hpos : 0 < sig) (hsig : sig < 2 ^ 53) :
    ∃ k ≤ 52, 2 ^ 52 ≤ sig * 2 ^ k ∧ sig * 2 ^ k < 2 ^ 53 := by
  have hlog : sig.log2 ≤ 52 := Nat.le_of_lt_succ ((Nat.log2_lt hpos.ne').2 hsig)
  refine ⟨52 - sig.log2, Nat.sub_le _ _, ?_, ?_⟩
  · calc 2 ^ 52 = 2 ^ sig.log2 * 2 ^ (52 - sig.log2) := by
          rw [← pow_add, Nat.add_sub_cancel' hlog]
      _ ≤ _ := Nat.mul_le_mul_right _ (Nat.log2_self_le hpos.ne')
  · calc sig * 2 ^ (52 - sig.log2) < 2 ^ (sig.log2 + 1) * 2 ^ (52 - sig.log2) :=
          Nat.mul_lt_mul_of_pos_right Nat.lt_log2_self (by positivity)
      _ = 2 ^ 53 := by
          rw [← pow_add]
          congr 1
          omega

/-- A number whose significand and exponent fit becomes the double that stands for it. -/
theorem represents_magnitudeBits (negative : Bool) {num den sig : Nat} {e : Int} (hden : 0 < den)
    (hsig : sig < 2 ^ 53) (hmin : -1022 ≤ e) (hmax : e ≤ 971)
    (hvalue : (num / den : ℚ) = sig * 2 ^ e) :
    (ofMagnitude negative (magnitudeBits num den)).Represents negative
      (signOf negative * (sig * 2 ^ e)) := by
  rcases Nat.eq_zero_or_pos sig with rfl | hpos
  · have hnum : num = 0 := by
      have hden' : (den : ℚ) ≠ 0 := by positivity
      simpa [hden'] using hvalue
    simpa [hnum, magnitudeBits] using represents_zero negative
  · obtain ⟨k, hk, hlow, hhigh⟩ := exists_shift hpos hsig
    have hshifted : (sig * 2 ^ e : ℚ) = (sig * 2 ^ k : Nat) * 2 ^ (e - k) := by
      rw [zpow_sub₀ two_ne_zero, zpow_natCast]
      push_cast
      field_simp
    rw [hshifted] at hvalue ⊢
    rw [magnitudeBits_exact hden hlow hhigh (by omega) (by omega) hvalue]
    exact represents_normal negative hlow hhigh (by omega) (by omega)

/-! ## Integers -/

theorem magnitudeBits_le (num den : Nat) : magnitudeBits num den ≤ infinityBits := by
  unfold magnitudeBits
  split
  · exact Nat.zero_le _
  · exact Nat.min_le_left _ _

/-- An integer in its unit is at least one, and so is what it is rounded to. -/
theorem magnitudeBits_pos {n : Nat} (hn : 0 < n) : 0 < magnitudeBits n 1 := by
  have hlog : 2 ^ n.log2 ≤ n := Nat.log2_self_le hn.ne'
  have hbinade : binade n 1 = n.log2 := by
    apply binade_eq one_pos <;> rw [Nat.cast_one, div_one]
    · exact_mod_cast hlog
    · exact_mod_cast Nat.lt_log2_self
  have hunit : (max (-1074) (binade n 1 - 52)).toNat ≤ n.log2 := by omega
  have hone : 1 ≤ roundQuotient (n * 2 ^ (-max (-1074) (binade n 1 - 52)).toNat)
      (1 * 2 ^ (max (-1074) (binade n 1 - 52)).toNat) := by
    apply le_roundQuotient (by positivity)
    calc 1 * (1 * 2 ^ (max (-1074) (binade n 1 - 52)).toNat) ≤ 2 ^ n.log2 := by
          rw [one_mul, one_mul]
          exact Nat.pow_le_pow_right two_pos hunit
      _ ≤ n := hlog
      _ ≤ _ := Nat.le_mul_of_pos_right n (by positivity)
  simp only [magnitudeBits, hn.ne', if_false, Nat.pow_eq, infinityBits_eq]
  omega

/-- No integer but zero becomes a zero, however large it is. -/
theorem isZero_ofInt (n : Int) : (ofInt n).isZero ↔ n = 0 := by
  have hle := magnitudeBits_le n.natAbs 1
  rw [infinityBits_eq] at hle
  rw [ofInt, isZero_ofMagnitude (by omega), decide_eq_true_iff]
  constructor
  · intro hzero
    by_contra hn
    have := magnitudeBits_pos (Int.natAbs_pos.2 hn)
    omega
  · rintro rfl
    rfl

end Double

/-! ## Binary32 numbers -/

namespace Single

def isNegative (bits : UInt32) : Bool := decide (2 ^ 31 ≤ bits.toNat)

def exponentField (bits : UInt32) : Nat := bits.toNat / 2 ^ 23 % 2 ^ 8

def fraction (bits : UInt32) : Nat := bits.toNat % 2 ^ 23

def isFinite (bits : UInt32) : Bool := exponentField bits != 255

def significand (bits : UInt32) : Nat :=
  if exponentField bits = 0 then fraction bits else 2 ^ 23 + fraction bits

/-- The number that a finite binary32 number stands for. -/
def toRat (bits : UInt32) : ℚ :=
  signOf (isNegative bits) *
    (significand bits * (2 : ℚ) ^ (max 1 (exponentField bits) - 150 : Int))

theorem fraction_lt (bits : UInt32) : fraction bits < 2 ^ 23 := Nat.mod_lt _ (by decide)

theorem exponentField_lt (bits : UInt32) : exponentField bits < 2 ^ 8 := Nat.mod_lt _ (by decide)

theorem significand_lt (bits : UInt32) : significand bits < 2 ^ 24 := by
  have := fraction_lt bits
  unfold significand
  split <;> omega

theorem toRat_eq_zero_iff (bits : UInt32) : toRat bits = 0 ↔ bits = 0 ∨ bits = 0x80000000 := by
  rw [toRat, mul_eq_zero, or_iff_right (signOf_ne_zero _), mul_eq_zero,
    or_iff_left (zpow_ne_zero _ two_ne_zero), Nat.cast_eq_zero]
  have hfields : significand bits = 0 ↔ exponentField bits = 0 ∧ fraction bits = 0 := by
    unfold significand
    split <;> omega
  have hlt := bits.toNat_lt
  rw [hfields, ← UInt32.toNat_inj, ← UInt32.toNat_inj]
  simp only [exponentField, fraction, UInt32.reduceToNat]
  omega

end Single

namespace Double

theorem ofSingle_eq (bits : UInt32) : ofSingle bits = ofMagnitude (Single.isNegative bits)
    (if Single.exponentField bits = 255 then 2047 * 2 ^ 52 + Single.fraction bits * 2 ^ 29
      else magnitudeBits (Single.significand bits * 2 ^ max 1 (Single.exponentField bits))
        (2 ^ 150)) := rfl

/-- The double that a finite binary32 number becomes stands for the same number, with its sign. -/
theorem ofSingle_represents {bits : UInt32} (hfinite : Single.isFinite bits) :
    (ofSingle bits).Represents (Single.isNegative bits) (Single.toRat bits) := by
  have hexp := Single.exponentField_lt bits
  have hsig := Single.significand_lt bits
  have hfield : Single.exponentField bits ≠ 255 := by
    simpa [Single.isFinite] using hfinite
  rw [ofSingle_eq, if_neg hfield]
  apply represents_magnitudeBits _ (by positivity) (by omega) (by omega) (by omega)
  rw [zpow_sub₀ two_ne_zero, zpow_natCast, Nat.cast_mul, mul_div_assoc]
  norm_cast

/-- What is not finite stays so. -/
theorem isFinite_ofSingle (bits : UInt32) : (ofSingle bits).isFinite = Single.isFinite bits := by
  cases hfinite : Single.isFinite bits with
  | true => exact (ofSingle_represents hfinite).finite
  | false =>
      have hfield : Single.exponentField bits = 255 := by
        simpa [Single.isFinite] using hfinite
      have hlt := Single.fraction_lt bits
      rw [ofSingle_eq, if_pos hfield, Bool.eq_false_iff, Ne, isFinite_iff,
        exponentField_ofMagnitude (by omega)]
      omega

end Double

end Stepwise
