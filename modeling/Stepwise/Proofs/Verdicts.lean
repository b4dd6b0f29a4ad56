import Stepwise.Output
import Stepwise.Proofs.Binary64
/-!
# Verdicts of typed outputs

A predicate may return data of any type.  Its verdict is that of the first value of its output,
which is computed from a double where the value is a number.  Here the verdict is said of the typed
data themselves: numbers hold unless they are zero or not finite, and text unless it is empty.
-/

namespace Stepwise

/-- The number that a value is. -/
def Value.number? : Value → Option ℚ
  | int n => some n
  | double d => if d.isFinite then some d.toRat else none
  | _ => none

/-- What counts as false among values. -/
def Value.Fails (v : Value) : Prop :=
  v = .null ∨ v = .bool false ∨ v.number? = some 0 ∨ v = .string ""

/-- What counts as true among the data of scalar types. -/
def Scalar.Holds : Scalar → Prop
  | bool b => b = true
  | int8 n => n ≠ 0
  | int16 n => n ≠ 0
  | int32 n => n ≠ 0
  | int64 n => n ≠ 0
  | uint8 n => n ≠ 0
  | uint16 n => n ≠ 0
  | uint32 n => n ≠ 0
  | uint64 n => n ≠ 0
  | single bits => Single.isFinite bits ∧ bits ≠ 0 ∧ bits ≠ 0x80000000
  | double d => d.isFinite ∧ d ≠ ⟨0⟩ ∧ d ≠ ⟨0x8000000000000000⟩
  | string s => s ≠ ""
  | value v => ¬ v.Fails
  | object _ => True

def Datum.Holds : Datum → Prop
  | scalar s => s.Holds
  | unit => False
  | list _ => True
  | absent => False
  | present d => d.Holds

def Output.Holds : Output → Prop
  | unit => False
  | values vs => ∃ v, vs.first? = some v ∧ ¬ v.Fails
  | scalar s => s.Holds
  | option none => False
  | option (some d) => d.Holds

theorem Double.isFinite_of_isZero {d : Double} (hzero : d.isZero) : d.isFinite := by
  simp only [isZero, Bool.and_eq_true, beq_iff_eq] at hzero
  rw [isFinite_iff]
  omega

namespace Value

theorem isTruthy_int (n : Int) : (int n).isTruthy = true ↔ n ≠ 0 := by
  rw [isTruthy, Bool.not_eq_true', ← Bool.not_eq_true, Double.isZero_ofInt]

theorem isTruthy_double (d : Double) : (double d).isTruthy = true ↔ ¬ d.isZero := by
  rw [isTruthy, Bool.not_eq_true', Bool.not_eq_true]

theorem number?_double_eq_zero_iff (d : Double) : (double d).number? = some 0 ↔ d.isZero := by
  simp only [number?, Option.ite_none_right_eq_some, Option.some.injEq, Double.toRat_eq_zero_iff]
  exact and_iff_right_of_imp Double.isFinite_of_isZero

/-- Exactly these values are false: `null`, `false`, numbers equal to zero and the empty string. -/
theorem isTruthy_eq_false_iff (v : Value) : v.isTruthy = false ↔ v.Fails := by
  cases v with
  | null => simp [isTruthy, Fails]
  | bool b => simp [isTruthy, Fails, number?]
  | int n =>
      rw [← Bool.not_eq_true, isTruthy_int]
      simp [Fails, number?]
  | double d =>
      rw [← Bool.not_eq_true, isTruthy_double, not_not, ← number?_double_eq_zero_iff]
      simp [Fails]
  | string s => simp [isTruthy, Fails, number?]
  | array items => simp [isTruthy, Fails, number?]
  | object fields => simp [isTruthy, Fails, number?]

theorem isTruthy_iff (v : Value) : v.isTruthy = true ↔ ¬ v.Fails := by
  rw [← isTruthy_eq_false_iff, Bool.not_eq_false]

/-- A double holds if it is finite and neither of the zeros. -/
theorem isTruthy_ofDouble (d : Double) : (ofDouble d).isTruthy = true ↔ d.isFinite ∧ ¬ d.isZero := by
  unfold ofDouble
  by_cases hfinite : d.isFinite
  · rw [if_pos hfinite, isTruthy_double, and_iff_right hfinite]
  · rw [if_neg hfinite]
    simp [isTruthy, hfinite]

end Value

/-- A binary32 number becomes a zero only if it is one, down to the least of them. -/
theorem Double.isZero_ofSingle {bits : UInt32} (hfinite : Single.isFinite bits) :
    (ofSingle bits).isZero ↔ bits = 0 ∨ bits = 0x80000000 := by
  rw [← toRat_eq_zero_iff, (ofSingle_represents hfinite).value, Single.toRat_eq_zero_iff]

theorem Scalar.isTruthy_toValue (s : Scalar) : s.toValue.isTruthy = true ↔ s.Holds := by
  cases s with
  | bool b => exact Iff.rfl
  | int8 n => simp [toValue, Value.isTruthy_int, Holds, ← Int8.toInt_inj]
  | int16 n => simp [toValue, Value.isTruthy_int, Holds, ← Int16.toInt_inj]
  | int32 n => simp [toValue, Value.isTruthy_int, Holds, ← Int32.toInt_inj]
  | int64 n => simp [toValue, Value.isTruthy_int, Holds, ← Int64.toInt_inj]
  | uint8 n => simp [toValue, Value.isTruthy_int, Holds, ← UInt8.toNat_inj]
  | uint16 n => simp [toValue, Value.isTruthy_int, Holds, ← UInt16.toNat_inj]
  | uint32 n => simp [toValue, Value.isTruthy_int, Holds, ← UInt32.toNat_inj]
  | uint64 n => simp [toValue, Value.isTruthy_int, Holds, ← UInt64.toNat_inj]
  | single bits =>
      rw [toValue, Value.isTruthy_ofDouble, Double.isFinite_ofSingle, Holds, ← not_or]
      exact and_congr_right fun hfinite => not_congr (Double.isZero_ofSingle hfinite)
  | double d => rw [toValue, Value.isTruthy_ofDouble, Holds, Double.isZero_iff_bits, not_or]
  | string s => simp [toValue, Value.isTruthy, Holds]
  | value v => exact v.isTruthy_iff
  | object fields => simp [toValue, Value.isTruthy, Holds]

theorem Datum.isTruthy_toValue (d : Datum) : d.toValue.isTruthy = true ↔ d.Holds := by
  induction d with
  | scalar s => exact s.isTruthy_toValue
  | unit => simp [toValue, Value.isTruthy, Holds]
  | list items => simp [toValue, Value.isTruthy, Holds]
  | absent => simp [toValue, Value.isTruthy, Holds]
  | present d ih => exact ih

theorem Values.isTruthy_iff (vs : Values) :
    vs.isTruthy = true ↔ ∃ v, vs.first? = some v ∧ v.isTruthy = true := by
  unfold isTruthy
  cases vs.first? <;> simp

theorem Output.isTruthy_toValues (o : Output) : o.toValues.isTruthy = true ↔ o.Holds := by
  cases o with
  | unit => simp [toValues, Values.isTruthy_iff, Values.empty, Values.first?, Holds]
  | values vs => simp only [toValues, Values.isTruthy_iff, Value.isTruthy_iff, Holds]
  | scalar s => exact s.isTruthy_toValue
  | option d =>
      cases d with
      | none => simp [toValues, Values.isTruthy_iff, Values.empty, Values.first?, Holds]
      | some d => exact d.isTruthy_toValue

/--
The verdict of a predicate is what the data say that it returned: of a list the first value alone,
of an option what it holds.  Exactly `null`, `false`, numbers equal to zero and the empty string are
false among values.
-/
theorem Output.verdict_of_data (o : Output) (s : Scalar) (d : Datum) (v : Value) :
    (o.toValues.isTruthy = true ↔ o.Holds) ∧
      (option (some (.scalar s))).toValues.isTruthy = (scalar s).toValues.isTruthy ∧
      (option (some (.present d))).toValues.isTruthy = (option (some d)).toValues.isTruthy ∧
      (v.isTruthy = false ↔ v.Fails) :=
  ⟨o.isTruthy_toValues, rfl, rfl, v.isTruthy_eq_false_iff⟩

end Stepwise
