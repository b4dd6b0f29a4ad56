import Stepwise.Output
import Stepwise.Proofs.Binary64
/-!
# Typed outputs are read back

A step's output becomes a list of values, from which the accessors give back what went in.  Integers
come back if they fit 64 bits with a sign, finite doubles with every bit, and finite binary32
numbers as the doubles that stand for the same number.  What is not finite became `null`, which no
accessor takes.
-/

namespace Stepwise

/-! ## Access -/

namespace Values

section Read

variable {α : Type} {vs : Values} {index : Nat} {kind : ArgumentKind} {view : Value → Option α}

theorem arg_of_getElem? {v : Value} (hget : vs.toList[index]? = some v) :
    vs.arg index = .ok v := by
  rw [arg, hget]

theorem arg_of_length_le (hend : vs.length ≤ index) : vs.arg index = .error (.missing index) := by
  rw [arg, List.getElem?_eq_none hend]

/-- An argument that is there is seen by the view of the accessor, or refused. -/
theorem read_of_getElem? {v : Value} (hget : vs.toList[index]? = some v) :
    vs.read kind view index =
      match view v with
      | some a => .ok a
      | none => .error (.wrongKind index kind v) := by
  rw [read, arg_of_getElem? hget]
  rfl

theorem read_of_length_le (hend : vs.length ≤ index) :
    vs.read kind view index = .error (.missing index) := by
  rw [read, arg_of_length_le hend]

theorem arg_missing_iff {i : Nat} :
    vs.arg index = .error (.missing i) ↔ vs.length ≤ index ∧ i = index := by
  cases hget : vs.toList[index]? with
  | none =>
      have hend : vs.length ≤ index := List.getElem?_eq_none_iff.1 hget
      simp [arg_of_length_le hend, hend, eq_comm]
  | some v =>
      have hlt : index < vs.length := (List.getElem?_eq_some_iff.1 hget).1
      simp [arg_of_getElem? hget, hlt]

theorem read_missing_iff {i : Nat} :
    vs.read kind view index = .error (.missing i) ↔ vs.length ≤ index ∧ i = index := by
  cases hget : vs.toList[index]? with
  | none =>
      have hend : vs.length ≤ index := List.getElem?_eq_none_iff.1 hget
      simp [read_of_length_le hend, hend, eq_comm]
  | some v =>
      have hlt : index < vs.length := (List.getElem?_eq_some_iff.1 hget).1
      rw [read_of_getElem? hget]
      cases view v <;> simp [hlt]

theorem read_isOk_iff :
    (vs.read kind view index).isOk ↔ ∃ v, vs.toList[index]? = some v ∧ (view v).isSome := by
  cases hget : vs.toList[index]? with
  | none =>
      have hend : vs.length ≤ index := List.getElem?_eq_none_iff.1 hget
      simp [read_of_length_le hend, Except.isOk, Except.toBool]
  | some v =>
      rw [read_of_getElem? hget]
      cases hview : view v <;> simp [hview, Except.isOk, Except.toBool]

end Read

/-- What the accessors come to at an index. -/
structure Accesses (vs : Values) (index : Nat) : Prop where
  arg : ∀ i, vs.arg index = .error (.missing i) ↔ vs.length ≤ index ∧ i = index
  int : ∀ i, vs.int index = .error (.missing i) ↔ vs.length ≤ index ∧ i = index
  double : ∀ i, vs.double index = .error (.missing i) ↔ vs.length ≤ index ∧ i = index
  bool : ∀ i, vs.bool index = .error (.missing i) ↔ vs.length ≤ index ∧ i = index
  string : ∀ i, vs.string index = .error (.missing i) ↔ vs.length ≤ index ∧ i = index
  exclusive :
    [(vs.int index).isOk, (vs.bool index).isOk, (vs.string index).isOk].count true ≤ 1
  widens : (vs.int index).isOk → (vs.double index).isOk

theorem accesses (vs : Values) (index : Nat) : vs.Accesses index where
  arg _ := arg_missing_iff
  int _ := read_missing_iff
  double _ := read_missing_iff
  bool _ := read_missing_iff
  string _ := read_missing_iff
  exclusive := by
    cases hget : vs.toList[index]? with
    | none =>
        have hend : vs.length ≤ index := List.getElem?_eq_none_iff.1 hget
        simp [int, bool, string, read_of_length_le hend, Except.isOk, Except.toBool]
    | some v =>
        simp only [int, bool, string, read_of_getElem? hget]
        cases v <;> simp [Except.isOk, Except.toBool]
        split <;> simp
  widens hint := by
    obtain ⟨v, hget, hview⟩ := read_isOk_iff.1 hint
    refine read_isOk_iff.2 ⟨v, hget, ?_⟩
    cases v with
    | int n => rfl
    | _ => cases hview

end Values

/-! ## What outputs become -/

namespace Values

/-- One integer, which is read back if it fits 64 bits with a sign, and refused otherwise. -/
structure IsInteger (vs : Values) (n : Int) : Prop where
  single : vs = .single (.int n)
  int : vs.int 0 =
    if -2 ^ 63 ≤ n ∧ n ≤ 2 ^ 63 - 1 then .ok n else .error (.wrongKind 0 .integer (.int n))

/-- One double, which is read back with every bit and is no integer, whatever number it is. -/
structure IsDouble (vs : Values) (d : Double) : Prop where
  single : vs = .single (.double d)
  double : vs.double 0 = .ok d
  int : vs.int 0 = .error (.wrongKind 0 .integer (.double d))

/-- One `null`, which no accessor takes. -/
structure IsNull (vs : Values) : Prop where
  single : vs = .single .null
  int : vs.int 0 = .error (.wrongKind 0 .integer .null)
  double : vs.double 0 = .error (.wrongKind 0 .number .null)
  bool : vs.bool 0 = .error (.wrongKind 0 .boolean .null)
  string : vs.string 0 = .error (.wrongKind 0 .string .null)

theorem isInteger_single (n : Int) : (single (.int n)).IsInteger n where
  single := rfl
  int := by
    have hfits : fitsInt64 n ↔ -2 ^ 63 ≤ n ∧ n ≤ 2 ^ 63 - 1 := by
      simp only [fitsInt64, decide_eq_true_eq, Int.pow_eq]
      omega
    have hget : (single (.int n)).toList[0]? = some (.int n) := rfl
    simp only [Values.int, read_of_getElem? hget, ← hfits]
    cases fitsInt64 n <;> rfl

theorem isDouble_single (d : Double) : (single (.double d)).IsDouble d := ⟨rfl, rfl, rfl⟩

theorem isNull_single : (single .null).IsNull := ⟨rfl, rfl, rfl, rfl, rfl⟩

end Values

/-- How the data of a scalar is found in the list that it became. -/
def Scalar.ReadsBack (vs : Values) : Scalar → Prop
  | bool b => vs = .single (.bool b) ∧ vs.bool 0 = .ok b
  | int8 n => vs.IsInteger n.toInt
  | int16 n => vs.IsInteger n.toInt
  | int32 n => vs.IsInteger n.toInt
  | int64 n => vs.IsInteger n.toInt
  | uint8 n => vs.IsInteger n.toNat
  | uint16 n => vs.IsInteger n.toNat
  | uint32 n => vs.IsInteger n.toNat
  | uint64 n => vs.IsInteger n.toNat
  | single bits =>
    if Single.isFinite bits then
      (∃ d, vs.IsDouble d) ∧
        ∀ d, vs.double 0 = .ok d ↔ d.Represents (Single.isNegative bits) (Single.toRat bits)
    else vs.IsNull
  | double d => if d.isFinite then vs.IsDouble d else vs.IsNull
  | string s => vs = .single (.string s) ∧ vs.string 0 = .ok s
  | value v => vs = .single v
  | object fields => vs = .single (.object fields)

def Datum.ReadsBack (vs : Values) : Datum → Prop
  | scalar s => s.ReadsBack vs
  | unit => vs.IsNull
  | list items => vs = .single (.array items)
  | absent => vs.IsNull
  | present d => d.ReadsBack vs

def Output.ReadsBack (vs : Values) : Output → Prop
  | unit => vs = .empty
  | values own => vs = own
  | scalar s => s.ReadsBack vs
  | option none => vs = .empty
  | option (some d) => d.ReadsBack vs

theorem Scalar.readsBack_single (s : Scalar) : s.ReadsBack (.single s.toValue) := by
  cases s with
  | bool b => exact ⟨rfl, rfl⟩
  | int8 n => exact Values.isInteger_single _
  | int16 n => exact Values.isInteger_single _
  | int32 n => exact Values.isInteger_single _
  | int64 n => exact Values.isInteger_single _
  | uint8 n => exact Values.isInteger_single _
  | uint16 n => exact Values.isInteger_single _
  | uint32 n => exact Values.isInteger_single _
  | uint64 n => exact Values.isInteger_single _
  | single bits =>
      simp only [ReadsBack, toValue, Value.ofDouble, Double.isFinite_ofSingle]
      cases hfinite : Single.isFinite bits with
      | true =>
          have hexact := Double.ofSingle_represents hfinite
          refine ⟨⟨_, Values.isDouble_single _⟩, fun d => ?_⟩
          simp only [if_true, (Values.isDouble_single _).double, Except.ok.injEq]
          constructor
          · rintro rfl
            exact hexact
          · exact hexact.unique
      | false => exact Values.isNull_single
  | double d =>
      simp only [ReadsBack, toValue, Value.ofDouble]
      cases d.isFinite with
      | true => exact Values.isDouble_single d
      | false => exact Values.isNull_single
  | string s => exact ⟨rfl, rfl⟩
  | value v => rfl
  | object fields => rfl

theorem Datum.readsBack_single (d : Datum) : d.ReadsBack (.single d.toValue) := by
  induction d with
  | scalar s => exact s.readsBack_single
  | unit => exact Values.isNull_single
  | list items => rfl
  | absent => exact Values.isNull_single
  | present d ih => exact ih

theorem Output.readsBack_toValues (o : Output) : o.ReadsBack o.toValues := by
  cases o with
  | unit => rfl
  | values vs => rfl
  | scalar s => exact s.readsBack_single
  | option d =>
      cases d with
      | none => rfl
      | some d => exact d.readsBack_single

/--
What a step returns is read back from its output, and an option holds what it holds as that would be
by itself.  In every list, an argument is missing exactly past the end, at most one of the integer,
truth value and text accessors takes an argument, and what is an integer is a number.
-/
theorem Output.outputs_read_back (o : Output) (s : Scalar) (d : Datum) (vs : Values)
    (index : Nat) :
    o.ReadsBack o.toValues ∧
      (option (some (.scalar s))).toValues = (scalar s).toValues ∧
      (scalar s).toValues.length = 1 ∧
      (option (some (.present d))).toValues = (option (some d)).toValues ∧
      vs.Accesses index :=
  ⟨o.readsBack_toValues, rfl, rfl, rfl, vs.accesses index⟩

end Stepwise
