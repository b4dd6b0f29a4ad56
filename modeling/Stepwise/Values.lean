import Stepwise.Number.Signed
import Stepwise.Value.Text
/-!
# Argument and output lists

Every step takes an ordered list of values and gives one back. The result of a step is the first
value of its output; as a verdict, an output is what its first value is, and false without one.
Typed access reports what is missing or of the wrong kind.
-/

namespace Stepwise

/-- An ordered list of values passed into or out of a step. -/
structure Values where
  toList : List Value
deriving Repr, Inhabited

/-- The kinds of argument that typed access can ask for. -/
inductive ArgumentKind where
  | integer
  | number
  | boolean
  | string
deriving DecidableEq, Repr

def ArgumentKind.noun : ArgumentKind → String
  | integer => "an integer"
  | number => "a number"
  | boolean => "a boolean"
  | string => "a string"

/-- Why an argument could not be read. -/
inductive AccessError where
  | missing (index : Nat)
  | wrongKind (index : Nat) (expected : ArgumentKind) (found : Value)
deriving Repr

def AccessError.message : AccessError → String
  | missing index => s!"missing argument at position {index}"
  | wrongKind index expected found =>
    s!"argument {index} is not {expected.noun}: {found.text}"

namespace Values

def empty : Values := ⟨[]⟩

def single (value : Value) : Values := ⟨[value]⟩

def length (vs : Values) : Nat := vs.toList.length

def isEmpty (vs : Values) : Bool := vs.toList.isEmpty

def push (vs : Values) (value : Value) : Values := ⟨vs.toList ++ [value]⟩

def first? (vs : Values) : Option Value := vs.toList.head?

/-- The last value, and the list without it. -/
def pop (vs : Values) : Option Value × Values :=
  (vs.toList.getLast?, ⟨vs.toList.dropLast⟩)

def same (a b : Values) : Bool := Value.sameItems a.toList b.toList

/-- The verdict of a predicate with this output. -/
def isTruthy (vs : Values) : Bool :=
  match vs.first? with
  | some value => value.isTruthy
  | none => false

def arg (vs : Values) (index : Nat) : Except AccessError Value :=
  match vs.toList[index]? with
  | some value => .ok value
  | none => .error (.missing index)

/-- The argument seen as a kind of data, by a function that knows which values are of the kind. -/
def read (vs : Values) (kind : ArgumentKind) (view : Value → Option α) (index : Nat) :
    Except AccessError α :=
  match vs.arg index with
  | .error e => .error e
  | .ok value =>
    match view value with
    | some a => .ok a
    | none => .error (.wrongKind index kind value)

def int (vs : Values) (index : Nat) : Except AccessError Int :=
  vs.read .integer
    (fun | .int n => if fitsInt64 n then some n else none | _ => none) index

def double (vs : Values) (index : Nat) : Except AccessError Double :=
  vs.read .number (fun | .int n => some (Double.ofInt n) | .double d => some d | _ => none) index

def bool (vs : Values) (index : Nat) : Except AccessError Bool :=
  vs.read .boolean (fun | .bool b => some b | _ => none) index

def string (vs : Values) (index : Nat) : Except AccessError String :=
  vs.read .string (fun | .string s => some s | _ => none) index

end Values

end Stepwise
