import Stepwise.Values
/-!
# Results of a run

The ordered results of one flow run: one value for every item that produced one.
-/

namespace Stepwise

structure ResultSet where
  toList : List Value
deriving Repr, Inhabited

namespace ResultSet

def empty : ResultSet := ⟨[]⟩

def push (r : ResultSet) (value : Value) : ResultSet := ⟨r.toList ++ [value]⟩

/-- Adds the result of an output, its first value, if it has one. -/
def pushFirst (r : ResultSet) (output : Values) : ResultSet :=
  match output.first? with
  | some value => r.push value
  | none => r

def length (r : ResultSet) : Nat := r.toList.length

def isEmpty (r : ResultSet) : Bool := r.toList.isEmpty

def get? (r : ResultSet) (index : Nat) : Option Value := r.toList[index]?

def first? (r : ResultSet) : Option Value := r.toList.head?

def same (r : ResultSet) (values : List Value) : Bool := Value.sameItems r.toList values

end ResultSet

end Stepwise
