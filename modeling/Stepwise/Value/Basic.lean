import Stepwise.Number.Shortest
/-!
# Dynamic values

A `Value` is what flows between steps: JSON data whose integers and doubles are kept apart. The
fields of an object are sorted by key, each key once; `Value.ofFields` makes them so.
-/

namespace Stepwise

inductive Value where
  | null
  | bool (b : Bool)
  | int (n : Int)
  | double (d : Double)
  | string (s : String)
  | array (items : List Value)
  | object (fields : List (String × Value))
deriving Repr, Inhabited

namespace Value

/-- Puts a field at its place among sorted fields; an older field of the same key gives way. -/
def insertField (key : String) (value : Value) : List (String × Value) → List (String × Value)
  | [] => [(key, value)]
  | (k, v) :: rest =>
    if key < k then (key, value) :: (k, v) :: rest
    else if key = k then (key, value) :: rest
    else (k, v) :: insertField key value rest

/-- The object with these fields, of which a later one replaces an earlier one of its key. -/
def ofFields (fields : List (String × Value)) : Value :=
  object (fields.foldl (fun sorted field => insertField field.1 field.2 sorted) [])

mutual

/-- Equality of data: an integer never equals a double, and the two zeros are equal. -/
def same : Value → Value → Bool
  | null, null => true
  | bool a, bool b => a == b
  | int a, int b => a == b
  | double a, double b => a.numEq b
  | string a, string b => a == b
  | array a, array b => sameItems a b
  | object a, object b => sameFields a b
  | _, _ => false

def sameItems : List Value → List Value → Bool
  | [], [] => true
  | a :: as, b :: bs => same a b && sameItems as bs
  | _, _ => false

def sameFields : List (String × Value) → List (String × Value) → Bool
  | [], [] => true
  | (k, a) :: as, (l, b) :: bs => k == l && same a b && sameFields as bs
  | _, _ => false

end

/-- `null`, `false`, numbers equal to zero and the empty string are false; all else is true. -/
def isTruthy : Value → Bool
  | null => false
  | bool b => b
  | int n => !(Double.ofInt n).isZero
  | double d => !d.isZero
  | string s => s != ""
  | array _ => true
  | object _ => true

def field? (fields : List (String × Value)) (key : String) : Option Value :=
  (fields.find? (·.1 == key)).map (·.2)

end Value

end Stepwise
