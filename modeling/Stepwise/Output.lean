import Stepwise.Values
/-!
# Typed outputs

What a step may return, and the list of values that it becomes. Nothing at all, `unit` or an absent
option, becomes the empty list; a scalar becomes one value; a list of values stays as it is.
-/

namespace Stepwise

/-- Data of a type that always becomes exactly one value. -/
inductive Scalar where
  | bool (b : Bool)
  | int8 (n : Int8)
  | int16 (n : Int16)
  | int32 (n : Int32)
  | int64 (n : Int64)
  | uint8 (n : UInt8)
  | uint16 (n : UInt16)
  | uint32 (n : UInt32)
  | uint64 (n : UInt64)
  /-- A binary32 number, by its bits. -/
  | single (bits : UInt32)
  | double (d : Double)
  | string (s : String)
  | value (v : Value)
  | object (fields : List (String × Value))

/-- A double as a value; what is not finite has no number and becomes `null`. -/
def Value.ofDouble (d : Double) : Value :=
  if d.isFinite then .double d else .null

def Scalar.toValue : Scalar → Value
  | bool b => .bool b
  | int8 n => .int n.toInt
  | int16 n => .int n.toInt
  | int32 n => .int n.toInt
  | int64 n => .int n.toInt
  | uint8 n => .int n.toNat
  | uint16 n => .int n.toNat
  | uint32 n => .int n.toNat
  | uint64 n => .int n.toNat
  | single bits => .ofDouble (Double.ofSingle bits)
  | double d => .ofDouble d
  | string s => .string s
  | value v => v
  | object fields => .object fields

/-- What an option may hold: a scalar, `unit`, a list as one array, or another option. -/
inductive Datum where
  | scalar (s : Scalar)
  | unit
  | list (items : List Value)
  | absent
  | present (d : Datum)

/-- Inside an option, even `unit` and an absent option are one value, `null`. -/
def Datum.toValue : Datum → Value
  | scalar s => s.toValue
  | unit => .null
  | list items => .array items
  | absent => .null
  | present d => d.toValue

inductive Output where
  | unit
  | values (vs : Values)
  | scalar (s : Scalar)
  | option (d : Option Datum)

def Output.toValues : Output → Values
  | unit => .empty
  | values vs => vs
  | scalar s => .single s.toValue
  | option none => .empty
  | option (some d) => .single d.toValue

end Stepwise
