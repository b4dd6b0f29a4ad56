import Stepwise.Text.Quoted
import Stepwise.Value.Text
/-!
# Decoding values

A decoder turns a value into typed data or says what is wrong with it. A record is written as an
object, where unknown keys are ignored and the first bad field in key order is reported, or as an
array of its fields in order. An enumeration is written as one of its words, or as an object whose
only key is one.
-/

namespace Stepwise.Codec

/-- What a decoder expects at some place. -/
inductive Expectation where
  | string
  | boolean
  | index
  | sequence
  | unit
  | record (name : String)
  | word
deriving DecidableEq, Repr

def Expectation.text : Expectation → String
  | string => "a string"
  | boolean => "a boolean"
  | index => "usize"
  | sequence => "a sequence"
  | unit => "unit"
  | record name => "struct " ++ name
  | word => "string or map"

inductive DecodeError where
  | wrongType (found : Value) (expected : Expectation)
  | negativeIndex (found : Int)
  /-- An object that should be an enumeration has not exactly one key. -/
  | notOneKey
  | unknownWord (found : String) (words : List String)
  | tooLong (length : Nat)
  /-- An array that should be a record of the given size ends too early. -/
  | tooShort (length : Nat) (name : String) (size : Nat)
  | missingField (name : String)

/-- A value as it is named in messages: scalars in full, containers by their kind. -/
def describe : Value → String
  | .null => "null"
  | .bool b => s!"boolean `{(Value.bool b).text}`"
  | .int n => s!"integer `{n}`"
  | .double d => s!"floating point `{d.text}`"
  | .string s => "string " ++ Text.quoted s
  | .array _ => "sequence"
  | .object _ => "map"

def DecodeError.message : DecodeError → String
  | wrongType found expected => s!"invalid type: {describe found}, expected {expected.text}"
  | negativeIndex found => s!"invalid value: integer `{found}`, expected usize"
  | notOneKey => "invalid value: map, expected map with a single key"
  | unknownWord found words =>
    let choices := ", ".intercalate (words.map fun word => "`" ++ word ++ "`")
    s!"unknown variant `{found}`, expected one of {choices}"
  | tooLong length => s!"invalid length {length}, expected fewer elements in array"
  | tooShort length name size =>
    let elements := if size = 1 then "element" else "elements"
    s!"invalid length {length}, expected struct {name} with {size} {elements}"
  | missingField name => s!"missing field `{name}`"

abbrev Decoder (α : Type) := Value → Except DecodeError α

variable {α σ : Type}

def string : Decoder String
  | .string s => .ok s
  | v => .error (.wrongType v .string)

def boolean : Decoder Bool
  | .bool b => .ok b
  | v => .error (.wrongType v .boolean)

def index : Decoder Nat
  | .int n => if 0 ≤ n then .ok n.toNat else .error (.negativeIndex n)
  | v => .error (.wrongType v .index)

def list (item : Decoder α) : Decoder (List α)
  | .array items => items.mapM item
  | v => .error (.wrongType v .sequence)

/-- `null` stands for nothing. -/
def optional (item : Decoder α) : Decoder (Option α)
  | .null => .ok none
  | v => (item v).map some

/-- One of the words of an enumeration. -/
def word (choices : List (String × α)) : Decoder α :=
  let choose (name : String) : Except DecodeError α :=
    match choices.find? (·.1 == name) with
    | some choice => .ok choice.2
    | none => .error (.unknownWord name (choices.map (·.1)))
  fun
  | .string name => choose name
  | .object [(name, content)] => do
    let choice ← choose name
    match content with
    | .null => return choice
    | v => .error (.wrongType v .unit)
  | .object _ => .error .notOneKey
  | v => .error (.wrongType v .word)

/-- A field that must be there. -/
def required (name : String) : Option α → Except DecodeError α
  | some value => .ok value
  | none => .error (.missingField name)

/-- An element that must be there. -/
def element (items : List Value) (position : Nat) (name : String) (size : Nat)
    (item : Decoder α) : Except DecodeError α :=
  match items[position]? with
  | some v => item v
  | none => .error (.tooShort position name size)

/--
A record: `field` takes in one field of an object, `finish` makes the record of what was taken in,
and `elements` makes it of the items of an array.
-/
def record (name : String) (size : Nat) (start : σ)
    (field : σ → String → Value → Except DecodeError σ) (finish : σ → Except DecodeError α)
    (elements : List Value → Except DecodeError α) : Decoder α
  | .object fields => do
    finish (← fields.foldlM (fun s entry => field s entry.1 entry.2) start)
  | .array items => do
    let value ← elements items
    if size < items.length then .error (.tooLong items.length) else return value
  | v => .error (.wrongType v (.record name))

end Stepwise.Codec
