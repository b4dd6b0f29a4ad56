import Stepwise.Text.Hex
import Stepwise.Value.Basic
/-!
# Reading values

`Value.ofText?` reads one JSON value. A number without point and exponent that fits 64 bits, signed
or unsigned, is an integer; every other number is a double, minus zero among them.
-/

namespace Stepwise.Value

namespace Reader

def isBlank (c : Char) : Bool :=
  c = ' ' || c = '\n' || c = '\t' || c = '\r'

def skipBlanks (cs : List Char) : List Char :=
  cs.dropWhile isBlank

/-- Four hexadecimal digits: one UTF-16 unit. -/
def unit? : List Char → Option (Nat × List Char)
  | a :: b :: c :: d :: rest => do
    let a ← Text.hexDigit? a
    let b ← Text.hexDigit? b
    let c ← Text.hexDigit? c
    let d ← Text.hexDigit? d
    some (((a * 16 + b) * 16 + c) * 16 + d, rest)
  | _ => none

/-- The character of a `\u` escape; a high surrogate needs the low one behind it. -/
def unicode? (cs : List Char) : Option (Char × List Char) := do
  let (unit, rest) ← unit? cs
  if 0xD800 ≤ unit ∧ unit < 0xDC00 then
    match rest with
    | '\\' :: 'u' :: more => do
      let (low, rest) ← unit? more
      if 0xDC00 ≤ low ∧ low < 0xE000 then
        some (Char.ofNat (0x10000 + (unit - 0xD800) * 0x400 + (low - 0xDC00)), rest)
      else none
    | _ => none
  else if 0xDC00 ≤ unit ∧ unit < 0xE000 then none
  else some (Char.ofNat unit, rest)

def simpleEscape? (c : Char) : Option Char :=
  if c = '"' ∨ c = '\\' ∨ c = '/' then some c
  else if c = 'n' then some '\n'
  else if c = 'r' then some '\r'
  else if c = 't' then some '\t'
  else if c = 'b' then some (Char.ofNat 8)
  else if c = 'f' then some (Char.ofNat 12)
  else none

/-- The rest of a string behind its opening quote; `found` holds what was read, newest first. -/
def string? (fuel : Nat) (found : List Char) (cs : List Char) : Option (String × List Char) :=
  match fuel, cs with
  | 0, _ => none
  | _, [] => none
  | fuel + 1, c :: rest =>
    if c = '"' then some (String.ofList found.reverse, rest)
    else if c = '\\' then
      match rest with
      | [] => none
      | 'u' :: more =>
        match unicode? more with
        | some (c, rest) => string? fuel (c :: found) rest
        | none => none
      | e :: more =>
        match simpleEscape? e with
        | some c => string? fuel (c :: found) more
        | none => none
    else if c.toNat < 32 then none
    else string? fuel (c :: found) rest

def digits (cs : List Char) : List Char × List Char :=
  (cs.takeWhile Char.isDigit, cs.dropWhile Char.isDigit)

def natOfDigits (ds : List Char) : Nat :=
  ds.foldl (fun n d => n * 10 + (d.toNat - '0'.toNat)) 0

/-- The integer that a numeral without point and exponent stands for, or the nearest double. -/
def integral (negative : Bool) (magnitude : Nat) : Value :=
  if negative then
    if magnitude = 0 ∨ Nat.pow 2 63 < magnitude then double (Double.ofDecimal true magnitude 0)
    else int (-magnitude)
  else if magnitude < Nat.pow 2 64 then int magnitude
  else double (Double.ofDecimal false magnitude 0)

/-- The digits behind a point, if there is a point. -/
def fraction? : List Char → Option (List Char × List Char)
  | '.' :: rest =>
    let (ds, rest) := digits rest
    if ds.isEmpty then none else some (ds, rest)
  | rest => some ([], rest)

/-- The exponent, if the next character is its mark. -/
def exponent? (cs : List Char) : Option (Option Int × List Char) :=
  match cs with
  | [] => some (none, [])
  | c :: rest =>
    if c = 'e' ∨ c = 'E' then
      let (negative, rest) :=
        match rest with
        | '-' :: rest => (true, rest)
        | '+' :: rest => (false, rest)
        | rest => (false, rest)
      let (ds, rest) := digits rest
      let n : Int := natOfDigits ds
      if ds.isEmpty then none else some (some (if negative then -n else n), rest)
    else some (none, cs)

/-- A numeral without its sign. -/
def number? (negative : Bool) (cs : List Char) : Option (Value × List Char) := do
  let (whole, rest) := digits cs
  if whole.isEmpty then none
  else if whole.head? = some '0' ∧ 1 < whole.length then none
  else
    let (places, rest) ← fraction? rest
    let (exponent, rest) ← exponent? rest
    if places.isEmpty ∧ exponent.isNone then
      some (integral negative (natOfDigits whole), rest)
    else
      let scale := exponent.getD 0 - places.length
      some (double (Double.ofDecimal negative (natOfDigits (whole ++ places)) scale), rest)

/-- Reads a fixed word. -/
def word? (word : String) (value : Value) (cs : List Char) : Option (Value × List Char) :=
  let word := word.toList
  if word.isPrefixOf cs then some (value, cs.drop word.length) else none

mutual

def value? (fuel : Nat) (cs : List Char) : Option (Value × List Char) :=
  match fuel with
  | 0 => none
  | fuel + 1 =>
    match skipBlanks cs with
    | [] => none
    | '[' :: rest =>
      match skipBlanks rest with
      | ']' :: rest => some (array [], rest)
      | rest => (items? fuel [] rest).map fun (items, rest) => (array items, rest)
    | '\x7b' :: rest =>
      match skipBlanks rest with
      | '\x7d' :: rest => some (object [], rest)
      | rest => (fields? fuel [] rest).map fun (fields, rest) => (ofFields fields, rest)
    | '"' :: rest => (string? (rest.length + 1) [] rest).map fun (s, rest) => (string s, rest)
    | '-' :: rest => number? true rest
    | 'n' :: rest => word? "null" null ('n' :: rest)
    | 't' :: rest => word? "true" (bool true) ('t' :: rest)
    | 'f' :: rest => word? "false" (bool false) ('f' :: rest)
    | c :: rest => number? false (c :: rest)

/-- The items of an array up to its closing bracket; `found` is newest first. -/
def items? (fuel : Nat) (found : List Value) (cs : List Char) : Option (List Value × List Char) :=
  match fuel with
  | 0 => none
  | fuel + 1 =>
    match value? fuel cs with
    | none => none
    | some (item, rest) =>
      match skipBlanks rest with
      | ',' :: rest => items? fuel (item :: found) rest
      | ']' :: rest => some ((item :: found).reverse, rest)
      | _ => none

/-- The fields of an object up to its closing brace; `found` is newest first. -/
def fields? (fuel : Nat) (found : List (String × Value)) (cs : List Char) :
    Option (List (String × Value) × List Char) :=
  match fuel with
  | 0 => none
  | fuel + 1 =>
    match skipBlanks cs with
    | '"' :: rest =>
      match string? (rest.length + 1) [] rest with
      | none => none
      | some (key, rest) =>
        match skipBlanks rest with
        | ':' :: rest =>
          match value? fuel rest with
          | none => none
          | some (value, rest) =>
            match skipBlanks rest with
            | ',' :: rest => fields? fuel ((key, value) :: found) rest
            | '\x7d' :: rest => some (((key, value) :: found).reverse, rest)
            | _ => none
        | _ => none
    | _ => none

end

end Reader

/-- The value that a whole text stands for. -/
def ofText? (s : String) : Option Value :=
  let cs := s.toList
  match Reader.value? (2 * cs.length + 2) cs with
  | some (value, rest) => if (Reader.skipBlanks rest).isEmpty then some value else none
  | none => none

end Stepwise.Value
