import Stepwise.Number.Signed
import Stepwise.Toml.Node
import Stepwise.Toml.Text
/-!
# TOML numbers and moments

Integers of 64 bits in four bases, floats, dates and times. Digits may be grouped by single
underscores, a decimal integer has no leading zero, and a date must exist in the calendar.
-/

namespace Stepwise.Toml

/-- Digits, each of which may have one underscore before it; the first has none. -/
def grouped (isDigit : Char → Bool) : List Char → List Char × List Char
  | '_' :: c :: rest =>
    if isDigit c then
      let (more, rest) := grouped isDigit rest
      (c :: more, rest)
    else ([], '_' :: c :: rest)
  | c :: rest =>
    if isDigit c then
      let (more, rest) := grouped isDigit rest
      (c :: more, rest)
    else ([], c :: rest)
  | [] => ([], [])

/-- At least one digit, with underscores only between digits. -/
def digits? (isDigit : Char → Bool) (cs : List Char) : Option (List Char × List Char) :=
  match cs with
  | [] => none
  | c :: _ => if isDigit c then some (grouped isDigit cs) else none

def valueIn (base : Nat) (ds : List Char) : Nat :=
  ds.foldl (fun n d => n * base + (Text.hexDigit? d).getD 0) 0

/-- Whether the sign in front is negative, and what follows it. -/
def sign : List Char → Bool × List Char
  | '-' :: rest => (true, rest)
  | '+' :: rest => (false, rest)
  | cs => (false, cs)

/-- The digits of a decimal integer without its sign. -/
def decimal? : List Char → Option (List Char × List Char)
  | '0' :: rest => some (['0'], rest)
  | cs => digits? Char.isDigit cs

def based? (base : Nat) (isDigit : Char → Bool) (cs : List Char) :
    Option (Node × List Char) := do
  let (ds, rest) ← digits? isDigit cs
  let n := valueIn base ds
  if fitsInt64 n then some (.integer n, rest) else none

def integer? (cs : List Char) : Option (Node × List Char) :=
  match cs with
  | '0' :: 'x' :: rest => based? 16 (fun c => (Text.hexDigit? c).isSome) rest
  | '0' :: 'o' :: rest => based? 8 (fun c => '0' ≤ c && c ≤ '7') rest
  | '0' :: 'b' :: rest => based? 2 (fun c => c = '0' || c = '1') rest
  | _ => do
    let (negative, rest) := sign cs
    let (ds, rest) ← decimal? rest
    let n : Int := valueIn 10 ds
    let n := if negative then -n else n
    if fitsInt64 n then some (.integer n, rest) else none

/-- The exponent of a float, if its mark comes next. -/
def exponent? (cs : List Char) : Option (Option Int × List Char) :=
  match cs with
  | [] => some (none, [])
  | c :: rest =>
    if c = 'e' ∨ c = 'E' then do
      let (negative, rest) := sign rest
      let (ds, rest) ← digits? Char.isDigit rest
      let n : Int := valueIn 10 ds
      some (some (if negative then -n else n), rest)
    else some (none, cs)

/-- A positive float that is too large is refused; a negative one is infinite. -/
def floatOf? (negative : Bool) (digits : List Char) (exponent : Int) : Option Node :=
  let d := Double.ofDecimal negative (valueIn 10 digits) exponent
  if d.isFinite || negative then some (.float d) else none

/-- A float with a fraction or an exponent, or a special one. -/
def float? (cs : List Char) : Option (Node × List Char) :=
  let (negative, rest) := sign cs
  match rest with
  | 'i' :: 'n' :: 'f' :: rest =>
    some (.float (.ofMagnitude negative Double.infinityBits), rest)
  | 'n' :: 'a' :: 'n' :: rest =>
    some (.float (.ofMagnitude negative (Double.infinityBits + Nat.pow 2 51)), rest)
  | _ => do
    let (whole, rest) ← decimal? rest
    match rest with
    | '.' :: rest => do
      let (places, rest) ← digits? Char.isDigit rest
      let (exponent, rest) ← exponent? rest
      let node ← floatOf? negative (whole ++ places) (exponent.getD 0 - places.length)
      some (node, rest)
    | _ =>
      match exponent? rest with
      | some (some exponent, rest) => (floatOf? negative whole exponent).map fun n => (n, rest)
      | _ => none

/-! ## Dates and times -/

/-- Exactly so many decimal digits, as a number from `low` to `high`. -/
def field? (count low high : Nat) (cs : List Char) : Option (List Char) :=
  let ds := cs.take count
  let n := valueIn 10 ds
  if ds.length = count ∧ ds.all Char.isDigit ∧ low ≤ n ∧ n ≤ high then some (cs.drop count)
  else none

def expect? (c : Char) : List Char → Option (List Char)
  | d :: rest => if c = d then some rest else none
  | [] => none

def isLeap (year : Nat) : Bool :=
  year % 4 = 0 && (year % 100 != 0 || year % 400 = 0)

def daysIn (year month : Nat) : Nat :=
  if month = 2 then (if isLeap year then 29 else 28)
  else if [4, 6, 9, 11].contains month then 30 else 31

/-- What follows a date. -/
def date? (cs : List Char) : Option (List Char) := do
  let year := valueIn 10 (cs.take 4)
  let cs ← field? 4 0 9999 cs
  let cs ← expect? '-' cs
  let month := valueIn 10 (cs.take 2)
  let cs ← field? 2 1 12 cs
  let cs ← expect? '-' cs
  field? 2 1 (daysIn year month) cs

/-- What follows a fraction of a second, if there is one. -/
def skipFraction (cs : List Char) : List Char :=
  match cs with
  | '.' :: c :: rest => if c.isDigit then rest.dropWhile Char.isDigit else cs
  | _ => cs

/-- What follows a time of day; a minute may have a leap second. -/
def time? (cs : List Char) : Option (List Char) := do
  let cs ← field? 2 0 23 cs
  let cs ← expect? ':' cs
  let cs ← field? 2 0 59 cs
  let cs ← expect? ':' cs
  let cs ← field? 2 0 60 cs
  some (skipFraction cs)

/-- What follows an offset from universal time, if there is one. -/
def offset? (cs : List Char) : Option (List Char) :=
  match cs with
  | [] => none
  | c :: rest =>
    if c = 'Z' ∨ c = 'z' then some rest
    else if c = '+' ∨ c = '-' then do
      let rest ← field? 2 0 23 rest
      let rest ← expect? ':' rest
      field? 2 0 59 rest
    else none

def isTimeMark (c : Char) : Bool :=
  c = 'T' || c = 't' || c = ' '

/-- What follows the time of a date, if there is one. -/
def skipTime (cs : List Char) : List Char :=
  match cs with
  | [] => []
  | c :: rest =>
    if isTimeMark c then
      match time? rest with
      | some rest => (offset? rest).getD rest
      | none => cs
    else cs

/-- A date, a time of day, or both. -/
def moment? (cs : List Char) : Option (Node × List Char) :=
  let node (rest : List Char) : Node × List Char :=
    (.moment (String.ofList (cs.take (cs.length - rest.length))), rest)
  match date? cs with
  | some rest => some (node (skipTime rest))
  | none => (time? cs).map node

/-- A number or a moment. -/
def number? (cs : List Char) : Option (Node × List Char) :=
  (moment? cs).or ((float? cs).or (integer? cs))

end Stepwise.Toml
