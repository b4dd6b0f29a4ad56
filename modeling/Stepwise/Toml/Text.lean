import Stepwise.Text.Hex
/-!
# TOML strings

The four kinds of string: basic and literal, on one line or on several. Each reader starts behind
the opening quotes and returns the text and what follows the closing ones.
-/

namespace Stepwise.Toml

/-- Characters that stand for themselves in strings and comments: no controls but the tab. -/
def isPlain (c : Char) : Bool :=
  c = '\t' || (32 ≤ c.toNat && c.toNat != 127)

def isSpace (c : Char) : Bool :=
  c = ' ' || c = '\t'

def skipSpaces (cs : List Char) : List Char :=
  cs.dropWhile isSpace

/-- What follows a line break, if there is one. -/
def newline? : List Char → Option (List Char)
  | '\n' :: rest => some rest
  | '\r' :: '\n' :: rest => some rest
  | _ => none

/-- A line break right behind the opening quotes does not count. -/
def dropNewline (cs : List Char) : List Char :=
  (newline? cs).getD cs

/-- Exactly so many hexadecimal digits. -/
def hexDigits? (n : Nat) : Nat → List Char → Option (Nat × List Char)
  | 0, cs => some (n, cs)
  | _ + 1, [] => none
  | count + 1, c :: rest =>
    match Text.hexDigit? c with
    | some d => hexDigits? (n * 16 + d) count rest
    | none => none

/-- The character with a given code, unless it is a surrogate or out of range. -/
def codePoint? (n : Nat) : Option Char :=
  if h : n.isValidChar then some (Char.ofNatAux n h) else none

/-- The character of an escape, behind its backslash. -/
def escape? : List Char → Option (Char × List Char)
  | [] => none
  | c :: rest =>
    if c = '"' ∨ c = '\\' then some (c, rest)
    else if c = 'b' then some (Char.ofNat 8, rest)
    else if c = 't' then some ('\t', rest)
    else if c = 'n' then some ('\n', rest)
    else if c = 'f' then some (Char.ofNat 12, rest)
    else if c = 'r' then some ('\r', rest)
    else if c = 'u' ∨ c = 'U' then
      match hexDigits? 0 (if c = 'u' then 4 else 8) rest with
      | some (n, rest) => (codePoint? n).map fun c => (c, rest)
      | none => none
    else none

/-- Spaces and line breaks. -/
def skipBlank : List Char → List Char
  | '\n' :: rest => skipBlank rest
  | '\r' :: '\n' :: rest => skipBlank rest
  | c :: rest => if isSpace c then skipBlank rest else c :: rest
  | [] => []

/-- The number of quotes at the front. -/
def countQuotes (quote : Char) (cs : List Char) : Nat :=
  (cs.takeWhile (· = quote)).length

/-- A basic string on one line; `found` holds what was read, newest first. -/
def basic? (fuel : Nat) (found cs : List Char) : Option (String × List Char) :=
  match fuel, cs with
  | 0, _ => none
  | _, [] => none
  | fuel + 1, c :: rest =>
    if c = '"' then some (String.ofList found.reverse, rest)
    else if c = '\\' then
      match escape? rest with
      | some (c, rest) => basic? fuel (c :: found) rest
      | none => none
    else if isPlain c then basic? fuel (c :: found) rest
    else none

/-- A literal string on one line. -/
def literal? (found : List Char) : List Char → Option (String × List Char)
  | [] => none
  | c :: rest =>
    if c = '\'' then some (String.ofList found.reverse, rest)
    else if isPlain c then literal? (c :: found) rest
    else none

/--
A string on several lines. Up to two quotes may stand in it, also right before the three that close
it. In a basic one a backslash at the end of a line joins it to what follows the blanks.
-/
def multiline? (quote : Char) (fuel : Nat) (found cs : List Char) : Option (String × List Char) :=
  match fuel, cs with
  | 0, _ => none
  | _, [] => none
  | fuel + 1, c :: rest =>
    if c = quote then
      let count := countQuotes quote cs
      if count < 3 then
        multiline? quote fuel (List.replicate count quote ++ found) (cs.drop count)
      else
        let closing := min count 5
        some (String.ofList (List.replicate (closing - 3) quote ++ found).reverse, cs.drop closing)
    else if c = '\\' ∧ quote = '"' then
      match newline? (skipSpaces rest) with
      | some rest => multiline? quote fuel found (skipBlank rest)
      | none =>
        match escape? rest with
        | some (c, rest) => multiline? quote fuel (c :: found) rest
        | none => none
    else
      match newline? cs with
      | some rest => multiline? quote fuel ('\n' :: found) rest
      | none => if isPlain c then multiline? quote fuel (c :: found) rest else none

/-- A string with its opening quote still in front, on one line only. -/
def line? : List Char → Option (String × List Char)
  | '"' :: rest => basic? (rest.length + 1) [] rest
  | '\'' :: rest => literal? [] rest
  | _ => none

/-- A string of any kind with its opening quotes still in front. -/
def text? (cs : List Char) : Option (String × List Char) :=
  match cs with
  | '"' :: '"' :: '"' :: rest => multiline? '"' (rest.length + 1) [] (dropNewline rest)
  | '\'' :: '\'' :: '\'' :: rest => multiline? '\'' (rest.length + 1) [] (dropNewline rest)
  | _ => line? cs

end Stepwise.Toml
