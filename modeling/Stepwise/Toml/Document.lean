import Stepwise.Toml.Scalar
/-!
# TOML documents

Reads a whole document: keys, values, and one statement on a line.
-/

namespace Stepwise.Toml

/-- How deep arrays and inline tables may nest, and how many parts a key may have. -/
def depthLimit : Nat := 80

def isBareKey (c : Char) : Bool :=
  c.isAlphanum || c = '_' || c = '-'

/-- One part of a key: bare, or quoted on one line. -/
def keyPart? (cs : List Char) : Option (String × List Char) :=
  match line? cs with
  | some found => some found
  | none =>
    let part := cs.takeWhile isBareKey
    if part.isEmpty then none else some (String.ofList part, cs.dropWhile isBareKey)

/-- The parts of a key, with dots between them; `found` is newest first. -/
def keyParts? (fuel : Nat) (found : List String) (cs : List Char) :
    Option (List String × List Char) :=
  match fuel with
  | 0 => none
  | fuel + 1 =>
    match keyPart? (skipSpaces cs) with
    | none => none
    | some (part, rest) =>
      match skipSpaces rest with
      | '.' :: rest => keyParts? fuel (part :: found) rest
      | rest => some ((part :: found).reverse, rest)

/-- A key, and what follows it and the spaces behind it. -/
def key? (cs : List Char) : Option (List String × List Char) :=
  keyParts? (depthLimit - 1) [] cs

/-- Passes over a comment, if there is one, up to the end of its line. -/
def comment? : List Char → Option (List Char)
  | '#' :: rest =>
    match rest.dropWhile isPlain with
    | [] => some []
    | rest => if (newline? rest).isSome then some rest else none
  | cs => some cs

/-- Passes over blanks, line breaks and comments. -/
def skipLines? (fuel : Nat) (cs : List Char) : Option (List Char) :=
  match fuel with
  | 0 => none
  | fuel + 1 =>
    match skipBlank cs with
    | '#' :: rest =>
      match comment? ('#' :: rest) with
      | some rest => skipLines? fuel rest
      | none => none
    | rest => some rest

def blanks? (cs : List Char) : Option (List Char) :=
  skipLines? (cs.length + 1) cs

mutual

/-- A value; `depth` is how deep arrays and inline tables may still nest. -/
def value? (fuel depth : Nat) (cs : List Char) : Option (Node × List Char) :=
  match fuel with
  | 0 => none
  | fuel + 1 =>
    match cs with
    | [] => none
    | '[' :: rest =>
      match depth with
      | 0 => none
      | depth + 1 => (items? fuel depth [] rest).map fun (items, rest) => (.array items, rest)
    | '\x7b' :: rest =>
      match depth with
      | 0 => none
      | depth + 1 =>
        match skipSpaces rest with
        | '\x7d' :: rest => some (.table .inline [], rest)
        | rest =>
          (fields? fuel depth [] rest).map fun (fields, rest) => (.table .inline fields, rest)
    | 't' :: 'r' :: 'u' :: 'e' :: rest => some (.boolean true, rest)
    | 'f' :: 'a' :: 'l' :: 's' :: 'e' :: rest => some (.boolean false, rest)
    | c :: _ =>
      if c = '"' ∨ c = '\'' then (text? cs).map fun (s, rest) => (.string s, rest)
      else number? cs

/-- The items of an array up to its closing bracket; `found` is newest first. -/
def items? (fuel depth : Nat) (found : List Node) (cs : List Char) :
    Option (List Node × List Char) :=
  match fuel with
  | 0 => none
  | fuel + 1 =>
    match blanks? cs with
    | none => none
    | some (']' :: rest) => some (found.reverse, rest)
    | some rest =>
      match value? fuel depth rest with
      | none => none
      | some (item, rest) =>
        match blanks? rest with
        | some (',' :: rest) => items? fuel depth (item :: found) rest
        | some (']' :: rest) => some ((item :: found).reverse, rest)
        | _ => none

/-- The fields of an inline table up to its closing brace. -/
def fields? (fuel depth : Nat) (found : Fields) (cs : List Char) :
    Option (Fields × List Char) :=
  match fuel with
  | 0 => none
  | fuel + 1 =>
    match key? cs with
    | some (keys, '=' :: rest) =>
      match value? fuel depth (skipSpaces rest) with
      | none => none
      | some (value, rest) =>
        match found.assign value keys with
        | none => none
        | some found =>
          match skipSpaces rest with
          | ',' :: rest => fields? fuel depth found rest
          | '\x7d' :: rest => some (found, rest)
          | _ => none
    | _ => none

end

/-- Passes over the end of a line: spaces, a comment, and the break or the end of the text. -/
def lineEnd? (cs : List Char) : Option (List Char) :=
  match comment? (skipSpaces cs) with
  | none => none
  | some [] => some []
  | some rest => newline? rest

/-- A statement, at the first character of a line that has one. -/
def statement? (cs : List Char) : Option (Statement × List Char) :=
  match cs with
  | '[' :: '[' :: rest =>
    match key? rest with
    | some (path, ']' :: ']' :: rest) => some (.element path, rest)
    | _ => none
  | '[' :: rest =>
    match key? rest with
    | some (path, ']' :: rest) => some (.header path, rest)
    | _ => none
  | cs =>
    match key? cs with
    | some (keys, '=' :: rest) =>
      (value? (2 * rest.length + 2) (depthLimit - 1) (skipSpaces rest)).map fun (value, rest) =>
        (.assign keys value, rest)
    | _ => none

/-- The statements of a text; `found` is newest first. -/
def statements? (fuel : Nat) (found : List Statement) (cs : List Char) :
    Option (List Statement) :=
  match fuel with
  | 0 => none
  | fuel + 1 =>
    match blanks? cs with
    | none => none
    | some [] => some found.reverse
    | some rest =>
      match statement? rest with
      | none => none
      | some (statement, rest) =>
        match lineEnd? rest with
        | some rest => statements? fuel (statement :: found) rest
        | none => none

/-- A byte order mark at the beginning does not count. -/
def dropMark (cs : List Char) : List Char :=
  match cs with
  | c :: rest => if c.toNat = 0xFEFF then rest else cs
  | [] => []

/-- The root table of a document. -/
def ofText? (source : String) : Option Fields :=
  let cs := dropMark source.toList
  (statements? (cs.length + 1) [] cs).bind Fields.ofStatements?

end Stepwise.Toml
