import Stepwise.Number.Double
/-!
# TOML data

A document is a tree of nodes. A table remembers how it came about, because that decides what may
still be added to it: a header may open a table that so far was only implied by longer headers,
dotted keys may extend the tables that dotted keys made, and an inline table is complete.
-/

namespace Stepwise.Toml

/-- How a table came about. -/
inductive Origin where
  | header
  /-- By the header of a table inside it. -/
  | implied
  | dotted
  | inline
deriving DecidableEq, Repr

inductive Node where
  | string (s : String)
  | boolean (b : Bool)
  | integer (n : Int)
  | float (d : Double)
  /-- A date, a time or both, as written. -/
  | moment (text : String)
  | array (items : List Node)
  | table (origin : Origin) (fields : List (String × Node))
  /-- An array of tables that headers opened, of which the last is open. -/
  | tables (elements : List (List (String × Node)))
deriving Inhabited

abbrev Fields := List (String × Node)

namespace Fields

def find? (fields : Fields) (key : String) : Option Node :=
  (List.find? (fun entry => entry.1 == key) fields).map (·.2)

/-- Changes what is under a key, where the change is possible. -/
def change (key : String) (f : Option Node → Option Node) : Fields → Option Fields
  | [] => (f none).map fun node => [(key, node)]
  | (k, node) :: rest =>
    if k = key then (f (some node)).map fun node => (k, node) :: rest
    else (change key f rest).map fun rest => (k, node) :: rest

/-- Changes the last of the tables of an array. -/
def changeLast (f : Fields → Option Fields) : List Fields → Option (List Fields)
  | [] => none
  | [fields] => (f fields).map fun fields => [fields]
  | fields :: rest => (changeLast f rest).map fun rest => fields :: rest

/--
Goes down a path of headers to change what is under its last key. Tables that are missing on the way
are implied; of an array of tables the last one is meant.
-/
def atHeader (f : Option Node → Option Node) : List String → Fields → Option Fields
  | [], _ => none
  | [key], fields => change key f fields
  | key :: rest, fields =>
    change key (fun
      | none => (atHeader f rest []).map (.table .implied)
      | some (.table .inline _) => none
      | some (.table origin inner) => (atHeader f rest inner).map (.table origin)
      | some (.tables elements) => (changeLast (atHeader f rest) elements).map .tables
      | some _ => none) fields

/-- Opens the table of a header: one that is new, or was only implied. -/
def openTable (path : List String) (fields : Fields) : Option Fields :=
  atHeader (fun
    | none => some (.table .header [])
    | some (.table .implied inner) => some (.table .header inner)
    | some _ => none) path fields

/-- Opens one more table of an array of tables. -/
def openElement (path : List String) (fields : Fields) : Option Fields :=
  atHeader (fun
    | none => some (.tables [[]])
    | some (.tables elements) => some (.tables (elements ++ [[]]))
    | some _ => none) path fields

/-- Puts a node under a dotted key, which must be free. -/
def assign (value : Node) : List String → Fields → Option Fields
  | [], _ => none
  | [key], fields =>
    change key (fun
      | none => some value
      | some _ => none) fields
  | key :: last :: rest, fields =>
    change key (fun
      | none => (assign value (last :: rest) []).map (.table .dotted)
      | some (.table .dotted inner) => (assign value (last :: rest) inner).map (.table .dotted)
      | some (.table .implied inner) =>
        if rest.isEmpty then none
        else (assign value (last :: rest) inner).map (.table .implied)
      | some (.tables elements) =>
        if rest.isEmpty then none
        else (changeLast (assign value (last :: rest)) elements).map .tables
      | some _ => none) fields

/-- Puts a node under a dotted key of the table that a path of headers opened. -/
def assignAt (keys : List String) (value : Node) : List String → Fields → Option Fields
  | [], fields => assign value keys fields
  | key :: path, fields =>
    change key (fun
      | some (.table origin inner) => (assignAt keys value path inner).map (.table origin)
      | some (.tables elements) => (changeLast (assignAt keys value path) elements).map .tables
      | _ => none) fields

end Fields

/-- The statements of a document. -/
inductive Statement where
  | header (path : List String)
  | element (path : List String)
  | assign (keys : List String) (value : Node)

/-- A document under construction: its root, and the path of the table that is open. -/
structure Draft where
  root : Fields := []
  path : List String := []

def Draft.add (draft : Draft) : Statement → Option Draft
  | .header path => (draft.root.openTable path).map ({ root := ·, path })
  | .element path => (draft.root.openElement path).map ({ root := ·, path })
  | .assign keys value =>
    (Fields.assignAt keys value draft.path draft.root).map ({ draft with root := · })

/-- The root table that statements amount to, unless one contradicts those before it. -/
def Fields.ofStatements? (statements : List Statement) : Option Fields :=
  (statements.foldlM Draft.add {}).map Draft.root

end Stepwise.Toml
