import Stepwise.Flow
import Stepwise.Text.Quoted
/-!
# Inspecting flows

One-line descriptions of steps, slots, items, sequences and flows, for people to read. The identity
of a flow is left out of its description.
-/

namespace Stepwise

namespace Inspect

/-- A record with named fields. -/
def record (name : String) (fields : List (String × String)) : String :=
  let shown := fields.map fun (key, text) => key ++ ": " ++ text
  name ++ " \x7b " ++ ", ".intercalate shown ++ " \x7d"

def list (items : List String) : String :=
  "[" ++ ", ".intercalate items ++ "]"

def option : Option String → String
  | some text => "Some(" ++ text ++ ")"
  | none => "None"

def bool (b : Bool) : String :=
  if b then "true" else "false"

def shape : Shape → String
  | .sync => "Sync"
  | .callback => "Callback"
  | .future => "Future"

def itemKind : ItemKind → String
  | .chain => "Chain"
  | .condition => "Condition"
  | .loop => "Loop"

def buildError : BuildError → String
  | .noOpenItem clause => "NoOpenItem(" ++ Text.quoted clause.word ++ ")"
  | .notACondition clause kind =>
    record "NotACondition" [("clause", Text.quoted clause.word), ("kind", Text.quoted kind.word)]
  | .afterElse clause => "AfterElse(" ++ Text.quoted clause.word ++ ")"

variable {υ : Type}

def step (s : Step υ) : String :=
  record "AsyncFunction"
    [("shape", shape s.shape), ("label", option (s.label.map Text.quoted))]

def slot (s : Slot υ) : String :=
  record "Behavior" [("predicate", step s.predicate), ("actions", list (s.actions.map step))]

def item (i : Item υ) : String :=
  record "SequenceItem"
    [("kind", itemKind i.kind), ("behaviors", list (i.slots.map slot)), ("closed", bool i.closed)]

def sequence (s : Sequence υ) : String :=
  record "FlowSequence" [("items", list (s.items.map item))]

def flow (f : Flow υ) : String :=
  record "FlowControl"
    [("id", "_"), ("items", toString f.sequence.length), ("resolvers", toString f.resolvers.length),
      ("build_error", option (f.buildError.map buildError))]

end Inspect

end Stepwise
