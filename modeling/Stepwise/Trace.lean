import Stepwise.Failure
/-!
# Traces

What the engine reports while it works: a `Notice` says what happened, and an `Event` adds the spans
that were entered at that moment, outermost first.
-/

namespace Stepwise

/-- A stretch of a run that its notices are reported under. -/
inductive Span where
  | flow (label : String)
  | item (index : Nat) (kind : ItemKind)
deriving DecidableEq, Repr

def Span.text : Span → String
  | flow label => "Flow " ++ label
  | item index kind => s!"Item {index} {kind.word}"

inductive Level where
  | trace
  | debug
  | info
  | warn
  | error
deriving DecidableEq, Repr

def Level.word : Level → String
  | trace => "TRACE"
  | debug => "DEBUG"
  | info => "INFO"
  | warn => "WARN"
  | error => "ERROR"

/-- The value of a field of a notice. -/
inductive Field where
  | number (n : Nat)
  | text (s : String)
deriving DecidableEq, Repr

inductive Notice where
  /-- A completion was sent although nobody waits for it any more. -/
  | waiterGone
  | branchMatched (branch : Nat)
  | predicateFalse (branch : Nat)
  | noBranchMatched
  | runningAction (position : Nat) (label : Option String) (shape : Shape)
  | loopFinished (passes : Nat)
  | itemFailed (index : Nat) (kind : ItemKind) (error : FlowError)
  | invalidDeclaration (error : BuildError)
  | refused (error : BuildError)
  | flowStarted (items : Nat)
  | flowCompleted (results : Nat)
  | flowFailed (error : FlowError)

namespace Notice

def level : Notice → Level
  | waiterGone | predicateFalse _ | runningAction .. => .trace
  | branchMatched _ | noBranchMatched | loopFinished _ | flowStarted _ => .debug
  | flowCompleted _ => .info
  | itemFailed .. | invalidDeclaration _ | flowFailed _ => .warn
  | refused _ => .error

def message : Notice → String
  | waiterGone => "Continuation completed after its waiter went away"
  | branchMatched _ => "Branch matched"
  | predicateFalse _ => "Predicate did not hold"
  | noBranchMatched => "No branch matched"
  | runningAction .. => "Running action"
  | loopFinished _ => "Loop finished"
  | itemFailed .. => "Item failed, stopping flow"
  | invalidDeclaration _ => "Invalid flow declaration"
  | refused _ => "Refusing to run a malformed flow"
  | flowStarted _ => "Flow started"
  | flowCompleted _ => "Flow completed"
  | flowFailed _ => "Flow failed"

def fields : Notice → List (String × Field)
  | waiterGone | noBranchMatched => []
  | branchMatched branch | predicateFalse branch => [("branch", .number branch)]
  | runningAction position label shape =>
    [("action", .number position), ("label", .text (label.getD "anonymous")),
      ("shape", .text shape.word)]
  | loopFinished passes => [("passes", .number passes)]
  | itemFailed index kind error =>
    [("item", .number index), ("kind", .text kind.word), ("error", .text error.message)]
  | invalidDeclaration error | refused error => [("error", .text error.message)]
  | flowStarted items => [("items", .number items)]
  | flowCompleted results => [("results", .number results)]
  | flowFailed error => [("error", .text error.message)]

end Notice

structure Event where
  notice : Notice
  /-- The spans entered when it was reported, outermost first. -/
  spans : List Span

end Stepwise
