import Stepwise.Step
/-!
# Styles of writing a body

One body can be made into a step in several styles. A body runs on its arguments and on the
continuation, where the style hands it one, and comes to an ending; a style says when it runs and
how its ending is reported. In the styles whose body is awaited it may suspend.
-/

namespace Stepwise

/-- How a body ends. -/
inductive Ending where
  | output (values : Values)
  | failure (cause : Cause)
  | panic (payload : Panic)

namespace Ending

def ofResult : Except Cause Values → Ending
  | .ok values => output values
  | .error cause => failure cause

/-- The result of a body, or its panic. -/
def conclude {m : Mode} {υ : Type} : Ending → Program m υ (Except Cause Values)
  | output values => return .ok values
  | failure cause => return .error cause
  | panic payload => .panic payload

end Ending

/-- User code for any mode. It returns the continuation, if it still has one, and its ending. -/
abbrev Body (υ : Type) :=
  (m : Mode) → Values → Option Handle → Program m υ (Option Handle × Ending)

inductive Style where
  | sync
  /-- Completes its continuation at the end of the body. -/
  | callback
  /-- Completes its continuation at a later turn. -/
  | spawn
  | future
  /-- Runs the body when the step is called; what comes back is ready. -/
  | eager
  /-- A future with a name of its own. -/
  | named (name : String)
deriving DecidableEq, Repr

namespace Style

variable {υ : Type}

/-- Reports the end of a callback body, unless the continuation is no longer its own. -/
def finish (complete : Handle → Settlement → Direct υ Unit) :
    Option Handle × Ending → Direct υ Unit
  | (some handle, .output values) => complete handle (.ok values)
  | (some handle, .failure cause) => complete handle (.error (.failed cause))
  | (some handle, .panic payload) => do
    Program.discard handle
    .panic payload
  | (none, .panic payload) => .panic payload
  | (none, _) => return ()

/-- Runs a body that is given no continuation. -/
def alone (body : Body υ) (m : Mode) (args : Values) : Program m υ (Except Cause Values) := do
  let (_, ending) ← body m args none
  ending.conclude

/-- The step that a body makes in a style. -/
def toStep (body : Body υ) : Style → Step υ
  | sync => .sync (alone body .direct)
  | callback => .callback fun args done => do
    finish Program.settle (← body .direct args (some done))
  | spawn => .callback fun args done => do
    finish Program.defer (← body .direct args (some done))
  | future => .task (alone body .suspending)
  | eager => .future fun args => do
    let result ← alone body .direct args
    return return result
  | named name => (Step.task (alone body .suspending)).withLabel name

end Style

end Stepwise
