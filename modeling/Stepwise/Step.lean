import Stepwise.Config
import Stepwise.Output
import Stepwise.Program
/-!
# Steps

A step is user code in one of three shapes. `Step.call` is the common calling convention: arguments
and a continuation go in, and a task comes back if the outcome is to be awaited. `Step.invoke` runs
a step to its settlement whatever its shape: a task that came back decides, and otherwise the
continuation does.
-/

namespace Stepwise

inductive Invoker (υ : Type) where
  | sync (body : Values → Direct υ (Except Cause Values))
  /-- The body owns the continuation: it completes it, drops it, or hands it out. -/
  | callback (body : Values → Handle → Direct υ Unit)
  /-- Starting is a plain call; what comes back is awaited. -/
  | future (start : Values → Direct υ (Suspending υ (Except Cause Values)))

structure Step (υ : Type) where
  invoker : Invoker υ
  label : Option String := none

/-- Runs a program, turning a panic into an error where the configuration asks for that. -/
def Config.guarded {m : Mode} {υ α : Type} (config : Config) (p : Program m υ α) :
    Program m υ (Except FlowError α) :=
  if config.catchPanics then do
    match ← p.caught with
    | .ok value => return .ok value
    | .error payload => return .error (.panicked payload.message)
  else do
    return .ok (← p)

namespace Step

variable {υ : Type}

def sync (body : Values → Direct υ (Except Cause Values)) : Step υ :=
  { invoker := .sync body }

def callback (body : Values → Handle → Direct υ Unit) : Step υ :=
  { invoker := .callback body }

def future (start : Values → Direct υ (Suspending υ (Except Cause Values))) :
    Step υ :=
  { invoker := .future start }

/-- A step whose starting does nothing, and whose body runs as the task that comes back. -/
def task (body : Values → Suspending υ (Except Cause Values)) : Step υ :=
  future fun args => return body args

def withLabel (step : Step υ) (label : String) : Step υ :=
  { step with label := some label }

/-- The predicate that always holds. -/
def always : Step υ :=
  (sync fun _ => return .ok (.single (.bool true))).withLabel "always"

/-- Ignores its input and yields the given values. -/
def constant (values : Values) : Step υ :=
  (sync fun _ => return .ok values).withLabel "initial values"

def shape (step : Step υ) : Shape :=
  match step.invoker with
  | .sync _ => .sync
  | .callback _ => .callback
  | .future _ => .future

/--
Calls a step. A plain function settles the continuation at once. A callback gets it; a panic during
the call, where caught, comes back as a task that is already settled. A future drops it unused, for
its task decides.
-/
def call (step : Step υ) (args : Values) (done : Handle) (config : Config) :
    Direct υ (Option (Suspending υ Settlement)) :=
  match step.invoker with
  | .sync body => do
    let result ← (config.guarded (body args)).onPanic (.discard done)
    Program.settle done (result.bind Settlement.ofResult)
    return none
  | .callback body => do
    match ← config.guarded (body args done) with
    | .ok () => return none
    | .error error => return some (return .error error)
  | .future start => do
    Program.discard done
    match ← config.guarded (start args) with
    | .ok body => return some (return Settlement.ofResult (← body))
    | .error error => return some (return .error error)

/-- Awaits what a call came to, given the continuation that was passed to it. -/
def outcome (done : Handle) (config : Config) :
    Option (Suspending υ Settlement) → Suspending υ Settlement
  | some task => return (← config.guarded task).bind id
  | none => Program.settled done

/-- Runs a step to its settlement. -/
def invoke (step : Step υ) (args : Values) (config : Config) : Suspending υ Settlement := do
  let done ← Program.openChannel
  Program.closing done do
    outcome done config (← (step.call args done config).relax)

end Step

end Stepwise
