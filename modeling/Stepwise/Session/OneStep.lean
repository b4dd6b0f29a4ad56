import Stepwise.Inspect
import Stepwise.Session.Bench
/-!
# A step by itself

Commands on one step: looking at it, invoking it, and calling it with a continuation of its own.
-/

namespace Stepwise.Session

structure OneStep where
  bench : Bench
  step : Step Script.Memory

namespace OneStep

inductive Command where
  | shared (command : Session.Command)
  | shape
  | label
  | debug
  | invoke (args : Values) (config : Config)
  /-- A call; if it is `deaf`, nobody waits for the continuation. -/
  | call (args : Values) (config : Config) (deaf : Bool)

/-- What a call came to. -/
structure CallReport where
  /-- What awaiting the returned task came to, if there was one, or how the call unwound. -/
  returned : Option (Outcome Settlement)
  unwound : Bool
  /-- What the waiter of the continuation found, unless it was dropped before the call. -/
  continuation : Option (Outcome Settlement)

inductive Reply where
  | shared (reply : Session.Reply)
  | shape (shape : Shape)
  | label (label : Option String)
  | text (s : String)
  | settlement (outcome : Outcome Settlement)
  | called (report : CallReport)

def fresh (script : Script.StepScript) : OneStep :=
  let (body, memory) := ({} : Script.Memory).register
  { bench := { user := memory }, step := script.toStep passLimit body }

/-- Calls a step and then awaits what came back, first the task and then the continuation. -/
def call (step : Step Script.Memory) (args : Values) (config : Config) (deaf : Bool) (st : Bench) :
    CallReport × Bench :=
  let (handle, st) := st.openChannel
  let st := if deaf then st.deafen handle else st
  let (called, st) := (step.call args handle config).run st
  let (returned, unwound, st) :=
    match called with
    | .error payload => (some (.unwound payload), true, st)
    | .ok none => (none, false, st)
    | .ok (some task) =>
      let (outcome, st) := drive (.fresh task) st
      (some outcome, false, st)
  if deaf then ({ returned, unwound, continuation := none }, st)
  else
    let (outcome, st) := drive (.waiter handle) st
    ({ returned, unwound, continuation := some outcome }, st)

def perform (s : OneStep) : Command → Reply × OneStep
  | .shared command =>
    let (reply, bench) := command.perform s.bench
    (.shared reply, { s with bench })
  | .shape => (.shape s.step.shape, s)
  | .label => (.label s.step.label, s)
  | .debug => (.text (Inspect.step s.step), s)
  | .invoke args config =>
    let (outcome, bench) := drive (.fresh (s.step.invoke args config)) s.bench
    (.settlement outcome, { s with bench })
  | .call args config deaf =>
    let (report, bench) := call s.step args config deaf s.bench
    (.called report, { s with bench })

end OneStep

end Stepwise.Session
