import Stepwise.Poll
import Stepwise.Script.Body
/-!
# A bench for scripted code

What every session of scripted code shares: a store, the commands that look into its memory or
settle a continuation put away there, and the way a suspended program is driven to its end.
-/

namespace Stepwise.Session

open Script

/-- How often a program is polled before it counts as stuck. -/
def pollLimit : Nat := 2000

/-- The passes a loop is given. -/
def passLimit : Nat := 1000000000

abbrev Bench := Store Memory

def Bench.fresh : Bench := { user := {} }

/-- How to complete a continuation; without a result it is dropped. -/
abbrev Completing := Option (Except Cause Values)

namespace Completing

def resolve (output : Output) : Completing := some (.ok output.toValues)

def reject (cause : Cause) : Completing := some (.error cause)

/-- Resolves with an output, or rejects with an error. -/
def ofResult : Except Cause Output → Completing
  | .ok output => resolve output
  | .error cause => reject cause

def drop : Completing := none

end Completing

def complete {υ : Type} (st : Store υ) (handle : Handle) : Completing → Store υ
  | some result => st.settle [] handle (.ofResult result)
  | none => st.discard handle

/-- Drives a program to its end; one that is stuck is dropped. -/
def drive {υ α : Type} (p : Parked υ α) (st : Store υ) : Outcome α × Store υ :=
  p.drive pollLimit st

inductive Command where
  | settle (key : String) (how : Completing)
  | isWaiting (key : String)
  | var (name : String)
  | setVar (name : String) (value : Value)
  | count (name : String)

inductive Reply where
  | settled (found : Bool)
  /-- Whether the continuation under the key is waited for, if there is one. -/
  | waiting (state : Option Bool)
  | value (value : Value)
  | assigned
  | counted (count : Nat) (called : Bool)

def Command.perform (command : Command) (st : Bench) : Reply × Bench :=
  match command with
  | settle key how =>
    match st.user.stashed? key with
    | some handle =>
      (.settled true, complete { st with user := st.user.eraseStash key } handle how)
    | none => (.settled false, st)
  | isWaiting key => (.waiting ((st.user.stashed? key).map st.isWaiting), st)
  | var name => (.value (st.user.var name), st)
  | setVar name value => (.assigned, { st with user := st.user.setVar name value })
  | count name => (.counted (st.user.count name) (st.user.wasCalled name), st)

/-- What was logged and reported, oldest first. -/
structure Record where
  log : List LogEntry
  events : List Event

/-- Ends a command: sends what is still scheduled, and hands out what was recorded. -/
def Bench.close (st : Bench) : Record × Bench :=
  let st := st.deliver
  ({ log := st.user.log.reverse, events := st.trace.toList },
    { st with user := { st.user with log := [] }, trace := #[] })

end Stepwise.Session
