import Stepwise.Host
import Stepwise.Inspect
import Stepwise.Outline
import Stepwise.Session.Bench
/-!
# A flow by itself

Commands on one flow: declaring clauses, running it at once or poll by poll, and looking at it.
While a run is in progress only the commands that drive it, and those that look into the memory,
are answered.
-/

namespace Stepwise.Session

open Script

abbrev OneFlow := Host Memory

namespace OneFlow

def fresh : OneFlow := { store := Bench.fresh }

inductive Command where
  | shared (command : Session.Command)
  | declare (declaration : Declaration)
  | exec
  /-- Registers a resolver and runs the flow. -/
  | execWith (name : String) (complaint : Option String)
  /-- Runs the flow and compares its results. -/
  | execExpecting (values : List Value)
  | start
  | poll
  | finish
  | dropRun
  | results
  | outline
  | config
  | debug
  | sequenceDebug

/-- How the results of a run compare to what was expected. -/
inductive Verdict where
  | asExpected
  | unexpected
  | failed (error : FlowError)

def Verdict.text : Verdict → String
  | asExpected => "as expected"
  | unexpected => "unexpected flow results"
  | failed error => "flow failed: " ++ error.message

inductive Reply where
  | shared (reply : Session.Reply)
  | busy
  | noRun
  | text (s : String)
  | completion (outcome : Outcome Completion)
  /-- A run whose completion only its resolvers are told. -/
  | ran (outcome : Outcome Unit)
  | verdict (outcome : Outcome Verdict)
  | started
  | dropped
  | results (results : ResultSet)
  | outline (outline : Outline)
  | config (config : Config)

def verdict (expected : List Value) : Completion → Verdict
  | .ok results => if results.same expected then .asExpected else .unexpected
  | .error error => .failed error

/-- The commands that need a flow without a run in progress. -/
def performIdle (s : OneFlow) : Command → Reply × OneFlow
  | .declare declaration =>
    let s := s.build (declaration.declare passLimit .direct)
    (.text (Inspect.flow s.flow), s)
  | .exec =>
    let (outcome, s) := s.exec passLimit pollLimit
    (.completion outcome, s)
  | .execWith name complaint =>
    let (body, memory) := s.store.user.register
    let s : OneFlow := { s with store := { s.store with user := memory } }
    let (outcome, s) := s.execWith passLimit pollLimit (resolver body name complaint)
    (.ran (outcome.map fun _ => ()), s)
  | .execExpecting values =>
    let (outcome, s) := s.exec passLimit pollLimit
    (.verdict (outcome.map (verdict values)), s)
  | .start => (.started, s.start passLimit)
  | .results => (.results s.flow.results, s)
  | .outline => (.outline s.flow.sequence.outline, s)
  | .config => (.config s.flow.config, s)
  | .debug => (.text (Inspect.flow s.flow), s)
  | .sequenceDebug => (.text (Inspect.sequence s.flow.sequence), s)
  | _ => (.noRun, s)

/-- Drives the run in progress on, if there is one. -/
def resume (s : OneFlow) (polls : Nat) : Reply × OneFlow :=
  match Host.resume polls s with
  | (some outcome, s) => (.completion outcome, s)
  | (none, s) => (.noRun, s)

def perform (s : OneFlow) (command : Command) : Reply × OneFlow :=
  match command with
  | .shared command =>
    let (reply, store) := command.perform s.store
    (.shared reply, { s with store })
  | .poll => resume s 1
  | .finish => resume s pollLimit
  | .dropRun => if s.run.isSome then (.dropped, s.drop) else (.noRun, s)
  | command => if s.run.isSome then (.busy, s) else performIdle s command

end OneFlow

end Stepwise.Session
