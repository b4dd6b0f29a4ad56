import Stepwise.Inspect
import Stepwise.Outline
import Stepwise.Session.Bench
/-!
# A sequence by itself

Commands on one sequence: adding to it, looking at it, and running it or parts of it.
-/

namespace Stepwise.Session

open Script

structure OneSequence where
  bench : Bench := .fresh
  sequence : Sequence Memory := .empty

namespace OneSequence

inductive Command where
  | shared (command : Session.Command)
  | openChain (initial : Values)
  | openCondition (predicate : StepScript)
  | openLoop (predicate : StepScript)
  /-- Pushes a copy of the item at an index. -/
  | pushCopy (index : Nat)
  | addBranch (predicate : StepScript)
  | addFallback (action : StepScript)
  | compose (action : StepScript)
  | isEmpty
  | kinds
  | branches
  | outline
  | debug
  | run (config : Config) (results : ResultSet)
  | evaluate (index : Nat) (config : Config)
  | repeats (index : Nat) (config : Config)
  | runActions (index branch : Nat) (input : Values) (config : Config)

inductive Reply where
  | shared (reply : Session.Reply)
  | length (n : Nat)
  | accepted
  | rejected (error : BuildError)
  | flag (b : Bool)
  | kinds (kinds : List ItemKind)
  | branches (items : List (List (Slot Memory)))
  | outline (outline : Outline)
  | text (s : String)
  | ran (outcome : Outcome (Except FlowError Unit)) (results : ResultSet)
  | output (outcome : Outcome (Except FlowError (Option Values)))
  | settlement (outcome : Outcome Settlement)
  /-- There is nothing at that index. -/
  | nothing

/-- The step of a script, in the memory that knows its body. -/
def build (st : Bench) (script : StepScript) : Step Memory × Bench :=
  let (body, memory) := st.user.register
  (script.toStep passLimit body, { st with user := memory })

def push (s : OneSequence) (bench : Bench) (item : Item Memory) : Reply × OneSequence :=
  let sequence := s.sequence.push item
  (.length sequence.length, { bench, sequence })

def attempt (s : OneSequence) (bench : Bench) :
    Except BuildError (Sequence Memory) → Reply × OneSequence
  | .ok sequence => (.accepted, { bench, sequence })
  | .error error => (.rejected error, { s with bench })

def perform (s : OneSequence) : Command → Reply × OneSequence
  | .shared command =>
    let (reply, bench) := command.perform s.bench
    (.shared reply, { s with bench })
  | .openChain initial => s.push s.bench (.chain initial)
  | .openCondition predicate =>
    let (step, bench) := build s.bench predicate
    s.push bench (.condition step)
  | .openLoop predicate =>
    let (step, bench) := build s.bench predicate
    s.push bench (.loop step)
  | .pushCopy index =>
    match s.sequence.items[index]? with
    | some item => s.push s.bench item
    | none => (.nothing, s)
  | .addBranch predicate =>
    let (step, bench) := build s.bench predicate
    s.attempt bench (s.sequence.addBranch step)
  | .addFallback action =>
    let (step, bench) := build s.bench action
    s.attempt bench (s.sequence.addFallback step)
  | .compose action =>
    let (step, bench) := build s.bench action
    s.attempt bench (s.sequence.compose step)
  | .isEmpty => (.flag s.sequence.items.isEmpty, s)
  | .kinds => (.kinds (s.sequence.items.map Item.kind), s)
  | .branches => (.branches (s.sequence.items.map Item.slots), s)
  | .outline => (.outline s.sequence.outline, s)
  | .debug => (.text (Inspect.sequence s.sequence), s)
  | .run config results =>
    let (outcome, st) :=
      drive (.fresh (s.sequence.run passLimit config)) (s.bench.attach results)
    let (results, bench) := st.detach
    (.ran outcome results, { s with bench })
  | .evaluate index config =>
    match s.sequence.items[index]? with
    | none => (.nothing, s)
    | some item =>
      let (outcome, bench) := drive (.fresh (item.evaluate config)) s.bench
      (.output outcome, { s with bench })
  | .repeats index config =>
    match s.sequence.items[index]? with
    | none => (.nothing, s)
    | some item =>
      let (outcome, bench) := drive (.fresh (item.repeats passLimit config)) s.bench
      (.output outcome, { s with bench })
  | .runActions index branch input config =>
    match (s.sequence.items[index]?).bind (·.slots[branch]?) with
    | none => (.nothing, s)
    | some slot =>
      let (outcome, bench) :=
        drive (.fresh (Stepwise.runActions config slot.actions input)) s.bench
      (.settlement outcome, { s with bench })

end OneSequence

end Stepwise.Session
