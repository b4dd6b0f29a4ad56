import Stepwise.Script.Action
import Stepwise.Step.Stub
/-!
# Scripted steps and flows

A script describes user code as data: the instructions of a body, the style the body is written in,
and the declarations of a flow. `StepScript.toStep` is the step that a script describes. A body can
suspend, or run a flow of its own, only in the styles whose body is awaited.
-/

namespace Stepwise.Script

/-- Steps that are not scripted. -/
inductive Stock where
  | always
  | constant (values : Values)
  | countedSync (counter : String)
  | countedCallback (counter : String)
  | countedFuture (counter : String)
  | countedReturning (counter : String) (values : Values)
  | deferred (values : Values)
  | failing (message : String)

def Stock.toStep : Stock → Step Memory
  | always => .always
  | constant values => .constant values
  | countedSync counter => Step.Stub.countedSync (Memory.bump counter)
  | countedCallback counter => Step.Stub.countedCallback (Memory.bump counter)
  | countedFuture counter => Step.Stub.countedFuture (Memory.bump counter)
  | countedReturning counter values =>
    Step.Stub.countedReturning (Memory.bump counter) values
  | deferred values => Step.Stub.deferred values
  | failing message => Step.Stub.failing message

/-- The clause that a scripted step is declared in. -/
inductive StepClause where
  | condition
  | loop
  | elseIf
  | otherwise
  | andThen
deriving DecidableEq, Repr

def StepClause.toClause {υ : Type} (step : Step υ) : StepClause → Clause υ
  | condition => .condition step
  | loop => .loop step
  | elseIf => .elseIf step
  | otherwise => .otherwise step
  | andThen => .andThen step

mutual

inductive Instruction where
  | act (action : Action)
  /-- The instruction for this turn, the last one from then on. -/
  | byTurn (choices : List Instruction)
  | yield (times : Nat)
  /-- Builds a flow and runs it; its results are the output. -/
  | flow (config : Config) (declarations : List Declaration)

inductive StepScript where
  | scripted (style : Style) (body : List Instruction) (label : Option String)
  | stock (step : Stock) (label : Option String)

inductive Declaration where
  | chain (initial : Values)
  | clause (clause : StepClause) (step : StepScript)
  | config (config : Config)
  | onComplete (name : String) (complaint : Option String)

end

instance : Inhabited Instruction := ⟨.byTurn []⟩

instance : Inhabited StepScript := ⟨.stock .always none⟩

open Program

/-- A resolver that logs what it is told, and then panics if it has a text to panic with. -/
def resolver (body : Nat) (name : String) (complaint : Option String) : Resolver Memory :=
  fun completion => do
    let times ← modifyGet (Memory.start body)
    modify (Memory.note (.notified name (times + 1) completion))
    match complaint with
    | some message => .panic (.text message)
    | none => return ()

def relabel {υ : Type} (step : Step υ) : Option String → Step υ
  | some label => step.withLabel label
  | none => step

mutual

def Instruction.run (limit : Nat) (m : Mode) (locals : Locals) :
    Instruction → Program m Memory Reaction
  | .act action => action.perform locals
  | .byTurn choices => runChoice limit m locals locals.turn choices
  | .yield times =>
    match m with
    | .direct => return .next locals
    | .suspending => do
      pauses times
      return .next locals
  | .flow config declarations =>
    match m with
    | .direct => return .stop (.failure (.message "nested flow in a sync step"))
    | .suspending => do
      let flow ← declareAll limit declarations (Flow.empty.withConfig config)
      let (completion, _) ← (flow.exec limit).withLocal ResultSet.empty
      match completion with
      | .ok results => return .stop (.output ⟨results.toList⟩)
      | .error error => return .stop (.failure (.flow error))

/-- Runs the choice with the given number, or the last one before it. -/
def runChoice (limit : Nat) (m : Mode) (locals : Locals) (turn : Nat) :
    List Instruction → Program m Memory Reaction
  | [] => return .next locals
  | choice :: rest =>
    match rest, turn with
    | [], _ => choice.run limit m locals
    | _ :: _, 0 => choice.run limit m locals
    | _ :: _, turn + 1 => runChoice limit m locals turn rest

/-- Runs instructions until one ends the body; at their end the output is empty. -/
def runBody (limit : Nat) (m : Mode) (locals : Locals) :
    List Instruction → Program m Memory (Option Handle × Ending)
  | [] => return (locals.held, .output .empty)
  | instruction :: rest => do
    match ← instruction.run limit m locals with
    | .next locals => runBody limit m locals rest
    | .stop ending => return (locals.held, ending)

/-- The step that a script describes, its body known under the given number. -/
def StepScript.toStep (limit : Nat) (body : Nat) : StepScript → Step Memory
  | .stock step label => relabel step.toStep label
  | .scripted style instructions label =>
    let body : Body Memory := fun m args held => do
      let turn ← modifyGet (Memory.start body)
      runBody limit m { args, held, turn } instructions
    relabel (style.toStep body) label

def Declaration.declare (limit : Nat) (m : Mode) (flow : Flow Memory) :
    Declaration → Program m Memory (Flow Memory)
  | .chain initial => flow.declare (.chain initial)
  | .clause clause step => do
    let body ← modifyGet Memory.register
    flow.declare (clause.toClause (step.toStep limit body))
  | .config config => return flow.withConfig config
  | .onComplete name complaint => do
    let body ← modifyGet Memory.register
    return flow.onComplete (resolver body name complaint)

def declareAll (limit : Nat) {m : Mode} :
    List Declaration → Flow Memory → Program m Memory (Flow Memory)
  | [], flow => return flow
  | declaration :: rest, flow => do
    declareAll limit rest (← declaration.declare limit m flow)

end

end Stepwise.Script
