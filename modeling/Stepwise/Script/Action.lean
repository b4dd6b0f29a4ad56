import Stepwise.Output
import Stepwise.Script.Memory
import Stepwise.Step.Style
/-!
# Actions of a script

The instructions of a body that neither suspend nor contain other instructions. An action either
lets the body go on, with its arguments and its continuation as they are then, or ends it.
-/

namespace Stepwise.Script

/-- Typed access to an argument, its result seen as a value. -/
inductive Accessor where
  | any
  | int
  | double
  | bool
  | string
deriving DecidableEq, Repr

/-- A double is shown by its bits. -/
def Accessor.read (accessor : Accessor) (args : Values) (index : Nat) :
    Except AccessError Value :=
  match accessor with
  | any => args.arg index
  | int => (args.int index).map .int
  | double => (args.double index).map fun d => .string d.hex
  | bool => (args.bool index).map .bool
  | string => (args.string index).map .string

inductive Action where
  /-- Notes the arguments under a tag. -/
  | log (tag : String)
  | set (name : String) (value : Value)
  | increment (name : String)
  /-- Appends a value to the arguments. -/
  | push (value : Value)
  | give (output : Output)
  | giveArgs
  | giveLength
  | giveVar (name : String)
  | giveLess (name : String) (bound : Int)
  | giveArg (accessor : Accessor) (index : Nat)
  /-- The sum of the first two arguments. -/
  | giveSum
  | giveAdd (n : Int)
  | giveQuotient (n : Int)
  | fail (cause : Cause)
  | panic (payload : Panic)
  /-- Completes the continuation and goes on. -/
  | settle (output : Values)
  | reject (message : String)
  | abandon
  /-- Puts the continuation away; an older one under the key is dropped. -/
  | stash (key : String)
  | giveWaiting

/-- What a body carries along. -/
structure Locals where
  args : Values
  /-- The continuation, while the body still has it. -/
  held : Option Handle
  /-- How often the body was started before. -/
  turn : Nat

inductive Reaction where
  | next (locals : Locals)
  | stop (ending : Ending)

/-- A number that must fit 64 bits. -/
def checked (n : Int) (complaint : String) : Except Cause Values :=
  if fitsInt64 n then .ok (.single (.int n)) else .error (.message complaint)

/-- An argument that must be an integer. -/
def intArg (args : Values) (index : Nat) : Except Cause Int :=
  (args.int index).mapError Cause.ofAccess

def sum (args : Values) : Except Cause Values := do
  let a ← intArg args 0
  let b ← intArg args 1
  checked (a + b) "overflow"

def add (args : Values) (n : Int) : Except Cause Values := do
  let a ← intArg args 0
  checked (a + n) "overflow"

/-- Division rounds toward zero. -/
def quotient (args : Values) (n : Int) : Except Cause Values := do
  let a ← intArg args 0
  if n = 0 then .error (.message "bad division") else checked (a.tdiv n) "bad division"

namespace Action

variable {m : Mode}

open Program

/-- Completes the continuation, if the body still has it. -/
def complete (locals : Locals) (settlement : Settlement) : Program m Memory Reaction := do
  if let some handle := locals.held then
    Program.settle handle settlement
  return .next { locals with held := none }

def perform (action : Action) (locals : Locals) : Program m Memory Reaction :=
  match action with
  | log tag => do
    modify (Memory.note (.noted tag locals.args))
    return .next locals
  | set name value => do
    modify (Memory.setVar name value)
    return .next locals
  | increment name => do
    modify (Memory.increment name)
    return .next locals
  | push value => return .next { locals with args := locals.args.push value }
  | give output => return .stop (.output output.toValues)
  | giveArgs => return .stop (.output locals.args)
  | giveLength => return .stop (.output (.single (.int locals.args.length)))
  | giveVar name => do
    let memory ← get
    return .stop (.output (.single (memory.var name)))
  | giveLess name bound => do
    let memory ← get
    return .stop (.output (.single (.bool (decide (memory.intVar name < bound)))))
  | giveArg accessor index =>
    return .stop (.ofResult (((accessor.read locals.args index).map Values.single).mapError
      Cause.ofAccess))
  | giveSum => return .stop (.ofResult (sum locals.args))
  | giveAdd n => return .stop (.ofResult (add locals.args n))
  | giveQuotient n => return .stop (.ofResult (quotient locals.args n))
  | fail cause => return .stop (.failure cause)
  | panic payload => return .stop (.panic payload)
  | settle output => complete locals (.ok output)
  | reject message => complete locals (.error (.failed (.message message)))
  | abandon => do
    if let some handle := locals.held then
      discard handle
    return .next { locals with held := none }
  | stash key =>
    match locals.held with
    | none => return .next locals
    | some handle => do
      let older ← modifyGet fun memory => (memory.stashed? key, memory.putStash key handle)
      if let some older := older then
        discard older
      return .next { locals with held := none }
  | giveWaiting =>
    match locals.held with
    | none => return .stop (.output .empty)
    | some handle => do
      let waiting ← isWaiting handle
      return .stop (.output (.single (.bool waiting)))

end Action

end Stepwise.Script
