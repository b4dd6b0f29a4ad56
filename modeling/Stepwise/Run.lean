import Stepwise.ResultSet
import Stepwise.Sequence
/-!
# Running a sequence

Actions run left to right, each on the output of the one before. A condition runs the actions of
its first slot whose predicate holds; a loop runs its slot as long as its predicate holds, at most
the given number of passes. Items run in order, and the first error ends the run.
-/

namespace Stepwise

variable {υ : Type}

open Program

/-- Runs actions of which the first has the given position. -/
def runActionsFrom (config : Config) (position : Nat) :
    List (Step υ) → Values → Suspending υ Settlement
  | [], carried => return .ok carried
  | action :: rest, carried => do
    report (.runningAction position action.label action.shape)
    match ← action.invoke carried config with
    | .ok output => runActionsFrom config (position + 1) rest output
    | .error e => return .error e

/-- Runs the actions of a slot. Without any, the output is empty, whatever the input. -/
def runActions (config : Config) (actions : List (Step υ)) (input : Values) :
    Suspending υ Settlement :=
  if actions.isEmpty then return .ok .empty else runActionsFrom config 0 actions input

namespace Item

/-- Evaluates slots of which the first has the given number. -/
def evaluateFrom (config : Config) (branch : Nat) :
    List (Slot υ) → Suspending υ (Except FlowError (Option Values))
  | [] => do
    report .noBranchMatched
    return .ok none
  | slot :: rest => do
    match ← slot.predicate.invoke .empty config with
    | .error e => return .error e
    | .ok verdict =>
      if verdict.isTruthy then
        report (.branchMatched branch)
        return (← runActions config slot.actions .empty).map some
      else
        report (.predicateFalse branch)
        evaluateFrom config (branch + 1) rest

/-- The output of the first slot whose predicate holds, or nothing if none does. -/
def evaluate (config : Config) (item : Item υ) :
    Suspending υ (Except FlowError (Option Values)) :=
  evaluateFrom config 0 item.slots

/-- Repeats a slot after `passes` passes, the last of which had the output `last`. -/
def repeatFrom (config : Config) (slot : Slot υ) (passes : Nat) (last : Option Values) :
    Nat → Suspending υ (Except FlowError (Option Values))
  | 0 => .exhausted rfl
  | limit + 1 => do
    match ← slot.predicate.invoke .empty config with
    | .error e => return .error e
    | .ok verdict =>
      if verdict.isTruthy then
        match ← runActions config slot.actions .empty with
        | .ok output => repeatFrom config slot (passes + 1) (some output) limit
        | .error e => return .error e
      else
        report (.loopFinished passes)
        return .ok (if config.recordLoopResults then last else none)

/-- The output of the last pass, if there was one and the configuration asks for it. -/
def repeats (limit : Nat) (config : Config) (item : Item υ) :
    Suspending υ (Except FlowError (Option Values)) :=
  match item.slots.head? with
  | some slot => repeatFrom config slot 0 none limit
  | none => return .ok none

/-- Runs an item as its kind demands. -/
def run (limit : Nat) (config : Config) (item : Item υ) :
    Suspending υ (Except FlowError (Option Values)) :=
  match item.kind with
  | .chain | .condition => item.evaluate config
  | .loop => item.repeats limit config

end Item

/-- Runs items of which the first has the given index, adding the results they define. -/
def runItemsFrom (limit : Nat) (config : Config) (index : Nat) :
    List (Item υ) → Suspending (υ × ResultSet) (Except FlowError Unit)
  | [] => return .ok ()
  | item :: rest => do
    match ← ((item.run limit config).within (.item index item.kind)).beside with
    | .ok output =>
      if let some values := output then
        modify fun (u, results) => (u, results.pushFirst values)
      runItemsFrom limit config (index + 1) rest
    | .error e =>
      report (.itemFailed index item.kind e)
      return .error e

/-- Runs a sequence. After an error the results are those of the items before it. -/
def Sequence.run (limit : Nat) (config : Config) (s : Sequence υ) :
    Suspending (υ × ResultSet) (Except FlowError Unit) :=
  runItemsFrom limit config 0 s.items

end Stepwise
