import Stepwise.Run
/-!
# Flows

A flow is a sequence under construction with its configuration, the resolvers that are told how
every run ended, and the results of the latest run. A clause that is refused is remembered, and the
first one refused is what every later run fails with.
-/

namespace Stepwise

/-- How a whole run ended: with its results, or with an error. -/
abbrev Completion := Except FlowError ResultSet

/-- What is told how a run ended. -/
abbrev Resolver (υ : Type) := Completion → Direct υ Unit

structure Flow (υ : Type) where
  config : Config := {}
  sequence : Sequence υ := .empty
  resolvers : List (Resolver υ) := []
  results : ResultSet := .empty
  buildError : Option BuildError := none

namespace Flow

variable {υ : Type}

open Program

def empty : Flow υ := {}

def withConfig (flow : Flow υ) (config : Config) : Flow υ := { flow with config }

def onComplete (flow : Flow υ) (resolver : Resolver υ) : Flow υ :=
  { flow with resolvers := flow.resolvers ++ [resolver] }

/-- Remembers a mistake unless there was one before. -/
def reject (flow : Flow υ) (error : BuildError) : Flow υ :=
  { flow with buildError := flow.buildError.or (some error) }

/-- The flow after one more clause, and the mistake if the clause was refused. -/
def extend (flow : Flow υ) (clause : Clause υ) : Flow υ × Option BuildError :=
  match flow.sequence.declare clause with
  | .ok sequence => ({ flow with sequence }, none)
  | .error error => (flow.reject error, some error)

/-- Declares a clause, reporting it if it is refused. -/
def declare {m : Mode} (flow : Flow υ) (clause : Clause υ) : Program m υ (Flow υ) := do
  match flow.extend clause with
  | (flow, none) => return flow
  | (flow, some error) =>
    report (.invalidDeclaration error)
    return flow

/-- Runs the items of a flow from an empty result set, unless its declaration was refused. -/
def drive (limit : Nat) (flow : Flow υ) : Suspending (υ × ResultSet) Completion := do
  modify fun (u, _) => (u, .empty)
  match flow.buildError with
  | some error =>
    report (.refused error)
    return .error (.build error)
  | none =>
    report (.flowStarted flow.sequence.length)
    match ← flow.sequence.run limit flow.config with
    | .ok () =>
      let (_, results) ← get
      report (.flowCompleted results.length)
      return .ok results
    | .error error =>
      report (.flowFailed error)
      return .error error

/-- Tells resolvers, in order, how a run ended. -/
def notify (completion : Completion) : List (Resolver υ) → Direct υ Unit
  | [] => return ()
  | resolver :: rest => do
    resolver completion
    notify completion rest

/--
Runs a flow: its items under its span, then, outside of it, its resolvers. The second component of
the state holds the results of the run so far.
-/
def exec (limit : Nat) (flow : Flow υ) : Suspending (υ × ResultSet) Completion := do
  let completion ← (flow.drive limit).within (.flow flow.config.spanLabel)
  (notify completion flow.resolvers).relax.beside
  return completion

end Flow

end Stepwise
