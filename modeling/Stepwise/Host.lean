import Stepwise.Flow
import Stepwise.Poll
/-!
# Hosts

A flow together with the store it runs in and the run in progress. A run takes the results of its
flow with it and brings them back at every poll, so they are there after a run that failed, unwound
or was dropped.
-/

namespace Stepwise

structure Host (υ : Type) where
  store : Store υ
  flow : Flow υ := .empty
  /-- The run in progress, between two polls. -/
  run : Option (Parked (υ × ResultSet) Completion) := none

namespace Host

variable {υ : Type}

/-- Replaces the flow by what a program makes of it. -/
def build (make : Flow υ → Direct υ (Flow υ)) (h : Host υ) : Host υ :=
  match (make h.flow).run h.store with
  | (.ok flow, store) => { h with store, flow }
  | (.error _, store) => { h with store }

def declare (clause : Clause υ) (h : Host υ) : Host υ :=
  h.build fun flow => flow.declare clause

def withConfig (config : Config) (h : Host υ) : Host υ :=
  { h with flow := h.flow.withConfig config }

def onComplete (resolver : Resolver υ) (h : Host υ) : Host υ :=
  { h with flow := h.flow.onComplete resolver }

/-- The store as the run in progress sees it. -/
def inner (h : Host υ) : Store (υ × ResultSet) := h.store.attach h.flow.results

/-- Takes back the store and the results that a run leaves. -/
def leave (h : Host υ) (st : Store (υ × ResultSet)) : Host υ :=
  { h with store := st.detach.2, flow := { h.flow with results := st.detach.1 }, run := none }

/-- Starts a run, which is not polled yet. -/
def start (limit : Nat) (h : Host υ) : Host υ :=
  { h with run := some (.fresh (h.flow.exec limit)) }

/-- Polls the run in progress, at most so many times. -/
def resume (polls : Nat) (h : Host υ) : Option (Outcome Completion) × Host υ :=
  match h.run with
  | none => (none, h)
  | some run =>
    match run.advance h.inner polls with
    | .done st completion => (some (.ended completion), h.leave st)
    | .panicked st payload => (some (.unwound payload), h.leave st)
    | .pending st rest => (some .pending, { h.leave st with run := some rest })
    | .exhausted st => (some .pending, h.leave st)

/-- Drops the run in progress. -/
def drop (h : Host υ) : Host υ :=
  match h.run with
  | none => h
  | some run => h.leave (run.drop h.inner)

/-- Runs the flow to its end; a run that does not end within the given polls is dropped. -/
def exec (limit polls : Nat) (h : Host υ) : Outcome Completion × Host υ :=
  match resume polls (h.start limit) with
  | (some outcome, h) => (outcome, h.drop)
  | (none, h) => (.pending, h)

/-- Registers a resolver and runs the flow. -/
def execWith (limit polls : Nat) (resolver : Resolver υ) (h : Host υ) :
    Outcome Completion × Host υ :=
  (h.onComplete resolver).exec limit polls

end Host

end Stepwise
