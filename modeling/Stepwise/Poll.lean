import Stepwise.Program
/-!
# Polling

A poll runs a program until it ends or is suspended. What is left of a suspended program is polled
again later, or dropped. `drive` polls to the end, and each poll that is pending is followed by a
turn, which sends the completions that are due.
-/

namespace Stepwise

variable {υ α : Type}

/-- A program that is suspended, and the waiting ends that go away with it if it is dropped. -/
structure Parked (υ α : Type) where
  program : Suspending υ α
  onDrop : List Handle

/-- What a poll comes to. -/
inductive Progress (υ α : Type) where
  | done (store : Store υ) (value : α)
  | panicked (store : Store υ) (payload : Panic)
  | pending (store : Store υ) (rest : Parked υ α)
  | exhausted (store : Store υ)

namespace Program

/-- Runs a program until it ends or is pending. -/
def poll (p : Suspending υ α) (st : Store υ) : Progress υ α :=
  match p with
  | done value => .done st value
  | panic payload => .panicked st payload
  | exhausted _ => .exhausted st
  | user update next => (next st.user).poll { st with user := update st.user }
  | request spans r next => (next (st.answer spans r).1).poll (st.answer spans r).2
  | pause _ onDrop next => .pending st ⟨next (), onDrop⟩
  | await may onDrop handle next =>
    match st.settlement? handle with
    | some settlement => (next settlement).poll st
    | none => .pending st ⟨await may onDrop handle next, onDrop⟩

/-- Runs a program that never suspends. -/
def run (p : Direct υ α) (st : Store υ) : Except Panic α × Store υ :=
  match p with
  | done value => (.ok value, st)
  | panic payload => (.error payload, st)
  | user update next => (next st.user).run { st with user := update st.user }
  | request spans r next => (next (st.answer spans r).1).run (st.answer spans r).2

end Program

namespace Parked

/-- A program that was made but not polled yet. -/
def fresh (program : Suspending υ α) : Parked υ α := ⟨program, []⟩

/-- Waits for the settlement of a channel; the waiting end goes away with it. -/
def waiter (handle : Handle) : Parked υ Settlement :=
  ⟨.closing handle (.settled handle), [handle]⟩

def poll (p : Parked υ α) (st : Store υ) : Progress υ α := p.program.poll st

/-- Drops a program where it is suspended. -/
def drop (p : Parked υ α) (st : Store υ) : Store υ :=
  p.onDrop.foldl Store.deafen st

/-- Polls at most so many times, with a turn after every poll that is pending. -/
def advance (p : Parked υ α) (st : Store υ) : Nat → Progress υ α
  | 0 => .pending st p
  | polls + 1 =>
    match p.poll st with
    | .pending st rest => rest.advance st.turn polls
    | progress => progress

end Parked

/-- How a program that was driven came out. -/
inductive Outcome (α : Type) where
  | ended (value : α)
  | unwound (payload : Panic)
  | pending

def Outcome.map {β : Type} (f : α → β) : Outcome α → Outcome β
  | ended value => ended (f value)
  | unwound payload => unwound payload
  | pending => pending

/-- Polls a program to its end. One that does not end within the given polls is dropped. -/
def Parked.drive (polls : Nat) (p : Parked υ α) (st : Store υ) : Outcome α × Store υ :=
  match p.advance st polls with
  | .done st value => (.ended value, st)
  | .panicked st payload => (.unwound payload, st)
  | .pending st rest => (.pending, rest.drop st)
  | .exhausted st => (.pending, st)

end Stepwise
