import Stepwise.Store
/-!
# Programs

A `Program` is a computation that can be suspended. It is a tree of what it does to the store until
it needs to be polled again, so transformations of programs, such as catching panics or reporting
under a span, are recursions over the tree, and a poll walks it as far as it goes. Programs of mode
`direct` never suspend: plain functions, and the calls that start a step.
-/

namespace Stepwise

/-- Whether a program may suspend. -/
inductive Mode where
  | direct
  | suspending
deriving DecidableEq, Repr

inductive Program (m : Mode) (υ α : Type) where
  | done (value : α)
  | panic (payload : Panic)
  /-- A loop used up the passes it was given. -/
  | exhausted (may : m = .suspending)
  /-- Replaces the state of user code and goes on with what it was before. -/
  | user (update : υ → υ) (next : υ → Program m υ α)
  | request (spans : List Span) (r : Request) (next : r.Reply → Program m υ α)
  /-- Is pending once. The waiting ends in `onDrop` go away if the program is dropped here. -/
  | pause (may : m = .suspending) (onDrop : List Handle) (next : Unit → Program m υ α)
  /-- Is pending until the channel is settled or its sending end dropped. -/
  | await (may : m = .suspending) (onDrop : List Handle) (handle : Handle)
    (next : Settlement → Program m υ α)

/-- Programs that never suspend. -/
abbrev Direct (υ : Type) := Program .direct υ

/-- Programs that may suspend. -/
abbrev Suspending (υ : Type) := Program .suspending υ

namespace Program

variable {m : Mode} {υ ρ α β : Type}

def bind (p : Program m υ α) (f : α → Program m υ β) : Program m υ β :=
  match p with
  | done value => f value
  | panic payload => panic payload
  | exhausted may => exhausted may
  | user update next => user update fun u => (next u).bind f
  | request spans r next => request spans r fun x => (next x).bind f
  | pause may onDrop next => pause may onDrop fun x => (next x).bind f
  | await may onDrop handle next => await may onDrop handle fun s => (next s).bind f

instance : Monad (Program m υ) where
  pure := done
  bind := bind

/-- Turns a panic into a result. -/
def caught : Program m υ α → Program m υ (Except Panic α)
  | done value => done (.ok value)
  | panic payload => done (.error payload)
  | exhausted may => exhausted may
  | user update next => user update fun u => (next u).caught
  | request spans r next => request spans r fun x => (next x).caught
  | pause may onDrop next => pause may onDrop fun x => (next x).caught
  | await may onDrop handle next => await may onDrop handle fun s => (next s).caught

/-- Makes a request before a panic goes on. -/
def onPanic (r : Request) : Program m υ α → Program m υ α
  | done value => done value
  | panic payload => request [] r fun _ => panic payload
  | exhausted may => exhausted may
  | user update next => user update fun u => (next u).onPanic r
  | request spans q next => request spans q fun x => (next x).onPanic r
  | pause may onDrop next => pause may onDrop fun x => (next x).onPanic r
  | await may onDrop handle next => await may onDrop handle fun s => (next s).onPanic r

/-- Drops the waiting end of a channel when the program ends, panics or is dropped. -/
def closing (h : Handle) : Program m υ α → Program m υ α
  | done value => request [] (.deafen h) fun _ => done value
  | panic payload => request [] (.deafen h) fun _ => panic payload
  | exhausted may => exhausted may
  | user update next => user update fun u => (next u).closing h
  | request spans r next => request spans r fun x => (next x).closing h
  | pause may onDrop next => pause may (onDrop ++ [h]) fun x => (next x).closing h
  | await may onDrop handle next => await may (onDrop ++ [h]) handle fun s => (next s).closing h

/-- Runs under a span, outside of those that the program enters itself. -/
def within (span : Span) : Program m υ α → Program m υ α
  | done value => done value
  | panic payload => panic payload
  | exhausted may => exhausted may
  | user update next => user update fun u => (next u).within span
  | request spans r next => request (span :: spans) r fun x => (next x).within span
  | pause may onDrop next => pause may onDrop fun x => (next x).within span
  | await may onDrop handle next => await may onDrop handle fun s => (next s).within span

/-- A program that never suspends, as part of one that may. -/
def relax : Direct υ α → Program m υ α
  | done value => done value
  | panic payload => panic payload
  | user update next => user update fun u => (next u).relax
  | request spans r next => request spans r fun x => (next x).relax

/-- Runs beside a second component of the state, which stays as it is. -/
def beside : Program m υ α → Program m (υ × ρ) α
  | done value => done value
  | panic payload => panic payload
  | exhausted may => exhausted may
  | user update next => user (fun (u, r) => (update u, r)) fun (u, _) => (next u).beside
  | request spans r next => request spans r fun x => (next x).beside
  | pause may onDrop next => pause may onDrop fun x => (next x).beside
  | await may onDrop handle next => await may onDrop handle fun s => (next s).beside

/-- Gives a program a second component of state of its own, and returns what becomes of it. -/
def withLocal (r : ρ) : Program m (υ × ρ) α → Program m υ (α × ρ)
  | done value => done (value, r)
  | panic payload => panic payload
  | exhausted may => exhausted may
  | user update next =>
    user (fun u => (update (u, r)).1) fun u => (next (u, r)).withLocal (update (u, r)).2
  | request spans q next => request spans q fun x => (next x).withLocal r
  | pause may onDrop next => pause may onDrop fun x => (next x).withLocal r
  | await may onDrop handle next => await may onDrop handle fun s => (next s).withLocal r

/-! ## Single actions -/

def get : Program m υ υ := user id done

def modify (update : υ → υ) : Program m υ Unit := user update fun _ => done ()

/-- Computes a result and a new state from the state of user code. -/
def modifyGet (f : υ → α × υ) : Program m υ α := user (fun u => (f u).2) fun u => done (f u).1

def ask (r : Request) : Program m υ r.Reply := request [] r done

def openChannel : Program m υ Handle := ask .openChannel

def settle (handle : Handle) (settlement : Settlement) : Program m υ Unit :=
  ask (.settle handle settlement)

def discard (handle : Handle) : Program m υ Unit := ask (.discard handle)

def isWaiting (handle : Handle) : Program m υ Bool := ask (.isWaiting handle)

/-- Schedules a completion for the turn after the next one. -/
def defer (handle : Handle) (settlement : Settlement) : Program m υ Unit :=
  ask (.defer handle settlement)

def report (notice : Notice) : Program m υ Unit := ask (.report notice)

/-- Is pending the given number of times. -/
def pauses : Nat → Suspending υ Unit
  | 0 => done ()
  | n + 1 => pause rfl [] fun _ => pauses n

/-- Waits for the settlement of a channel. -/
def settled (handle : Handle) : Suspending υ Settlement := await rfl [] handle done

end Program

end Stepwise
