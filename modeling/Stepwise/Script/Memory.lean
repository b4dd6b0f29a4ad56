import Stepwise.Flow
/-!
# Memory of scripts

What scripted steps share: variables, a log, continuations put away for later, named counters, and
how often each body was started.
-/

namespace Stepwise.Script

inductive LogEntry where
  /-- A step noted its arguments under a tag. -/
  | noted (tag : String) (args : Values)
  /-- A resolver was told a completion, for the given number of times. -/
  | notified (name : String) (times : Nat) (completion : Completion)

structure Memory where
  vars : List (String × Value) := []
  /-- Newest entry first. -/
  log : List LogEntry := []
  stash : List (String × Handle) := []
  counters : List (String × Nat) := []
  /-- For each body, how often it was started. -/
  starts : Array Nat := #[]

/-- The value under a key in a list of pairs. -/
def lookup? {α : Type} (entries : List (String × α)) (key : String) : Option α :=
  (entries.find? (·.1 == key)).map (·.2)

/-- Puts a value under a key, replacing an older one. -/
def assign {α : Type} (key : String) (value : α) : List (String × α) → List (String × α)
  | [] => [(key, value)]
  | (k, v) :: rest => if k = key then (key, value) :: rest else (k, v) :: assign key value rest

namespace Memory

/-- Variables start at zero. -/
def var (memory : Memory) (name : String) : Value :=
  (lookup? memory.vars name).getD (.int 0)

def setVar (name : String) (value : Value) (memory : Memory) : Memory :=
  { memory with vars := assign name value memory.vars }

/-- A variable as an integer of 64 bits; anything else counts as zero. -/
def intVar (memory : Memory) (name : String) : Int :=
  match memory.var name with
  | .int n => if fitsInt64 n then n else 0
  | _ => 0

/-- Adds one to a variable; the greatest integer of 64 bits is followed by the least. -/
def increment (name : String) (memory : Memory) : Memory :=
  memory.setVar name (.int ((memory.intVar name + 1).bmod (Nat.pow 2 64)))

def note (entry : LogEntry) (memory : Memory) : Memory :=
  { memory with log := entry :: memory.log }

def count (memory : Memory) (name : String) : Nat :=
  (lookup? memory.counters name).getD 0

def wasCalled (memory : Memory) (name : String) : Bool :=
  decide (0 < memory.count name)

def bump (name : String) (memory : Memory) : Memory :=
  { memory with counters := assign name (memory.count name + 1) memory.counters }

def stashed? (memory : Memory) (key : String) : Option Handle :=
  lookup? memory.stash key

def putStash (key : String) (handle : Handle) (memory : Memory) : Memory :=
  { memory with stash := assign key handle memory.stash }

def eraseStash (key : String) (memory : Memory) : Memory :=
  { memory with stash := memory.stash.filter (·.1 != key) }

/-- A number for a new body. -/
def register (memory : Memory) : Nat × Memory :=
  (memory.starts.size, { memory with starts := memory.starts.push 0 })

/-- Starts a body: how often it was started before. -/
def start (body : Nat) (memory : Memory) : Nat × Memory :=
  (memory.starts[body]?.getD 0, { memory with starts := memory.starts.modify body (· + 1) })

end Memory

end Stepwise.Script
