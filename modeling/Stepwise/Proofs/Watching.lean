import Stepwise.Proofs.Mirrors
/-!
# Watched steps

A watched step keeps a tally beside the state of user code, of how many bodies ran to their end and
whether one has control.  The body of a step is the code of its shape; that of a future is its task.
It gets control when it is called or polled, and lets it go when it ends, panics or is suspended.
Watching makes no difference to what a step does.
-/

namespace Stepwise

variable {m : Mode} {υ ρ α : Type}

structure Tally where
  /-- How many bodies ran to their end. -/
  ended : Nat := 0
  /-- Whether a body has control. -/
  inside : Bool := false
deriving DecidableEq

namespace Tally

def enter (t : Tally) : Tally := { t with inside := true }

def leave (t : Tally) : Tally := { t with inside := false }

def finish (t : Tally) : Tally := { ended := t.ended + 1, inside := false }

end Tally

namespace Program

/-- Changes the tally first. -/
def tallying (note : Tally → Tally) (p : Program m (υ × Tally) α) : Program m (υ × Tally) α :=
  .user (Prod.map id note) fun _ => p

/-- A body that has control, with a tally of when it lets control go. -/
def attended : Program m υ α → Program m (υ × Tally) α
  | done value => tallying .finish (done value)
  | panic payload => tallying .leave (panic payload)
  | exhausted may => tallying .leave (exhausted may)
  | user update next => user (Prod.map update id) fun v => (next v.1).attended
  | request spans r next => request spans r fun x => (next x).attended
  | pause may onDrop next =>
      tallying .leave (pause may onDrop fun x => tallying .enter (next x).attended)
  | await may onDrop handle next =>
      tallying .leave (await may onDrop handle fun s => tallying .enter (next s).attended)

/-- A body with a tally. -/
def watched (p : Program m υ α) : Program m (υ × Tally) α := tallying .enter p.attended

end Program

/-- The same step with a tally of its bodies. -/
def Step.watched (step : Step υ) : Step (υ × Tally) where
  label := step.label
  invoker :=
    match step.invoker with
    | .sync body => .sync fun args => (body args).watched
    | .callback body => .callback fun args done => (body args done).watched
    | .future start => .future fun args => (start args).beside.bind fun task => .done task.watched

/-! ## Watching makes no difference -/

/-- The second component of the state is of no account. -/
def Likeness.forgetting (υ ρ : Type) : Likeness υ (υ × ρ) where
  Alike _ u v := v.1 = u
  mono _ alike := alike

namespace Program

variable {R : Pairing}

theorem Mirrors.tallying {p : Program m υ α} {p' : Program m (υ × Tally) α}
    (mirrors : p.Mirrors (.forgetting υ Tally) agreeing p' R) (note : Tally → Tally) :
    p.Mirrors (.forgetting υ Tally) agreeing (tallying note p') R :=
  .note (fun _ _ alike => alike) fun _ => mirrors

end Program

end Stepwise
