import Stepwise.Step
/-!
# Stub steps

Steps for trying flows out. A counted step, in any shape, bumps a counter each time its body runs to
its end; a deferred one settles on a later turn; a failing one always fails with its message. The
counter is a part of the state of user code, given by how to bump it.
-/

namespace Stepwise.Step.Stub

variable {υ : Type}

/-- Counts, and produces no value. -/
def countedSync (bump : υ → υ) : Step υ :=
  (Step.sync fun _ => do
    Program.modify bump
    return .ok .empty).withLabel "counter"

/-- Counts, and completes at once with no value. -/
def countedCallback (bump : υ → υ) : Step υ :=
  (Step.callback fun _ done => do
    Program.modify bump
    Program.settle done (.ok .empty)).withLabel "counter"

/-- Suspends once before it counts and completes with no value. -/
def countedFuture (bump : υ → υ) : Step υ :=
  (Step.task fun _ => do
    Program.pauses 1
    Program.modify bump
    return .ok .empty).withLabel "counter"

/-- Counts, and produces the same output every time. -/
def countedReturning (bump : υ → υ) (output : Values) : Step υ :=
  (Step.sync fun _ => do
    Program.modify bump
    return .ok output).withLabel "counter"

/-- Suspends once before it completes with the given output. -/
def deferred (output : Values) : Step υ :=
  (Step.task fun _ => do
    Program.pauses 1
    return .ok output).withLabel "deferred"

def failing (message : String) : Step υ :=
  (Step.callback fun _ done =>
    Program.settle done (.error (.failed (.message message)))).withLabel "failing"

end Stepwise.Step.Stub
