import Stepwise.Program.Lemmas
import Stepwise.Step
/-!
# Plain functions

What programs that never suspend come to, what guarding a program makes of it, and the two parts of
an invocation.
-/

namespace Stepwise

variable {m : Mode} {υ α β : Type}

namespace Program

theorem run_bind (p : Direct υ α) (f : α → Direct υ β) (st : Store υ) :
    (p.bind f).run st =
      match p.run st with
      | (.ok a, mid) => (f a).run mid
      | (.error payload, mid) => (.error payload, mid) := by
  induction p generalizing st with
  | done value => rfl
  | panic payload => rfl
  | exhausted may => cases may
  | user update next ih => exact ih _ _
  | request spans q next ih => exact ih _ _
  | pause may => cases may
  | await may => cases may

theorem run_bind_ok {p : Direct υ α} {st mid : Store υ} {a : α} (hrun : p.run st = (.ok a, mid))
    (f : α → Direct υ β) : (p.bind f).run st = (f a).run mid := by
  rw [run_bind, hrun]

theorem run_caught (p : Direct υ α) (st : Store υ) :
    p.caught.run st = (.ok (p.run st).1, (p.run st).2) := by
  induction p generalizing st with
  | done value => rfl
  | panic payload => rfl
  | exhausted may => cases may
  | user update next ih => exact ih _ _
  | request spans q next ih => exact ih _ _
  | pause may => cases may
  | await may => cases may

theorem run_onPanic (q : Request) (p : Direct υ α) (st : Store υ) :
    (p.onPanic q).run st =
      match p.run st with
      | (.ok a, mid) => (.ok a, mid)
      | (.error payload, mid) => (.error payload, (mid.answer [] q).2) := by
  induction p generalizing st with
  | done value => rfl
  | panic payload => rfl
  | exhausted may => cases may
  | user update next ih => exact ih _ _
  | request spans q next ih => exact ih _ _
  | pause may => cases may
  | await may => cases may

end Program

namespace Config

/-- What a guarded program comes to. -/
def guardedResult (config : Config) : Except Panic α → Except Panic (Except FlowError α)
  | .ok a => .ok (.ok a)
  | .error payload =>
      if config.catchPanics then .ok (.error (.panicked payload.message)) else .error payload

/-- The error that a panic is caught as. -/
def caughtError : Except Panic α → Except FlowError α
  | .ok a => .ok a
  | .error payload => .error (.panicked payload.message)

theorem guarded_of_catching {config : Config} (hcatch : config.catchPanics = true)
    (p : Program m υ α) :
    config.guarded p = p.caught.bind fun r => .done (caughtError r) := by
  simp only [guarded, hcatch, if_true, Program.bind_eq]
  congr 1
  funext r
  cases r <;> rfl

theorem guarded_of_not_catching {config : Config} (hcatch : config.catchPanics = false)
    (p : Program m υ α) : config.guarded p = p.bind fun a => .done (.ok a) := by
  simp only [guarded, hcatch, Program.bind_eq]
  rfl

theorem run_guarded (config : Config) (p : Direct υ α) (st : Store υ) :
    (config.guarded p).run st = (config.guardedResult (p.run st).1, (p.run st).2) := by
  cases hcatch : config.catchPanics with
  | true =>
      rw [guarded_of_catching hcatch, Program.run_bind, Program.run_caught]
      cases hrun : (p.run st).1 <;> simp [guardedResult, caughtError, hcatch, Program.run]
  | false =>
      rw [guarded_of_not_catching hcatch, Program.run_bind]
      rcases p.run st with ⟨_ | _, _⟩ <;> simp [guardedResult, hcatch, Program.run]

end Config

namespace Step

/-- A call and what it comes to, given the continuation of the invocation. -/
def callAndAwait (step : Step υ) (args : Values) (h : Handle) (config : Config) :
    Suspending υ Settlement :=
  (step.call args h config).relax.bind (outcome h config)

end Step

end Stepwise
