import Stepwise.Proofs.Containment
import Stepwise.Proofs.Tasks
/-!
# Calls and invocations

A step may be called with a continuation or invoked, which opens a channel, makes the call and
awaits what it came to.  A call comes to what the step's own code comes to while it is called; the
task that it hands over, if it does, or the waiter of the continuation decides the invocation, which
then lets go of the waiting end.
-/

namespace Stepwise

variable {υ α : Type}

/-! ## Calls -/

namespace Step

/-- The step's own code that runs during a call. -/
def code (step : Step υ) (args : Values) (done : Handle) : Direct υ Unit :=
  match step.invoker with
  | .sync body => (body args).bind fun _ => .done ()
  | .callback body => body args done
  | .future start => (Program.discard done).bind fun _ => (start args).bind fun _ => .done ()

/-- What a call comes to, under spans. -/
def called (step : Step υ) (args : Values) (config : Config) (spans : List Span) (done : Handle)
    (st : Store υ) : Except Panic (Option (Suspending υ Settlement)) × Store υ :=
  ((step.call args done config).under spans).run st

/-- What the step's own code comes to during a call. -/
def codeRun (step : Step υ) (args : Values) (spans : List Span) (done : Handle) (st : Store υ) :
    Except Panic Unit × Store υ :=
  ((step.code args done).under spans).run st

section

variable {step : Step υ}

/-- A plain function settles the continuation with what it returns, or with its panic where that is
caught. -/
theorem called_sync {body : Values → Direct υ (Except Cause Values)}
    (hstep : step.invoker = .sync body) (args : Values) (config : Config) (spans : List Span)
    (done : Handle) (st : Store υ) :
    step.called args config spans done st =
      match ((body args).under spans).run st with
      | (.ok r, mid) => (.ok none, mid.settle spans done (Settlement.ofResult r))
      | (.error payload, mid) =>
          if config.catchPanics then (.ok none, mid.settle spans done (.error payload.asError))
          else (.error payload, mid.discard done) := by
  obtain ⟨invoker, label⟩ := step
  obtain rfl : invoker = .sync body := hstep
  change ((Program.bind ((config.guarded (body args)).onPanic (.discard done)) _).under spans).run
    st = _
  rw [Program.under_bind, Program.run_bind, Program.run_under_onPanic_eq, Config.under_guarded,
    Config.run_guarded]
  have settles (mid : Store υ) (s : Settlement) :
      ((.ok none, mid.settle (spans ++ []) done s) :
        Except Panic (Option (Suspending υ Settlement)) × Store υ) =
          (.ok none, mid.settle spans done s) := by
    rw [List.append_nil]
  rcases ((body args).under spans).run st with ⟨payload | r, mid⟩
  · cases hcatch : config.catchPanics
    · simp only [Config.guardedResult, hcatch]
      rfl
    · simp only [Config.guardedResult, hcatch]
      exact settles mid _
  · exact settles mid _

/-- A callback is on its own; its panic is a task that is settled, where it is caught. -/
theorem called_callback {body : Values → Handle → Direct υ Unit}
    (hstep : step.invoker = .callback body) (args : Values) (config : Config) (spans : List Span)
    (done : Handle) (st : Store υ) :
    step.called args config spans done st =
      match ((body args done).under spans).run st with
      | (.ok (), mid) => (.ok none, mid)
      | (.error payload, mid) =>
          if config.catchPanics then (.ok (some (.done (.error payload.asError))), mid)
          else (.error payload, mid) := by
  obtain ⟨invoker, label⟩ := step
  obtain rfl : invoker = .callback body := hstep
  change ((Program.bind (config.guarded (body args done)) _).under spans).run st = _
  rw [Program.under_bind, Program.run_bind, Config.under_guarded, Config.run_guarded]
  rcases ((body args done).under spans).run st with ⟨payload | ⟨⟩, mid⟩
  · cases hcatch : config.catchPanics <;> simp only [Config.guardedResult, hcatch] <;> rfl
  · rfl

/-- A future drops the continuation and hands over its task, or one that is settled with the panic
of its start, where that is caught. -/
theorem called_future {start : Values → Direct υ (Suspending υ (Except Cause Values))}
    (hstep : step.invoker = .future start) (args : Values) (config : Config) (spans : List Span)
    (done : Handle) (st : Store υ) :
    step.called args config spans done st =
      match ((start args).under spans).run (st.discard done) with
      | (.ok task, mid) =>
          (.ok (some (task.bind fun r => .done (Settlement.ofResult r))), mid)
      | (.error payload, mid) =>
          if config.catchPanics then (.ok (some (.done (.error payload.asError))), mid)
          else (.error payload, mid) := by
  obtain ⟨invoker, label⟩ := step
  obtain rfl : invoker = .future start := hstep
  change ((Program.bind (config.guarded (start args)) _).under spans).run (st.discard done) = _
  rw [Program.under_bind, Program.run_bind, Config.under_guarded, Config.run_guarded]
  rcases ((start args).under spans).run (st.discard done) with ⟨payload | task, mid⟩
  · cases hcatch : config.catchPanics <;> simp only [Config.guardedResult, hcatch] <;> rfl
  · rfl

theorem codeRun_sync {body : Values → Direct υ (Except Cause Values)}
    (hstep : step.invoker = .sync body) (args : Values) (spans : List Span) (done : Handle)
    (st : Store υ) :
    (step.codeRun args spans done st).1 = (((body args).under spans).run st).1.map fun _ => () := by
  rw [codeRun, code, hstep]
  simp only [Program.under_bind, Program.run_bind]
  rcases ((body args).under spans).run st with ⟨payload | r, mid⟩ <;> rfl

theorem codeRun_future {start : Values → Direct υ (Suspending υ (Except Cause Values))}
    (hstep : step.invoker = .future start) (args : Values) (spans : List Span) (done : Handle)
    (st : Store υ) : (step.codeRun args spans done st).1 =
      (((start args).under spans).run (st.discard done)).1.map fun _ => () := by
  rw [codeRun, code, hstep]
  change ((((start args).bind fun _ => Program.done ()).under spans).run (st.discard done)).1 = _
  simp only [Program.under_bind, Program.run_bind]
  rcases ((start args).under spans).run (st.discard done) with ⟨payload | task, mid⟩ <;> rfl

theorem codeRun_callback {body : Values → Handle → Direct υ Unit}
    (hstep : step.invoker = .callback body) (args : Values) (spans : List Span) (done : Handle)
    (st : Store υ) :
    step.codeRun args spans done st = ((body args done).under spans).run st := by
  rw [codeRun, code, hstep]

variable {args : Values} {config : Config} {spans : List Span} {done : Handle} {st : Store υ}

/-- A call that returns hands over a task if the step is a future, or a callback whose panic was
caught, and otherwise none. -/
theorem hands_task_iff {task? : Option (Suspending υ Settlement)}
    (hcalled : (step.called args config spans done st).1 = .ok task?) :
    task?.isSome ↔ step.shape = .future ∨ step.shape = .callback ∧ config.catchPanics = true ∧
      ∃ payload, (step.codeRun args spans done st).1 = .error payload := by
  cases hstep : step.invoker with
  | sync body =>
      have hshape : step.shape = .sync := by rw [shape, hstep]
      rw [called_sync hstep] at hcalled
      rcases hbody : ((body args).under spans).run st with ⟨payload | r, mid⟩ <;>
        simp only [hbody] at hcalled
      · cases hcatch : config.catchPanics <;> rw [hcatch] at hcalled <;> cases hcalled
        simp [hshape]
      · cases hcalled
        simp [hshape]
  | callback body =>
      have hshape : step.shape = .callback := by rw [shape, hstep]
      rw [called_callback hstep] at hcalled
      rw [codeRun_callback hstep]
      rcases hbody : ((body args done).under spans).run st with ⟨payload | ⟨⟩, mid⟩ <;>
        simp only [hbody] at hcalled
      · cases hcatch : config.catchPanics <;> rw [hcatch] at hcalled <;> cases hcalled
        simp [hshape]
      · cases hcalled
        simp [hshape]
  | future start =>
      have hshape : step.shape = .future := by rw [shape, hstep]
      rw [called_future hstep] at hcalled
      rcases hstart : ((start args).under spans).run (st.discard done) with
        ⟨payload | task, mid⟩ <;> simp only [hstart] at hcalled
      · cases hcatch : config.catchPanics <;> rw [hcatch] at hcalled <;> cases hcalled
        simp [hshape]
      · cases hcalled
        simp [hshape]

/-- A call unwinds with the panics of the step's own code, where they are not caught. -/
theorem call_unwinds_iff {payload : Panic} :
    (step.called args config spans done st).1 = .error payload ↔
      config.catchPanics = false ∧ (step.codeRun args spans done st).1 = .error payload := by
  cases hstep : step.invoker with
  | sync body =>
      rw [called_sync hstep, codeRun_sync hstep]
      rcases ((body args).under spans).run st with ⟨raised | r, mid⟩ <;>
        cases config.catchPanics <;> simp [Except.map]
  | callback body =>
      rw [called_callback hstep, codeRun_callback hstep]
      rcases ((body args done).under spans).run st with ⟨raised | ⟨⟩, mid⟩ <;>
        cases config.catchPanics <;> simp
  | future start =>
      rw [called_future hstep, codeRun_future hstep]
      rcases ((start args).under spans).run (st.discard done) with ⟨raised | task, mid⟩ <;>
        cases config.catchPanics <;> simp [Except.map]

end

end Step

/-! ## Invocations -/

/-- What awaiting a task comes to if polling it alone comes to the first: where panics are caught, a
panic is its error. -/
def Halt.Awaited (config : Config) : Halt υ Settlement → Halt υ Settlement → Prop
  | unwound st payload, other =>
      if config.catchPanics then ∃ left, other = ended st (.error payload.asError) left
      else other = unwound st payload
  | halt, other => other = halt

namespace Step

variable (step : Step υ) (args : Values) (config : Config) (spans : List Span)
  (acts : List (Act υ)) (st : Store υ)

theorem halt_callAndAwait (k : Handle) :
    (((step.callAndAwait args k config).under spans).course acts st).halt =
      match step.called args config spans k st with
      | (.ok task?, mid) => (((outcome k config task?).under spans).course acts mid).halt
      | (.error payload, mid) => .unwound mid payload := by
  rw [callAndAwait, Program.under_bind, Program.course_bind, Program.relax_under,
    Program.course_relax_eq, called]
  rcases ((step.call args k config).under spans).run st with ⟨payload | task?, last⟩ <;> rfl

/-- An invocation is a call with a fresh continuation; what that comes to is awaited, and the
waiting end goes away. -/
theorem halt_invoke :
    (((step.invoke args config).under spans).course acts st).halt =
      Halt.closing st.openChannel.1
        (match step.called args config spans st.openChannel.1 st.openChannel.2 with
        | (.ok task?, mid) =>
            (((outcome st.openChannel.1 config task?).under spans).course acts mid).halt
        | (.error payload, mid) => .unwound mid payload) := by
  rw [← halt_callAndAwait]
  exact Program.halt_course_closing st.openChannel.1
    (step.callAndAwait args st.openChannel.1 config) spans acts st.openChannel.2

variable {step args config spans acts st}

theorem halt_invoke_of_ok {task? : Option (Suspending υ Settlement)}
    (hcalled : (step.called args config spans st.openChannel.1 st.openChannel.2).1 = .ok task?) :
    (((step.invoke args config).under spans).course acts st).halt =
      ((((outcome st.openChannel.1 config task?).under spans).course acts
        (step.called args config spans st.openChannel.1 st.openChannel.2).2).halt).closing
          st.openChannel.1 := by
  rw [halt_invoke]
  generalize step.called args config spans st.openChannel.1 st.openChannel.2 = c at hcalled ⊢
  obtain ⟨r, mid⟩ := c
  obtain rfl : r = .ok task? := hcalled
  rfl

theorem halt_invoke_of_error {payload : Panic}
    (hcalled : (step.called args config spans st.openChannel.1 st.openChannel.2).1 =
      .error payload) :
    (((step.invoke args config).under spans).course acts st).halt = .unwound
      ((step.called args config spans st.openChannel.1 st.openChannel.2).2.deafen
        st.openChannel.1) payload := by
  rw [halt_invoke]
  generalize step.called args config spans st.openChannel.1 st.openChannel.2 = c at hcalled ⊢
  obtain ⟨r, mid⟩ := c
  obtain rfl : r = .error payload := hcalled
  rfl

variable (config spans acts st)

/-- Without a task the invocation waits as a waiter does. -/
theorem halt_waiter (k : Handle) :
    (((Parked.waiter k).program.under spans).course acts st).halt =
      ((((outcome k config none).under spans).course acts st).halt).closing k :=
  Program.halt_course_closing k (Program.settled k) spans acts st

/-- With a task, the task is awaited. -/
theorem awaited_outcome (k : Handle) (task : Suspending υ Settlement) :
    ((task.under spans).course acts st).halt.Awaited config
      (((outcome k config (some task)).under spans).course acts st).halt := by
  have hguarded : ((outcome k config (some task)).under spans).course acts st =
      ((config.guarded (task.under spans)).course acts st).andThen fun r =>
        .done (r.bind id) := by
    change (((config.guarded task).bind fun r => .done (r.bind id)).under spans).course acts st = _
    rw [Program.under_bind, Config.under_guarded, Program.course_bind]
    rfl
  rw [hguarded]
  cases hcatch : config.catchPanics with
  | true =>
      have hcaught := (task.under spans).halt_course_caught acts st
      rw [Config.guarded_of_catching hcatch, Program.course_bind]
      rcases hcourse : (task.under spans).course acts st with
        ⟨last, s, left⟩ | ⟨last, payload⟩ | ⟨last, rest⟩ | last
      all_goals simp only [hcourse] at hcaught
      · rw [hcaught]
        rfl
      · obtain ⟨left, hcaught⟩ := hcaught
        rw [hcaught]
        simp only [Course.halt, Halt.Awaited, hcatch, if_true]
        exact ⟨left, rfl⟩
      · obtain ⟨program, hcaught⟩ := hcaught
        rw [hcaught]
        rfl
      · rw [hcaught]
        rfl
  | false =>
      rw [Config.guarded_of_not_catching hcatch, Program.course_bind]
      rcases (task.under spans).course acts st with
        ⟨last, s, left⟩ | ⟨last, payload⟩ | ⟨last, rest⟩ | last
      · rfl
      · simp [Course.halt, Halt.Awaited, hcatch, Course.andThen]
      · rfl
      · rfl

end Step

end Stepwise
