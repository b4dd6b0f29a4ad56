import Stepwise.Proofs.Unheard
/-!
# The bridge between calls and invocations

The result of a step travels through its task or through its continuation, and exactly one of them
decides an invocation: the task, if the call handed one over, and otherwise the waiter of the
continuation that it was called with.
-/

namespace Stepwise

variable {υ : Type}

namespace Step

variable {step : Step υ} {args : Values} {config : Config} {spans : List Span} {st : Store υ}

/-- A task that is handed over is that of a future, which dropped the continuation, or the caught
panic of a callback. -/
theorem lost_or_settled {task : Suspending υ Settlement}
    (hcalled : (step.called args config spans st.openChannel.1 st.openChannel.2).1 =
      .ok (some task)) :
    (step.called args config spans st.openChannel.1 st.openChannel.2).2.Lost st.openChannel.1 ∨
      ∃ s, task = .done s := by
  cases hstep : step.invoker with
  | sync body =>
      have hshape : step.shape = .sync := by rw [shape, hstep]
      have htask := (hands_task_iff hcalled).1 rfl
      simp [hshape] at htask
  | callback body =>
      right
      rw [called_callback hstep] at hcalled
      rcases hbody : ((body args st.openChannel.1).under spans).run st.openChannel.2 with
        ⟨payload | ⟨⟩, mid⟩ <;> simp only [hbody] at hcalled
      · cases hcatch : config.catchPanics <;> rw [hcatch] at hcalled <;> cases hcalled
        exact ⟨_, rfl⟩
      · cases hcalled
  | future start =>
      have hshape : step.shape = .future := by rw [shape, hstep]
      exact .inl (lost_called hshape args config spans st)

/-- The panic of a callback is a task that is settled with it. -/
theorem called_of_raised (hshape : step.shape = .callback) (hcatch : config.catchPanics = true)
    {k : Handle} {payload : Panic}
    (hraised : (step.codeRun args spans k st).1 = .error payload) :
    (step.called args config spans k st).1 = .ok (some (.done (.error payload.asError))) := by
  cases hstep : step.invoker with
  | sync body => rw [shape, hstep] at hshape; cases hshape
  | future start => rw [shape, hstep] at hshape; cases hshape
  | callback body =>
      rw [codeRun_callback hstep] at hraised
      rw [called_callback hstep]
      rcases hbody : ((body args k).under spans).run st with ⟨raised | ⟨⟩, mid⟩ <;>
        rw [hbody] at hraised <;> cases hraised
      simp only [hcatch, if_true]

/-- Whether somebody waits makes no difference to a call of a step whose code does not ask. -/
theorem Asks.called_unheard {k : Handle} (asks : step.Asks (· ≠ .isWaiting k) args k)
    (config : Config) (spans : List Span) {other : Store υ} (unheard : st.Unheard k other) :
    (step.called args config spans k other).1 = (step.called args config spans k st).1 ∧
      (step.called args config spans k st).2.Unheard k
        (step.called args config spans k other).2 ∧
      ∀ task, (step.called args config spans k st).1 = .ok (some task) →
        task.Asks (· ≠ .isWaiting k) fun _ => True := by
  obtain ⟨hsame, hlast, hpost⟩ :=
    (asks.call nofun (fun _ => nofun) config).run_unheard unheard spans
  exact ⟨hsame, hlast, fun task htask => hpost _ htask task rfl⟩

end Step

/--
A call with a fresh continuation that returns hands over a task exactly if the step is a future, or
a callback that panicked during the call where panics are caught.  It unwinds with the panics of the
step's own code exactly where they are not caught, and then so does an invocation.  Otherwise an
invocation comes to what the task comes to if there is one, and to what the waiter of the
continuation finds if there is none, and leaves the same but for the waiting end, which is gone;
only a panic of the task is its error where panics are caught.  The waiter of a future finds that
the continuation was abandoned, whenever it looks.  A callback that settles and then panics is
invoked in vain although its waiter finds what it settled.  To a step that does not ask for the
waiter it makes no difference whether there is one.
-/
theorem Step.invoke_bridges_call (step : Step υ) (args : Values) (config : Config)
    (spans : List Span) (acts : List (Act υ)) (st : Store υ) :
    let k := st.openChannel.1
    let called := step.called args config spans k st.openChannel.2
    let ran := step.codeRun args spans k st.openChannel.2
    let waited := (((Parked.waiter k).program.under spans).course acts called.2).halt
    let invoked := (((step.invoke args config).under spans).course acts st).halt
    (∀ task?, called.1 = .ok task? → (task?.isSome ↔ step.shape = .future ∨
      step.shape = .callback ∧ config.catchPanics = true ∧
        ∃ payload, ran.1 = .error payload)) ∧
    (∀ payload, (called.1 = .error payload ↔
        config.catchPanics = false ∧ ran.1 = .error payload) ∧
      (called.1 = .error payload → invoked = .unwound (called.2.deafen k) payload)) ∧
    (called.1 = .ok none → invoked = waited) ∧
    (∀ task, called.1 = .ok (some task) → ∃ awaited,
      ((task.under spans).course acts called.2).halt.Awaited config awaited ∧
        invoked = awaited.closing k) ∧
    (step.shape = .future → ∀ (α : Type) (p : Suspending υ α) (more : List (Act υ)),
      (∀ act ∈ more, ∀ st, st.Lost k → (act st).Lost k) →
        let later := (p.course more called.2).halt.store
        (Parked.waiter k).poll later = .done (later.deafen k) (.error .abandoned)) ∧
    (step.shape = .callback → config.catchPanics = true → ∀ payload s,
      ran.1 = .error payload → called.2.settlement? k = some s →
        invoked = .ended (called.2.deafen k) (.error payload.asError) acts ∧
          waited = .ended (called.2.deafen k) s acts) ∧
    (step.Asks (· ≠ .isWaiting k) args k →
      let unheard := step.called args config spans k (st.openChannel.2.deafen k)
      unheard.1 = called.1 ∧ called.2.Unheard k unheard.2 ∧
      ∀ task, called.1 = .ok (some task) → (∀ act ∈ acts, act.Heedless k) →
        ∀ other, called.2.Unheard k other → ((task.under spans).course acts called.2).halt.Unheard
          k ((task.under spans).course acts other).halt) := by
  intro k called ran waited invoked
  refine ⟨fun task? hcalled => hands_task_iff hcalled,
    fun payload => ⟨call_unwinds_iff, halt_invoke_of_error⟩, fun hcalled => ?_,
    fun task hcalled => ?_, fun hshape α p more keep => ?_,
    fun hshape hcatch payload s hraised hsettled => ?_, fun asks => ?_⟩
  · exact (halt_invoke_of_ok hcalled).trans (halt_waiter config spans acts called.2 k).symm
  · exact ⟨_, awaited_outcome config spans acts called.2 k task, halt_invoke_of_ok hcalled⟩
  · have hlost : called.2.Lost k := lost_called hshape args config spans st
    exact (p.lost_course keep hlost).poll_waiter
  · have hcalled := called_of_raised hshape hcatch hraised
    have hawaited := awaited_outcome config spans acts called.2 k (.done (.error payload.asError))
    have hwaited : waited = _ := halt_waiter config spans acts called.2 k
    have hfound : ((outcome k config none).under spans).course acts called.2 =
        .ended called.2 s acts := Program.course_await_of_settled hsettled acts
    refine ⟨(halt_invoke_of_ok hcalled).trans (congrArg (Halt.closing k) hawaited), ?_⟩
    rw [hwaited, hfound]
    rfl
  · have hopen : k ∈ st.openChannel.2.opened :=
      Store.mem_opened_of_isWaiting (st.isWaiting_openChannel k (.inl rfl))
    obtain ⟨hsame, hlast, htasks⟩ := asks.called_unheard config spans (Store.unheard_deafen hopen)
    refine ⟨hsame, hlast, fun task hcalled heedless other hother => ?_⟩
    rcases lost_or_settled hcalled with hlost | ⟨s, rfl⟩
    · exact (htasks task hcalled).course_unheard heedless hother hlost spans
    · exact ⟨other, rfl, hother⟩

/-- Settles with its arguments, and then panics. -/
def settlesAndPanics : Step Nat :=
  .callback fun args done => (Program.settle done (.ok args)).bind fun _ => .panic (.text "late")

/-- The panic is what the invocation comes to, although the waiter finds the arguments; and a waiter
that is gone makes no difference to the call. -/
theorem invoke_bridges_call_late :
    let st : Store Nat := { user := 0 }
    let k := st.openChannel.1
    let args : Values := .single (.int 3)
    let called := settlesAndPanics.called args {} [] k st.openChannel.2
    (((settlesAndPanics.invoke args {}).under []).course [] st).halt =
      .ended (called.2.deafen k) (.error (.panicked "late")) [] ∧
    (((Parked.waiter k).program.under []).course [] called.2).halt =
      .ended (called.2.deafen k) (.ok args) [] ∧
    (settlesAndPanics.called args {} [] k (st.openChannel.2.deafen k)).1 = called.1 := by
  intro st k args called
  obtain ⟨-, -, -, -, -, hraised, hquiet⟩ :=
    Step.invoke_bridges_call settlesAndPanics args {} [] [] st
  obtain ⟨hinvoked, hwaited⟩ := hraised rfl rfl (.text "late") (.ok args) rfl rfl
  have asks : settlesAndPanics.Asks (· ≠ .isWaiting k) args k := ⟨nofun, fun _ => trivial⟩
  exact ⟨hinvoked, hwaited, (hquiet asks).1⟩

end Stepwise
