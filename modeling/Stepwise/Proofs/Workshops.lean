import Stepwise.Proofs.History
import Stepwise.Proofs.Regimes
import Stepwise.Proofs.Scripts
/-!
# Workshops

In a workshop, flows are declared and run beside tasks, which come from invocations and calls of
steps, all of them in one store.  Any of these may be in progress at once, is polled whenever one
likes, and may be dropped between two polls.  If all code that is brought in keeps to a regime, the
regime holds at every moment of a history.
-/

namespace Stepwise

variable {υ : Type}

/-! ## What is done with a flow -/

inductive Handling (υ : Type) where
  | declare (clause : Clause υ)
  | configure (config : Config)
  | onComplete (resolver : Resolver υ)
  /-- Starts a run, which is not polled yet; one that is in progress is dropped. -/
  | start (limit : Nat)
  | resume (polls : Nat)
  | drop

namespace Host

/-- The states of user code that so many polls of the run in progress pass through. -/
def passes (polls : Nat) (h : Host υ) : List υ :=
  match h.run with
  | none => []
  | some run => (run.passes h.inner polls).map Prod.fst

/-- What a host makes of a handling, and the states of user code on the way. -/
def handle (h : Host υ) : Handling υ → List υ × Host υ
  | .declare clause => ([], h.declare clause)
  | .configure config => ([], h.withConfig config)
  | .onComplete resolver => ([], h.onComplete resolver)
  | .start limit => ([], h.drop.start limit)
  | .resume polls => (h.passes polls, (h.resume polls).2)
  | .drop => ([], h.drop)

end Host

/-! ## Workshops and deeds -/

/-- A flow and the run of it that is in progress. -/
structure Bay (υ : Type) where
  flow : Flow υ
  run : Option (Parked (υ × ResultSet) Completion) := none

structure Workshop (υ : Type) where
  store : Store υ
  bays : List (Bay υ) := []
  /-- Invocations, tasks that calls handed over, and waiters of continuations. -/
  tasks : List (Parked υ Settlement) := []

inductive Deed (υ : Type) where
  /-- Brings in a flow. -/
  | install (flow : Flow υ)
  | handle (bay : Nat) (handling : Handling υ)
  /-- Makes a task of an invocation, which is not polled yet. -/
  | invoke (step : Step υ) (args : Values) (config : Config)
  /-- Calls a step with a continuation of its own; if it is `deaf`, nobody waits for that.  What the
  call hands over and the waiter become tasks. -/
  | call (step : Step υ) (args : Values) (config : Config) (deaf : Bool)
  | poll (task : Nat) (polls : Nat)
  | drop (task : Nat)
  /-- The outside world acts on the store. -/
  | act (f : Act υ)

namespace Workshop

/-- A bay as a host. -/
def host (w : Workshop υ) (bay : Bay υ) : Host υ := ⟨w.store, bay.flow, bay.run⟩

/-- Takes back the store and the flow of a host. -/
def takeBack (w : Workshop υ) (bay : Nat) (h : Host υ) : Workshop υ :=
  { w with store := h.store, bays := w.bays.set bay ⟨h.flow, h.run⟩ }

/-- What polls of a task leave.  A task that ended is gone. -/
def leave (w : Workshop υ) (task : Nat) : Progress υ Settlement → Workshop υ
  | .pending store rest => { w with store, tasks := w.tasks.set task rest }
  | .done store _ | .panicked store _ | .exhausted store =>
      { w with store, tasks := w.tasks.eraseIdx task }

/-- Calls a step with the given continuation, whose waiter, if there is one, becomes a task. -/
def call (w : Workshop υ) (step : Step υ) (args : Values) (config : Config) (done : Handle)
    (waiter : List (Parked υ Settlement)) : List υ × Workshop υ :=
  let (called, store) := (step.call args done config).run w.store
  let handed := match called with
    | .ok (some task) => [.fresh task]
    | _ => []
  ((step.call args done config).passes w.store,
    { w with store, tasks := w.tasks ++ handed ++ waiter })

/-- What a workshop makes of a deed, and the states of user code on the way. -/
def perform (w : Workshop υ) : Deed υ → List υ × Workshop υ
  | .install flow => ([], { w with bays := w.bays ++ [{ flow }] })
  | .handle i handling =>
      match w.bays[i]? with
      | none => ([], w)
      | some bay => ((w.host bay).handle handling).map id (w.takeBack i)
  | .invoke step args config =>
      ([], { w with tasks := w.tasks ++ [.fresh (step.invoke args config)] })
  | .call step args config deaf =>
      let (done, store) := w.store.openChannel
      if deaf then { w with store := store.deafen done }.call step args config done []
      else { w with store }.call step args config done [.waiter done]
  | .poll i polls =>
      match w.tasks[i]? with
      | none => ([], w)
      | some task => (task.passes w.store polls, w.leave i (task.advance w.store polls))
  | .drop i =>
      match w.tasks[i]? with
      | none => ([], w)
      | some task => ([], { w with store := task.drop w.store, tasks := w.tasks.eraseIdx i })
  | .act f => ([], { w with store := f w.store })

/-- What a workshop makes of deeds, one after the other, and the states of user code on the way, at
every moment of every deed and after it. -/
def live (w : Workshop υ) : List (Deed υ) → List υ × Workshop υ
  | [] => ([], w)
  | d :: history =>
      let (passed, w) := w.perform d
      let (later, last) := w.live history
      (passed ++ w.store.user :: later, last)

end Workshop

/-! ## What is brought in -/

def Handling.Meets (terms : Terms υ) : Handling υ → Prop
  | declare clause => ∀ step ∈ clause.steps, terms.step step
  | onComplete resolver => terms.resolver resolver
  | configure _ | start _ | resume _ | drop => True

/-- All code that the deed brings in meets the terms. -/
def Deed.Meets (terms : Terms υ) : Deed υ → Prop
  | install flow => flow.Meets terms
  | handle _ handling => handling.Meets terms
  | invoke step _ _ | call step _ _ _ => terms.step step
  | poll _ _ | drop _ => True
  | act f => terms.act f

theorem Handling.Meets.mono {terms weaker : Terms υ} {handling : Handling υ}
    (meets : handling.Meets terms) (steps : ∀ step, terms.step step → weaker.step step)
    (resolvers : ∀ resolver, terms.resolver resolver → weaker.resolver resolver) :
    handling.Meets weaker := by
  cases handling with
  | declare clause => exact fun step hstep => steps step (meets step hstep)
  | onComplete resolver => exact resolvers resolver meets
  | configure config => trivial
  | start limit => trivial
  | resume polls => trivial
  | drop => trivial

theorem Deed.Meets.mono {terms weaker : Terms υ} {d : Deed υ} (meets : d.Meets terms)
    (steps : ∀ step, terms.step step → weaker.step step)
    (resolvers : ∀ resolver, terms.resolver resolver → weaker.resolver resolver)
    (acts : ∀ f, terms.act f → weaker.act f) : d.Meets weaker := by
  cases d with
  | install flow =>
      exact ⟨fun step hstep => steps step (meets.steps step hstep),
        fun resolver hresolver => resolvers resolver (meets.resolvers resolver hresolver)⟩
  | handle i handling => exact Handling.Meets.mono meets steps resolvers
  | invoke step args config => exact steps step meets
  | call step args config deaf => exact steps step meets
  | poll i polls => trivial
  | drop i => trivial
  | act f => exact acts f meets

/-! ## Keeping to a regime -/

variable {R : Regime υ}

namespace Host

/-- No code has control, and all code in the host keeps to the regime. -/
structure Abides (R : Regime υ) (h : Host υ) : Prop where
  idle : R.idle h.store.user
  flow : h.flow.Meets R.terms
  run : ∀ run ∈ h.run, run.program.KeepsTo (R.beside ResultSet) fun _ => True

variable {h : Host υ}

theorem Abides.leave (abides : h.Abides R) {st : Store (υ × ResultSet)}
    (idle : (R.beside ResultSet).idle st.user) : (h.leave st).Abides R :=
  ⟨idle, ⟨abides.flow.steps, abides.flow.resolvers⟩, nofun⟩

theorem Abides.drop (abides : h.Abides R) : h.drop.Abides R := by
  unfold Host.drop
  split
  · exact abides
  · rename_i run _
    have hdropped : (run.drop h.inner).user = h.inner.user := h.inner.user_drop run.onDrop
    refine abides.leave ?_
    rw [hdropped]
    exact abides.idle

theorem Abides.start (abides : h.Abides R) (limit : Nat) : (h.start limit).Abides R where
  idle := abides.idle
  flow := abides.flow
  run := by
    intro run hrun
    cases hrun
    exact abides.flow.exec limit

theorem Abides.declare (abides : h.Abides R) {clause : Clause υ}
    (meets : ∀ step ∈ clause.steps, step.KeepsTo R) : (h.declare clause).Abides R := by
  rw [declare_eq]
  unfold Flow.extend
  cases hdeclare : h.flow.sequence.declare clause with
  | ok s =>
      refine ⟨abides.idle, ⟨fun step hstep => ?_, abides.flow.resolvers⟩, abides.run⟩
      rw [Sequence.steps_declare hdeclare] at hstep
      exact List.forall_mem_append.2 ⟨abides.flow.steps, meets⟩ step hstep
  | error error => exact ⟨abides.idle, ⟨abides.flow.steps, abides.flow.resolvers⟩, abides.run⟩

theorem Abides.onComplete (abides : h.Abides R) {resolver : Resolver υ}
    (meets : R.terms.resolver resolver) : (h.onComplete resolver).Abides R where
  idle := abides.idle
  flow := ⟨abides.flow.steps, List.forall_mem_append.2
    ⟨abides.flow.resolvers, List.forall_mem_singleton.2 meets⟩⟩
  run := abides.run

theorem Abides.resume (abides : h.Abides R) (polls : Nat) : (h.resume polls).2.Abides R := by
  unfold Host.resume
  split
  · exact abides
  · rename_i run hrun
    have idle : (R.beside ResultSet).idle h.inner.user := abides.idle
    have hadvance := Parked.keepsTo_advance (abides.run run hrun) idle polls
    cases hprogress : run.advance h.inner polls <;> rw [hprogress] at hadvance
    · exact abides.leave hadvance.1
    · exact abides.leave hadvance
    · obtain ⟨idle, hrest⟩ := hadvance
      refine ⟨(abides.leave idle).idle, (abides.leave idle).flow, fun run hrun => ?_⟩
      cases hrun
      exact hrest
    · exact abides.leave hadvance

theorem Abides.passes (abides : h.Abides R) (polls : Nat) : ∀ u ∈ h.passes polls, R.always u := by
  unfold Host.passes
  split
  · exact nofun
  · rename_i run hrun
    have idle : (R.beside ResultSet).idle h.inner.user := abides.idle
    exact List.forall_mem_map.2 (Parked.keepsTo_passes (abides.run run hrun) idle polls)

theorem Abides.handle (abides : h.Abides R) {handling : Handling υ}
    (meets : handling.Meets R.terms) :
    (∀ u ∈ (h.handle handling).1, R.always u) ∧ (h.handle handling).2.Abides R := by
  cases handling with
  | declare clause => exact ⟨nofun, abides.declare meets⟩
  | configure config =>
      exact ⟨nofun, abides.idle, ⟨abides.flow.steps, abides.flow.resolvers⟩, abides.run⟩
  | onComplete resolver => exact ⟨nofun, abides.onComplete meets⟩
  | start limit => exact ⟨nofun, abides.drop.start limit⟩
  | resume polls => exact ⟨abides.passes polls, abides.resume polls⟩
  | drop => exact ⟨nofun, abides.drop⟩

end Host

namespace Workshop

/-- No code has control, and all code in the workshop keeps to the regime. -/
structure Abides (R : Regime υ) (w : Workshop υ) : Prop where
  idle : R.idle w.store.user
  bays : ∀ bay ∈ w.bays, (w.host bay).Abides R
  tasks : ∀ task ∈ w.tasks, task.program.KeepsTo R fun _ => True

variable {w : Workshop υ}

/-- What is in the bays does not depend on the store. -/
theorem Abides.bays_of_idle (abides : w.Abides R) {st : Store υ} (idle : R.idle st.user) :
    ∀ bay ∈ w.bays, (Host.mk st bay.flow bay.run).Abides R :=
  fun bay hbay => ⟨idle, (abides.bays bay hbay).flow, (abides.bays bay hbay).run⟩

theorem keepsTo_waiter (done : Handle) :
    (Parked.waiter done : Parked υ Settlement).program.KeepsTo R fun _ => True := by
  intro u idle
  have hsettled : (Program.settled done : Suspending υ Settlement).Upholds R (fun _ => True) u :=
    ⟨idle, fun _ _ idle' => ⟨idle', trivial⟩⟩
  exact hsettled.closing done

theorem Abides.call (abides : w.Abides R) {step : Step υ} (keeps : step.KeepsTo R) (args : Values)
    (config : Config) (done : Handle) {waiter : List (Parked υ Settlement)}
    (hwaiter : ∀ task ∈ waiter, task.program.KeepsTo R fun _ => True) :
    (∀ u ∈ (w.call step args config done waiter).1, R.always u) ∧
      (w.call step args config done waiter).2.Abides R := by
  have upholds := keeps.call args done config w.store.user abides.idle
  obtain ⟨idle, htask⟩ := upholds.run
  refine ⟨upholds.passes, idle, abides.bays_of_idle idle, ?_⟩
  refine List.forall_mem_append.2 ⟨List.forall_mem_append.2 ⟨abides.tasks, ?_⟩, hwaiter⟩
  split
  · rename_i task hcalled
    exact List.forall_mem_singleton.2 (htask _ hcalled task rfl)
  · exact nofun

theorem Abides.leave (abides : w.Abides R) {progress : Progress υ Settlement}
    (upholds : progress.Upholds R fun _ => True) (task : Nat) :
    (w.leave task progress).Abides R := by
  have herase : ∀ other ∈ w.tasks.eraseIdx task, other.program.KeepsTo R fun _ => True :=
    fun other hother => abides.tasks other (List.mem_of_mem_eraseIdx hother)
  cases progress with
  | done st value => exact ⟨upholds.1, abides.bays_of_idle upholds.1, herase⟩
  | panicked st payload => exact ⟨upholds, abides.bays_of_idle upholds, herase⟩
  | exhausted st => exact ⟨upholds, abides.bays_of_idle upholds, herase⟩
  | pending st rest =>
      refine ⟨upholds.1, abides.bays_of_idle upholds.1, fun other hother => ?_⟩
      rcases List.mem_or_eq_of_mem_set hother with hmem | rfl
      · exact abides.tasks other hmem
      · exact upholds.2

theorem Abides.takeBack (abides : w.Abides R) {h : Host υ} (hhost : h.Abides R) (bay : Nat) :
    (w.takeBack bay h).Abides R := by
  refine ⟨hhost.idle, fun other hother => ?_, abides.tasks⟩
  rcases List.mem_or_eq_of_mem_set hother with hmem | rfl
  · exact abides.bays_of_idle hhost.idle other hmem
  · exact hhost

/-- A deed keeps to the regime, at every moment, if what it brings in does. -/
theorem Abides.perform (abides : w.Abides R) {d : Deed υ} (meets : d.Meets R.terms) :
    (∀ u ∈ (w.perform d).1, R.always u) ∧ (w.perform d).2.Abides R := by
  cases d with
  | install flow =>
      refine ⟨nofun, abides.idle, ?_, abides.tasks⟩
      exact List.forall_mem_append.2
        ⟨abides.bays, List.forall_mem_singleton.2 ⟨abides.idle, meets, nofun⟩⟩
  | handle i handling =>
      simp only [Workshop.perform]
      split
      · exact ⟨nofun, abides⟩
      · rename_i bay hbay
        obtain ⟨hpassed, hhost⟩ := (abides.bays bay (List.mem_of_getElem? hbay)).handle meets
        exact ⟨hpassed, abides.takeBack hhost i⟩
  | invoke step args config =>
      refine ⟨nofun, abides.idle, abides.bays, ?_⟩
      exact List.forall_mem_append.2
        ⟨abides.tasks, List.forall_mem_singleton.2 (Step.KeepsTo.invoke meets args config)⟩
  | call step args config deaf =>
      cases deaf with
      | true =>
          have hdeaf : Abides R
              { w with store := w.store.openChannel.2.deafen w.store.openChannel.1 } :=
            ⟨abides.idle, abides.bays_of_idle abides.idle, abides.tasks⟩
          exact hdeaf.call meets args config _ nofun
      | false =>
          have hopened : Abides R { w with store := w.store.openChannel.2 } :=
            ⟨abides.idle, abides.bays_of_idle abides.idle, abides.tasks⟩
          exact hopened.call meets args config _ (List.forall_mem_singleton.2 (keepsTo_waiter _))
  | poll i polls =>
      simp only [Workshop.perform]
      split
      · exact ⟨nofun, abides⟩
      · rename_i task htask
        have hkeeps := abides.tasks task (List.mem_of_getElem? htask)
        exact ⟨Parked.keepsTo_passes hkeeps abides.idle polls,
          abides.leave (Parked.keepsTo_advance hkeeps abides.idle polls) i⟩
  | drop i =>
      simp only [Workshop.perform]
      split
      · exact ⟨nofun, abides⟩
      · rename_i task _
        have idle : R.idle (task.drop w.store).user := by
          unfold Parked.drop
          rw [w.store.user_drop]
          exact abides.idle
        exact ⟨nofun, idle, abides.bays_of_idle idle,
          fun other hother => abides.tasks other (List.mem_of_mem_eraseIdx hother)⟩
  | act f =>
      have idle := meets w.store abides.idle
      exact ⟨nofun, idle, abides.bays_of_idle idle, abides.tasks⟩

/-- So does a whole history. -/
theorem Abides.live (abides : w.Abides R) {history : List (Deed υ)}
    (meets : ∀ d ∈ history, d.Meets R.terms) :
    (∀ u ∈ (w.live history).1, R.always u) ∧ (w.live history).2.Abides R := by
  induction history generalizing w with
  | nil => exact ⟨nofun, abides⟩
  | cons d history ih =>
      obtain ⟨hd, hhistory⟩ := List.forall_mem_cons.1 meets
      obtain ⟨hpassed, hnext⟩ := abides.perform hd
      obtain ⟨hlater, hlast⟩ := ih hnext hhistory
      have hmoment := R.always_of_idle _ hnext.idle
      exact ⟨List.forall_mem_append.2 ⟨hpassed, List.forall_mem_cons.2 ⟨hmoment, hlater⟩⟩, hlast⟩

end Workshop

end Stepwise
