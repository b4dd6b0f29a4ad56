import Stepwise.Proofs.Course
import Stepwise.Proofs.Direct
import Stepwise.Proofs.Plan
/-!
# Regimes

A regime says what holds of the state of user code whenever no code has control, and what holds of
it at every moment.  Code that keeps to a regime relies on it whenever it gets control, and has
restored it whenever it lets control go: when it ends, panics or is suspended.  What the engine
makes of steps that keep to a regime keeps to it, and at every moment of a poll the regime holds.
-/

namespace Stepwise

variable {m : Mode} {υ ρ α β : Type}

structure Regime (υ : Type) where
  /-- Holds whenever no code has control. -/
  idle : υ → Prop
  /-- Holds at every moment. -/
  always : υ → Prop
  always_of_idle : ∀ u, idle u → always u

/-- The same where the state has a second component. -/
def Regime.beside (ρ : Type) (R : Regime υ) : Regime (υ × ρ) where
  idle x := R.idle x.1
  always x := R.always x.1
  always_of_idle x := R.always_of_idle x.1

variable {R : Regime υ} {post : α → Prop} {after : β → Prop} {u : υ}

/-! ## Programs -/

namespace Program

/-- From the given state on, the program upholds the regime, and what it returns satisfies `post`.
While it is suspended the state may become any other one that the regime allows. -/
def Upholds (R : Regime υ) (post : α → Prop) : Program m υ α → υ → Prop
  | done value, u => R.idle u ∧ post value
  | panic _, u => R.idle u
  | exhausted _, u => R.idle u
  | user update next, u => R.always u ∧ (next u).Upholds R post (update u)
  | request _ _ next, u => R.always u ∧ ∀ x, (next x).Upholds R post u
  | pause _ _ next, u => R.idle u ∧ ∀ u', R.idle u' → (next ()).Upholds R post u'
  | await _ _ _ next, u => R.idle u ∧ ∀ s u', R.idle u' → (next s).Upholds R post u'

/-- The program upholds the regime whenever it gets control. -/
def KeepsTo (R : Regime υ) (post : α → Prop) (p : Program m υ α) : Prop :=
  ∀ u, R.idle u → p.Upholds R post u

theorem keepsTo_done {a : α} (hpost : post a) : (done a : Program m υ α).KeepsTo R post :=
  fun _ idle => ⟨idle, hpost⟩

theorem Upholds.always {p : Program m υ α} (upholds : p.Upholds R post u) : R.always u := by
  cases p with
  | done value => exact R.always_of_idle u upholds.1
  | panic payload => exact R.always_of_idle u upholds
  | exhausted may => exact R.always_of_idle u upholds
  | user update next => exact upholds.1
  | request spans r next => exact upholds.1
  | pause may onDrop next => exact R.always_of_idle u upholds.1
  | await may onDrop h next => exact R.always_of_idle u upholds.1

theorem Upholds.bind {p : Program m υ α} {f : α → Program m υ β} (upholds : p.Upholds R post u)
    (rest : ∀ a, post a → (f a).KeepsTo R after) : (p.bind f).Upholds R after u := by
  induction p generalizing u with
  | done value => exact rest value upholds.2 u upholds.1
  | panic payload => exact upholds
  | exhausted may => exact upholds
  | user update next ih => exact ⟨upholds.1, ih u upholds.2⟩
  | request spans r next ih => exact ⟨upholds.1, fun x => ih x (upholds.2 x)⟩
  | pause may onDrop next ih => exact ⟨upholds.1, fun u' idle => ih () (upholds.2 u' idle)⟩
  | await may onDrop h next ih => exact ⟨upholds.1, fun s u' idle => ih s (upholds.2 s u' idle)⟩

theorem KeepsTo.bind {p : Program m υ α} {f : α → Program m υ β} (keeps : p.KeepsTo R post)
    (rest : ∀ a, post a → (f a).KeepsTo R after) : (p.bind f).KeepsTo R after :=
  fun u idle => (keeps u idle).bind rest

theorem Upholds.caught {p : Program m υ α} (upholds : p.Upholds R post u) :
    p.caught.Upholds R (fun r => ∀ a, r = .ok a → post a) u := by
  induction p generalizing u with
  | done value =>
      refine ⟨upholds.1, fun a ha => ?_⟩
      cases ha
      exact upholds.2
  | panic payload => exact ⟨upholds, nofun⟩
  | exhausted may => exact upholds
  | user update next ih => exact ⟨upholds.1, ih u upholds.2⟩
  | request spans r next ih => exact ⟨upholds.1, fun x => ih x (upholds.2 x)⟩
  | pause may onDrop next ih => exact ⟨upholds.1, fun u' idle => ih () (upholds.2 u' idle)⟩
  | await may onDrop h next ih => exact ⟨upholds.1, fun s u' idle => ih s (upholds.2 s u' idle)⟩

theorem Upholds.onPanic {p : Program m υ α} (upholds : p.Upholds R post u) (q : Request) :
    (p.onPanic q).Upholds R post u := by
  induction p generalizing u with
  | done value => exact upholds
  | panic payload => exact ⟨upholds.always, fun _ => upholds⟩
  | exhausted may => exact upholds
  | user update next ih => exact ⟨upholds.1, ih u upholds.2⟩
  | request spans r next ih => exact ⟨upholds.1, fun x => ih x (upholds.2 x)⟩
  | pause may onDrop next ih => exact ⟨upholds.1, fun u' idle => ih () (upholds.2 u' idle)⟩
  | await may onDrop h next ih => exact ⟨upholds.1, fun s u' idle => ih s (upholds.2 s u' idle)⟩

theorem Upholds.closing {p : Program m υ α} (upholds : p.Upholds R post u) (k : Handle) :
    (p.closing k).Upholds R post u := by
  induction p generalizing u with
  | done value => exact ⟨upholds.always, fun _ => upholds⟩
  | panic payload => exact ⟨upholds.always, fun _ => upholds⟩
  | exhausted may => exact upholds
  | user update next ih => exact ⟨upholds.1, ih u upholds.2⟩
  | request spans r next ih => exact ⟨upholds.1, fun x => ih x (upholds.2 x)⟩
  | pause may onDrop next ih => exact ⟨upholds.1, fun u' idle => ih () (upholds.2 u' idle)⟩
  | await may onDrop h next ih => exact ⟨upholds.1, fun s u' idle => ih s (upholds.2 s u' idle)⟩

theorem Upholds.inside {p : Program m υ α} (upholds : p.Upholds R post u) (spans : List Span)
    (r : ρ) : (p.inside spans : Program m (υ × ρ) α).Upholds (R.beside ρ) post (u, r) := by
  induction p generalizing u r with
  | done value => exact upholds
  | panic payload => exact upholds
  | exhausted may => exact upholds
  | user update next ih => exact ⟨upholds.1, ih u upholds.2 r⟩
  | request inner q next ih => exact ⟨upholds.1, fun x => ih x (upholds.2 x) r⟩
  | pause may onDrop next ih =>
      exact ⟨upholds.1, fun v idle => ih () (upholds.2 v.1 idle) v.2⟩
  | await may onDrop h next ih =>
      exact ⟨upholds.1, fun s v idle => ih s (upholds.2 s v.1 idle) v.2⟩

theorem KeepsTo.inside {p : Program m υ α} (keeps : p.KeepsTo R post) (spans : List Span) :
    (p.inside spans : Program m (υ × ρ) α).KeepsTo (R.beside ρ) post :=
  fun v idle => (keeps v.1 idle).inside spans v.2

theorem Upholds.relax {p : Direct υ α} (upholds : p.Upholds R post u) :
    (p.relax : Program m υ α).Upholds R post u := by
  induction p generalizing u with
  | done value => exact upholds
  | panic payload => exact upholds
  | exhausted may => cases may
  | user update next ih => exact ⟨upholds.1, ih u upholds.2⟩
  | request spans r next ih => exact ⟨upholds.1, fun x => ih x (upholds.2 x)⟩
  | pause may => cases may
  | await may => cases may

theorem Upholds.withLocal {p : Program m (υ × ρ) α} {post : α → Prop} {r : ρ}
    (upholds : p.Upholds (R.beside ρ) post (u, r)) :
    (p.withLocal r).Upholds R (fun x => post x.1) u := by
  induction p generalizing u r with
  | done value => exact upholds
  | panic payload => exact upholds
  | exhausted may => exact upholds
  | user update next ih => exact ⟨upholds.1, ih (u, r) upholds.2⟩
  | request spans q next ih => exact ⟨upholds.1, fun x => ih x (upholds.2 x)⟩
  | pause may onDrop next ih =>
      exact ⟨upholds.1, fun u' idle => ih () (upholds.2 (u', r) idle)⟩
  | await may onDrop h next ih =>
      exact ⟨upholds.1, fun s u' idle => ih s (upholds.2 s (u', r) idle)⟩

end Program

theorem Config.keepsTo_guarded (config : Config) {p : Program m υ α} (keeps : p.KeepsTo R post) :
    (config.guarded p).KeepsTo R fun r => ∀ a, r = .ok a → post a := by
  have hok (a : α) (hpost : post a) : ∀ b, (.ok a : Except FlowError α) = .ok b → post b := by
    intro b hb
    cases hb
    exact hpost
  unfold Config.guarded
  split
  · refine fun u idle => (keeps u idle).caught.bind fun r hr => ?_
    cases r with
    | ok a => exact Program.keepsTo_done (hok a (hr a rfl))
    | error payload => exact Program.keepsTo_done nofun
  · exact keeps.bind fun a hpost => Program.keepsTo_done (hok a hpost)

/-! ## Steps -/

namespace Step

/-- A step whose code, and its tasks, keep to the regime. -/
def KeepsTo (R : Regime υ) (step : Step υ) : Prop :=
  match step.invoker with
  | .sync body => ∀ args, (body args).KeepsTo R fun _ => True
  | .callback body => ∀ args done, (body args done).KeepsTo R fun _ => True
  | .future start => ∀ args, (start args).KeepsTo R fun task => task.KeepsTo R fun _ => True

/-- If there is a task, it keeps to the regime. -/
def TaskKeepsTo (R : Regime υ) (task? : Option (Suspending υ Settlement)) : Prop :=
  ∀ task, task? = some task → task.KeepsTo R fun _ => True

theorem taskKeepsTo_some {task : Suspending υ Settlement} (keeps : task.KeepsTo R fun _ => True) :
    TaskKeepsTo R (some task) := by
  intro other hother
  cases hother
  exact keeps

theorem KeepsTo.call {step : Step υ} (keeps : step.KeepsTo R) (args : Values) (done : Handle)
    (config : Config) : (step.call args done config).KeepsTo R (TaskKeepsTo R) := by
  obtain ⟨invoker, label⟩ := step
  cases invoker with
  | sync body =>
      refine fun u idle => ((config.keepsTo_guarded (keeps args) u idle).onPanic _).bind ?_
      exact fun _ _ u idle => ⟨R.always_of_idle u idle, fun _ => ⟨idle, nofun⟩⟩
  | callback body =>
      refine (config.keepsTo_guarded (keeps args done)).bind fun result _ => ?_
      cases result with
      | ok value => exact Program.keepsTo_done nofun
      | error e => exact Program.keepsTo_done (taskKeepsTo_some (Program.keepsTo_done trivial))
  | future start =>
      refine fun u idle => ⟨R.always_of_idle u idle, fun _ => ?_⟩
      refine (config.keepsTo_guarded (keeps args) u idle).bind fun result hresult => ?_
      cases result with
      | ok task =>
          refine Program.keepsTo_done (taskKeepsTo_some ?_)
          exact (hresult task rfl).bind fun _ _ => Program.keepsTo_done trivial
      | error e => exact Program.keepsTo_done (taskKeepsTo_some (Program.keepsTo_done trivial))

theorem keepsTo_outcome {task? : Option (Suspending υ Settlement)} (keeps : TaskKeepsTo R task?)
    (done : Handle) (config : Config) :
    (outcome done config task?).KeepsTo R fun _ => True := by
  cases task? with
  | none => exact fun u idle => ⟨idle, fun s u' idle' => ⟨idle', trivial⟩⟩
  | some task =>
      exact (config.keepsTo_guarded (keeps task rfl)).bind fun _ _ => Program.keepsTo_done trivial

theorem KeepsTo.callAndAwait {step : Step υ} (keeps : step.KeepsTo R) (args : Values)
    (done : Handle) (config : Config) :
    (step.callAndAwait args done config).KeepsTo R fun _ => True :=
  fun u idle => (keeps.call args done config u idle).relax.bind fun _ htask =>
    keepsTo_outcome htask done config

theorem KeepsTo.invoke {step : Step υ} (keeps : step.KeepsTo R) (args : Values) (config : Config) :
    (step.invoke args config).KeepsTo R fun _ => True :=
  fun u idle => ⟨R.always_of_idle u idle, fun done =>
    (keeps.callAndAwait args done config u idle).closing done⟩

end Step

/-! ## Runs -/

theorem Plan.Invokes.keepsTo {p : Plan υ α} (invokes : p.Invokes (Step.KeepsTo R))
    (config : Config) : (p.toProgram config).KeepsTo (R.beside ResultSet) fun _ => True := by
  induction p with
  | done value => exact Program.keepsTo_done trivial
  | exhausted => exact fun v idle => idle
  | report spans notice next ih =>
      exact fun v idle => ⟨R.always_of_idle v.1 idle, fun _ => ih invokes v idle⟩
  | results update next ih =>
      exact fun v idle => ⟨R.always_of_idle v.1 idle, ih v.2 (invokes v.2) _ idle⟩
  | invoke spans step args next ih =>
      exact ((invokes.1.invoke args config).inside spans).bind fun s _ => ih s (invokes.2 s)

theorem Flow.keepsTo_notify {resolvers : List (Resolver υ)} (completion : Completion)
    (keeps : ∀ resolver ∈ resolvers, (resolver completion).KeepsTo R fun _ => True) :
    (notify completion resolvers).KeepsTo R fun _ => True := by
  induction resolvers with
  | nil => exact Program.keepsTo_done trivial
  | cons resolver rest ih =>
      refine (keeps resolver List.mem_cons_self).bind fun _ _ => ?_
      exact ih fun other hother => keeps other (List.mem_cons_of_mem _ hother)

/-- Terms on which code is let in. -/
structure Terms (υ : Type) where
  step : Step υ → Prop
  resolver : Resolver υ → Prop
  act : Act υ → Prop

/-- All code in the flow meets the terms. -/
structure Flow.Meets (terms : Terms υ) (flow : Flow υ) : Prop where
  steps : ∀ step ∈ flow.sequence.steps, terms.step step
  resolvers : ∀ resolver ∈ flow.resolvers, terms.resolver resolver

/-- The terms that code keeps to the regime.  Acts of the outside world are over at once. -/
def Regime.terms (R : Regime υ) : Terms υ where
  step := Step.KeepsTo R
  resolver resolver := ∀ completion, (resolver completion).KeepsTo R fun _ => True
  act f := ∀ st, R.idle st.user → R.idle (f st).user

theorem Flow.Meets.exec {flow : Flow υ} (meets : flow.Meets R.terms) (limit : Nat) :
    (flow.exec limit).KeepsTo (R.beside ResultSet) fun _ => True := by
  rw [Flow.exec_eq_plan]
  have hplan := ((flow.plan_invokes limit).mono meets.steps).keepsTo flow.config
  refine hplan.bind fun completion _ => ?_
  rw [Program.beside_eq_inside]
  have hnotify := Flow.keepsTo_notify completion fun resolver hresolver =>
    meets.resolvers resolver hresolver completion
  have hrelaxed : ((notify completion flow.resolvers).relax : Suspending υ Unit).KeepsTo R
      fun _ => True :=
    fun u idle => (hnotify u idle).relax
  exact (hrelaxed.inside []).bind fun _ _ => Program.keepsTo_done trivial

/-! ## Polls -/

namespace Store

/-- A request leaves the state of user code alone. -/
theorem user_answer (st : Store υ) (spans : List Span) (r : Request) :
    (st.answer spans r).2.user = st.user := by
  cases r with
  | settle h s => exact (st.completes_settle spans h s).user
  | discard h => exact (st.completes_discard h).user
  | openChannel => rfl
  | deafen h => rfl
  | isWaiting h => rfl
  | defer h s => rfl
  | report notice => rfl

theorem user_drop (st : Store υ) (onDrop : List Handle) :
    (onDrop.foldl Store.deafen st).user = st.user := by
  induction onDrop generalizing st with
  | nil => rfl
  | cons h rest ih => exact ih (st.deafen h)

end Store

/-- The states of user code that a poll passes through, or a call of a program that never suspends.
-/
def Program.passes : Program m υ α → Store υ → List υ
  | done _, st => [st.user]
  | panic _, st => [st.user]
  | exhausted _, st => [st.user]
  | user update next, st => st.user :: (next st.user).passes { st with user := update st.user }
  | request spans r next, st =>
      st.user :: (next (st.answer spans r).1).passes (st.answer spans r).2
  | pause _ _ _, st => [st.user]
  | await _ _ handle next, st =>
      match st.settlement? handle with
      | some s => (next s).passes st
      | none => [st.user]

theorem Program.Upholds.passes {p : Program m υ α} {st : Store υ}
    (upholds : p.Upholds R post st.user) : ∀ u ∈ p.passes st, R.always u := by
  have hhead : R.always st.user := upholds.always
  induction p generalizing st with
  | done value => exact List.forall_mem_singleton.2 hhead
  | panic payload => exact List.forall_mem_singleton.2 hhead
  | exhausted may => exact List.forall_mem_singleton.2 hhead
  | user update next ih =>
      exact List.forall_mem_cons.2 ⟨hhead, ih _ upholds.2 upholds.2.always⟩
  | request spans r next ih =>
      have hnext := upholds.2 (st.answer spans r).1
      rw [← st.user_answer spans r] at hnext
      exact List.forall_mem_cons.2 ⟨hhead, ih _ hnext hnext.always⟩
  | pause may onDrop next ih => exact List.forall_mem_singleton.2 hhead
  | await may onDrop h next ih =>
      simp only [Program.passes]
      split
      · rename_i s _
        exact ih s (upholds.2 s _ upholds.1) hhead
      · exact List.forall_mem_singleton.2 hhead

/-- What a poll may leave. -/
def Progress.Upholds (R : Regime υ) (post : α → Prop) : Progress υ α → Prop
  | done st value => R.idle st.user ∧ post value
  | panicked st _ => R.idle st.user
  | pending st rest => R.idle st.user ∧ rest.program.KeepsTo R post
  | exhausted st => R.idle st.user

theorem Program.Upholds.poll {p : Suspending υ α} {st : Store υ}
    (upholds : p.Upholds R post st.user) : (p.poll st).Upholds R post := by
  induction p generalizing st with
  | done value => exact upholds
  | panic payload => exact upholds
  | exhausted may => exact upholds
  | user update next ih => exact ih _ upholds.2
  | request spans r next ih =>
      have hnext := upholds.2 (st.answer spans r).1
      rw [← st.user_answer spans r] at hnext
      exact ih _ hnext
  | pause may onDrop next ih => exact upholds
  | await may onDrop h next ih =>
      simp only [Program.poll]
      split
      · rename_i s _
        exact ih s (upholds.2 s _ upholds.1)
      · exact ⟨upholds.1, fun u' idle => ⟨idle, upholds.2⟩⟩

theorem Program.Upholds.run {p : Direct υ α} {st : Store υ} (upholds : p.Upholds R post st.user) :
    R.idle (p.run st).2.user ∧ ∀ a, (p.run st).1 = .ok a → post a := by
  induction p generalizing st with
  | done value =>
      refine ⟨upholds.1, fun a ha => ?_⟩
      cases ha
      exact upholds.2
  | panic payload => exact ⟨upholds, nofun⟩
  | exhausted may => cases may
  | user update next ih => exact ih _ upholds.2
  | request spans r next ih =>
      have hnext := upholds.2 (st.answer spans r).1
      rw [← st.user_answer spans r] at hnext
      exact ih _ hnext
  | pause may => cases may
  | await may => cases may

namespace Parked

/-- The states of user code that so many polls pass through. -/
def passes (p : Parked υ α) (st : Store υ) : Nat → List υ
  | 0 => []
  | polls + 1 =>
      p.program.passes st ++
        match p.poll st with
        | .pending st rest => rest.passes st.turn polls
        | _ => []

variable {p : Parked υ α} {st : Store υ}

theorem keepsTo_passes (keeps : p.program.KeepsTo R post) (idle : R.idle st.user) (polls : Nat) :
    ∀ u ∈ p.passes st polls, R.always u := by
  induction polls generalizing p st with
  | zero => exact nofun
  | succ polls ih =>
      have hpoll := (keeps _ idle).poll
      refine List.forall_mem_append.2 ⟨(keeps _ idle).passes, ?_⟩
      unfold Parked.poll
      cases hprogress : p.program.poll st with
      | done st' value => exact nofun
      | panicked st' payload => exact nofun
      | exhausted st' => exact nofun
      | pending st' rest =>
          rw [hprogress] at hpoll
          refine ih hpoll.2 ?_
          rw [st'.completes_turn.user]
          exact hpoll.1

theorem keepsTo_advance (keeps : p.program.KeepsTo R post) (idle : R.idle st.user) (polls : Nat) :
    (p.advance st polls).Upholds R post := by
  induction polls generalizing p st with
  | zero => exact ⟨idle, keeps⟩
  | succ polls ih =>
      have hpoll : (p.poll st).Upholds R post := (keeps _ idle).poll
      unfold Parked.advance
      split
      next st' rest hpending =>
          rw [hpending] at hpoll
          refine ih hpoll.2 ?_
          rw [st'.completes_turn.user]
          exact hpoll.1
      next => exact hpoll

end Parked

end Stepwise
