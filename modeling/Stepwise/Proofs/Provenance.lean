import Stepwise.Proofs.Containment
import Stepwise.Proofs.FirstFailure
import Stepwise.Proofs.Genuine
/-!
# Where errors stem from

An invocation whose panics are not caught comes to what user code made of it, unless it is that of a
callback that lost its continuation.  So the kind of the error that a run ends with tells where it
stems from: from the declaration of the flow, from a panic in a step, from a continuation that was
lost, and otherwise from user code.
-/

namespace Stepwise

variable {υ ρ α : Type}

/-! ## Invocations whose panics are not caught -/

namespace Step

/-- The rest of an invocation under spans after its channel was opened. -/
def opened (config : Config) (spans : List Span) (h : Handle)
    (call : Direct υ (Option (Suspending υ Settlement))) : Suspending υ Settlement :=
  ((call.relax.bind (outcome h config)).closing h).under spans

variable (config : Config) (spans : List Span) (h : Handle) (args : Values)

end Step

/-! ## Entries of a run -/

theorem Program.Honest.under {m : Mode} {keeps : υ → Set Handle} {lent known held : Set Handle}
    {post : α → Set Handle → Prop} {p : Program m υ α} (spans : List Span)
    (honest : p.Honest keeps lent post known held) :
    (p.under spans).Honest keeps lent post known held := by
  induction p generalizing known held with
  | done value => exact honest
  | panic payload => exact honest
  | exhausted may => trivial
  | user update next ih => exact fun u hu => ⟨(honest u hu).1, ih u (honest u hu).2⟩
  | request inner r next ih => exact ⟨honest.1, fun x fresh => ih x (honest.2 x fresh)⟩
  | pause may onDrop next ih => exact ⟨honest.1, fun more hmore => ih () (honest.2 more hmore)⟩
  | await may onDrop h next ih =>
      exact ⟨honest.1, honest.2.1, fun more s hmore => ih s (honest.2.2 more s hmore)⟩

/-- The outside world does what it may. -/
structure Act.Fair (keeps : υ → Set Handle) (act : Act υ) : Prop where
  lawful : Store.Lawful keeps act
  genuine : act.Genuine

/-- The state of user code keeps what was opened, and what is scheduled is genuine. -/
structure Store.Fair (keeps : υ → Set Handle) (st : Store υ) : Prop where
  sound : st.Sound keeps
  scheduled : st.SchedulesGenuine

structure Step.Fair (keeps : υ → Set Handle) (step : Step υ) : Prop where
  honest : step.Honest keeps
  genuine : step.Genuine

structure Entry.Fair (keeps : υ → Set Handle) (e : Entry υ) : Prop where
  step : e.step.Fair keeps
  store : e.store.Fair keeps
  acts : ∀ act ∈ e.acts, act.Fair keeps

variable {keeps : υ → Set Handle}

/-- An invocation leaves a fair store, and acts of those that were to come. -/
theorem Entry.Fair.left {e : Entry υ} (fair : e.Fair keeps) {config : Config} {last : Store υ}
    {s : Settlement} {left : List (Act υ)} (hended : e.course config = .ended last s left) :
    last.Fair keeps ∧ ∀ act ∈ left, act.Fair keeps := by
  have hhonest := (Step.honest_invoke fair.step.honest e.args config e.store.opened).under e.spans
  have habides := hhonest.course (fun act hact => (fair.acts act hact).lawful)
    (fair.store.sound.serves (Set.empty_subset _))
  have hasks := (fair.step.genuine.invoke e.args config).under e.spans
  have hscheduled := hasks.schedulesGenuine (fun act hact => (fair.acts act hact).genuine)
    fair.store.scheduled hended
  unfold Entry.course at hended
  rw [hended] at habides
  obtain ⟨hleft, known, hserves, -⟩ := habides
  exact ⟨⟨hserves.user.trans hserves.known, hscheduled⟩, fun act hact => fair.acts act (hleft hact)⟩

/-- Every invocation of a run finds a fair store. -/
theorem Plan.Invokes.fair {p : Plan υ α} (invokes : p.Invokes (·.Fair keeps)) (config : Config)
    {acts : List (Act υ)} (hacts : ∀ act ∈ acts, act.Fair keeps) {st : Store υ}
    (hst : st.Fair keeps) (r : ResultSet) : ∀ e ∈ (p.account config acts st r).entries, e.Fair keeps := by
  induction p generalizing acts st r with
  | done value => exact nofun
  | exhausted => exact nofun
  | report spans notice next ih =>
      have hreported : (st.report spans notice).Fair keeps := ⟨hst.sound, hst.scheduled⟩
      exact ih invokes hacts hreported r
  | results update next ih => exact ih r (invokes r) hacts hst (update r)
  | invoke spans step args next ih =>
      have hfair : Entry.Fair keeps ⟨⟨step, args⟩, spans, acts, st⟩ := ⟨invokes.1, hst, hacts⟩
      rw [account_invoke]
      cases hcourse : Entry.course config ⟨⟨step, args⟩, spans, acts, st⟩ with
      | ended mid s left =>
          obtain ⟨hmid, hleft⟩ := hfair.left hcourse
          exact List.forall_mem_cons.2 ⟨hfair, ih s (invokes.2 s) hleft hmid r⟩
      | unwound mid payload => exact List.forall_mem_singleton.2 hfair
      | pending mid rest => exact List.forall_mem_singleton.2 hfair
      | exhausted mid => exact List.forall_mem_singleton.2 hfair

/-! ## Origins of errors -/

/-- What is contained in a run is contained by itself. -/
theorem Course.Contained.of_beside {r : ρ} {c c' : Course υ (Except FlowError α)}
    (contained : (c.beside r).Contained (c'.beside r)) : c.Contained c' := by
  have hhalt (halt : Halt υ (Except FlowError α)) (hsame : (c'.beside r).halt = halt.beside r) :
      c'.halt = halt := by
    rw [Course.halt_beside] at hsame
    exact Halt.beside_injective r hsame
  cases c with
  | ended st s left =>
      have hsame := hhalt (.ended st s left) (by rw [contained]; rfl)
      cases c' <;> cases hsame
      rfl
  | pending st rest =>
      obtain ⟨program, onDrop⟩ := rest
      obtain ⟨program', hpending⟩ := contained
      have hsame := hhalt (.pending st onDrop) (by rw [hpending]; rfl)
      cases c' <;> cases hsame
      exact ⟨_, rfl⟩
  | exhausted st =>
      have hsame := hhalt (.exhausted st) (by rw [contained]; rfl)
      cases c' <;> cases hsame
      rfl
  | unwound st payload =>
      obtain ⟨st', left, hended, huser⟩ := contained
      cases c' <;> cases hended
      exact ⟨_, _, rfl, congrArg Prod.fst huser⟩

namespace Entry

/-- Where panics are caught, an invocation contains those of its step. -/
theorem Fair.contained {e : Entry υ} (fair : e.Fair keeps) (config : Config) :
    (e.course (config.catching false)).Contained (e.course (config.catching true)) := by
  have hbeside (catchPanics : Bool) :
      ((e.step.invoke e.args (config.catching catchPanics)).inside e.spans).course
        (e.acts.map Act.aside) (e.store.attach ()) =
          (e.course (config.catching catchPanics)).beside () := by
    rw [← Program.beside_under]
    exact Program.course_attach _ e.acts e.store ()
  have hsound : (e.store.attach ()).Sound fun u => keeps u.1 := fair.store.sound
  have hcontained := Step.contained_invoke config e.spans e.args fair.step.honest
    (e.acts.map Act.aside) hsound
  rw [hbeside, hbeside] at hcontained
  exact hcontained.of_beside

end Entry

/-! ## Runs -/

namespace Scene

/-- Nothing in the run makes up handles or errors of the engine. -/
structure Fair (keeps : υ → Set Handle) (S : Scene υ) : Prop where
  steps : ∀ step ∈ S.flow.sequence.steps, step.Fair keeps
  store : S.store.Fair keeps
  acts : ∀ act ∈ S.acts, act.Fair keeps

theorem Fair.entries {S : Scene υ} (fair : S.Fair keeps) : ∀ e ∈ S.entries, e.Fair keeps := by
  have hinvokes := ((S.flow.plan_invokes S.limit).mono fair.steps).under S.spans
  exact hinvokes.fair S.flow.config fair.acts fair.store S.flow.results

end Scene

end Stepwise
