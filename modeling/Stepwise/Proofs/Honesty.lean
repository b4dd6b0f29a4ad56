import Mathlib.Order.BooleanAlgebra.Set
import Stepwise.Proofs.Plan
/-!
# Honest programs

A handle is a plain value here, so a program could make one up and complete a channel that it was
never given, or let go of a waiting end that is not its own.  An honest program does neither.  It
completes through handles that it was given, opened itself, or found in the state of user code, and
it waits on and lets go of the waiting ends it holds, all of which go away with it.  What the engine
makes of honest steps is honest.
-/

namespace Stepwise

variable {m : Mode} {υ ρ α β : Type}

namespace Request

/-- Whether a request uses only handles that are known and waiting ends that are held. -/
def Permitted (known held : Set Handle) : Request → Prop
  | settle handle _ | discard handle | isWaiting handle | defer handle _ => handle ∈ known
  | deafen handle => handle ∈ held
  | openChannel | report _ => True

/-- A channel that is opened is not one held before. -/
def Fresh (held : Set Handle) : (r : Request) → r.Reply → Prop
  | openChannel, handle => handle ∉ held
  | _, _ => True

/-- The handles known after a reply. -/
def learn (known : Set Handle) : (r : Request) → r.Reply → Set Handle
  | openChannel, handle => insert handle known
  | _, _ => known

/-- The waiting ends held after a reply. -/
def keep (held : Set Handle) : (r : Request) → r.Reply → Set Handle
  | openChannel, handle => insert handle held
  | deafen handle, _ => held \ {handle}
  | _, _ => held

theorem subset_learn (known : Set Handle) (r : Request) (x : r.Reply) : known ⊆ r.learn known x := by
  cases r with
  | openChannel => exact Set.subset_insert _ _
  | _ => exact Set.Subset.refl _

end Request

namespace Program

/--
Honesty of a program that knows some handles and holds some waiting ends.  The state of user code
keeps the handles `keeps` says; waiting ends that are `lent` may be waited on, but somebody else lets
go of them.  While a program is suspended more handles may become known.  At its end a program holds
nothing, and what it returns satisfies `post` together with the handles known then.
-/
def Honest (keeps : υ → Set Handle) (lent : Set Handle) (post : α → Set Handle → Prop) :
    Program m υ α → Set Handle → Set Handle → Prop
  | done value, known, held => held = ∅ ∧ post value known
  | panic _, _, held => held = ∅
  | exhausted _, _, _ => True
  | user update next, known, held =>
      ∀ u, keeps u ⊆ known → keeps (update u) ⊆ known ∧ (next u).Honest keeps lent post known held
  | request _ r next, known, held =>
      r.Permitted known held ∧ ∀ x, r.Fresh held x →
        (next x).Honest keeps lent post (r.learn known x) (r.keep held x)
  | pause _ onDrop next, known, held =>
      (∀ h, h ∈ onDrop ↔ h ∈ held) ∧
        ∀ more, known ⊆ more → (next ()).Honest keeps lent post more held
  | await _ onDrop handle next, known, held =>
      (∀ h, h ∈ onDrop ↔ h ∈ held) ∧ handle ∈ held ∪ lent ∧
        ∀ more s, known ⊆ more → (next s).Honest keeps lent post more held

variable {keeps : υ → Set Handle} {lent known held : Set Handle} {post : α → Set Handle → Prop}
  {after : β → Set Handle → Prop}

theorem Honest.bind {p : Program m υ α} {f : α → Program m υ β}
    (honest : p.Honest keeps lent post known held)
    (rest : ∀ a more, known ⊆ more → post a more → (f a).Honest keeps lent after more ∅) :
    (p.bind f).Honest keeps lent after known held := by
  induction p generalizing known held with
  | done value =>
      obtain ⟨rfl, hpost⟩ := honest
      exact rest value known (Set.Subset.refl _) hpost
  | panic payload => exact honest
  | exhausted may => trivial
  | user update next ih =>
      intro u hu
      exact ⟨(honest u hu).1, ih u (honest u hu).2 rest⟩
  | request spans r next ih =>
      refine ⟨honest.1, fun x fresh => ih x (honest.2 x fresh) fun a more hmore => ?_⟩
      exact rest a more ((r.subset_learn known x).trans hmore)
  | pause may onDrop next ih =>
      refine ⟨honest.1, fun more hmore => ih () (honest.2 more hmore) fun a last hlast => ?_⟩
      exact rest a last (hmore.trans hlast)
  | await may onDrop handle next ih =>
      refine ⟨honest.1, honest.2.1, fun more s hmore =>
        ih s (honest.2.2 more s hmore) fun a last hlast => ?_⟩
      exact rest a last (hmore.trans hlast)

/-- What a program may wait on may also be lent to it when it does not use it. -/
theorem Honest.lend {p : Program m υ α} {more : Set Handle} (hlent : lent ⊆ more)
    (honest : p.Honest keeps lent post known held) : p.Honest keeps more post known held := by
  induction p generalizing known held with
  | done value => exact honest
  | panic payload => exact honest
  | exhausted may => trivial
  | user update next ih =>
      intro u hu
      exact ⟨(honest u hu).1, ih u (honest u hu).2⟩
  | request spans r next ih =>
      exact ⟨honest.1, fun x fresh => ih x (honest.2 x fresh)⟩
  | pause may onDrop next ih =>
      exact ⟨honest.1, fun last hlast => ih () (honest.2 last hlast)⟩
  | await may onDrop handle next ih =>
      refine ⟨honest.1, Set.union_subset_union_right held hlent honest.2.1, fun last s hlast => ?_⟩
      exact ih s (honest.2.2 last s hlast)

theorem Honest.caught {p : Program m υ α} (honest : p.Honest keeps lent post known held) :
    p.caught.Honest keeps lent (fun r more => ∀ a, r = .ok a → post a more) known held := by
  induction p generalizing known held with
  | done value =>
      refine ⟨honest.1, fun a ha => ?_⟩
      cases ha
      exact honest.2
  | panic payload => exact ⟨honest, fun a ha => by cases ha⟩
  | exhausted may => trivial
  | user update next ih =>
      intro u hu
      exact ⟨(honest u hu).1, ih u (honest u hu).2⟩
  | request spans r next ih => exact ⟨honest.1, fun x fresh => ih x (honest.2 x fresh)⟩
  | pause may onDrop next ih => exact ⟨honest.1, fun more hmore => ih () (honest.2 more hmore)⟩
  | await may onDrop handle next ih =>
      exact ⟨honest.1, honest.2.1, fun more s hmore => ih s (honest.2.2 more s hmore)⟩

theorem Honest.onPanic {p : Program m υ α} {handle : Handle} (hknown : handle ∈ known)
    (honest : p.Honest keeps lent post known held) :
    (p.onPanic (.discard handle)).Honest keeps lent post known held := by
  induction p generalizing known held with
  | done value => exact honest
  | panic payload => exact ⟨hknown, fun _ _ => honest⟩
  | exhausted may => trivial
  | user update next ih =>
      intro u hu
      exact ⟨(honest u hu).1, ih u hknown (honest u hu).2⟩
  | request spans r next ih =>
      exact ⟨honest.1, fun x fresh => ih x (r.subset_learn known x hknown) (honest.2 x fresh)⟩
  | pause may onDrop next ih =>
      exact ⟨honest.1, fun more hmore => ih () (hmore hknown) (honest.2 more hmore)⟩
  | await may onDrop handle next ih =>
      exact ⟨honest.1, honest.2.1, fun more s hmore => ih s (hmore hknown) (honest.2.2 more s hmore)⟩

/-- A program may wait on a channel whose waiting end is dropped at its end. -/
theorem Honest.closing {p : Program m υ α} {handle : Handle} (hfree : handle ∉ held)
    (honest : p.Honest keeps (insert handle lent) post known held) :
    (p.closing handle).Honest keeps lent post known (insert handle held) := by
  have hdrop {onDrop : List Handle} {set : Set Handle} (hall : ∀ h, h ∈ onDrop ↔ h ∈ set) :
      ∀ h, h ∈ onDrop ++ [handle] ↔ h ∈ insert handle set := by
    intro h
    rw [List.mem_append, List.mem_singleton, hall, Set.mem_insert_iff, or_comm]
  have hlast : insert handle (∅ : Set Handle) \ {handle} = ∅ := by
    rw [insert_empty_eq, sdiff_self]
    rfl
  induction p generalizing known held with
  | done value =>
      obtain ⟨rfl, hpost⟩ := honest
      exact ⟨Set.mem_insert _ _, fun _ _ => ⟨hlast, hpost⟩⟩
  | panic payload =>
      obtain rfl : held = ∅ := honest
      exact ⟨Set.mem_insert _ _, fun _ _ => hlast⟩
  | exhausted may => trivial
  | user update next ih =>
      intro u hu
      exact ⟨(honest u hu).1, ih u hfree (honest u hu).2⟩
  | request spans r next ih =>
      cases r with
      | openChannel =>
          refine ⟨trivial, fun x fresh => ?_⟩
          have hx : x ≠ handle := fun h => fresh (h ▸ Set.mem_insert _ _)
          have hxheld : x ∉ held := fun h => fresh (Set.mem_insert_of_mem _ h)
          have hfree' : handle ∉ insert x held := by
            rintro (h | h)
            · exact hx h.symm
            · exact hfree h
          have := ih x hfree' (honest.2 x hxheld)
          rwa [Set.insert_comm] at this
      | deafen other =>
          have hother : other ∈ held := honest.1
          have hne : handle ≠ other := fun h => hfree (h ▸ hother)
          refine ⟨Set.mem_insert_of_mem _ hother, fun x fresh => ?_⟩
          have := ih x (fun h => hfree h.1) (honest.2 x trivial)
          simp only [Request.keep] at this ⊢
          rwa [← Set.insert_sdiff_singleton_comm hne]
      | settle other s => exact ⟨honest.1, fun x _ => ih x hfree (honest.2 x trivial)⟩
      | discard other => exact ⟨honest.1, fun x _ => ih x hfree (honest.2 x trivial)⟩
      | isWaiting other => exact ⟨honest.1, fun x _ => ih x hfree (honest.2 x trivial)⟩
      | defer other s => exact ⟨honest.1, fun x _ => ih x hfree (honest.2 x trivial)⟩
      | report notice => exact ⟨trivial, fun x _ => ih x hfree (honest.2 x trivial)⟩
  | pause may onDrop next ih =>
      exact ⟨hdrop honest.1, fun more hmore => ih () hfree (honest.2 more hmore)⟩
  | await may onDrop other next ih =>
      refine ⟨hdrop honest.1, ?_, fun more s hmore => ih s hfree (honest.2.2 more s hmore)⟩
      rcases honest.2.1 with h | h | h
      · exact .inl (.inr h)
      · exact .inl (.inl h)
      · exact .inr h

/-- A second component of the state keeps no handles. -/
theorem Honest.inside {p : Program m υ α} (spans : List Span)
    (honest : p.Honest keeps lent post known held) :
    (p.inside spans : Program m (υ × ρ) α).Honest (fun u => keeps u.1) lent post known held := by
  induction p generalizing known held with
  | done value => exact honest
  | panic payload => exact honest
  | exhausted may => trivial
  | user update next ih =>
      intro u hu
      exact ⟨(honest u.1 hu).1, ih u.1 (honest u.1 hu).2⟩
  | request inner r next ih => exact ⟨honest.1, fun x fresh => ih x (honest.2 x fresh)⟩
  | pause may onDrop next ih => exact ⟨honest.1, fun more hmore => ih () (honest.2 more hmore)⟩
  | await may onDrop handle next ih =>
      exact ⟨honest.1, honest.2.1, fun more s hmore => ih s (honest.2.2 more s hmore)⟩

/-- A component of state of its own keeps no handles. -/
theorem Honest.withLocal {p : Program m (υ × ρ) α}
    (honest : p.Honest (fun u => keeps u.1) lent post known held) (r : ρ) :
    (p.withLocal r).Honest keeps lent (fun x more => post x.1 more) known held := by
  induction p generalizing known held r with
  | done value => exact honest
  | panic payload => exact honest
  | exhausted may => trivial
  | user update next ih =>
      intro u hu
      obtain ⟨hkeeps, hnext⟩ := honest (u, r) hu
      exact ⟨hkeeps, ih (u, r) hnext _⟩
  | request spans q next ih => exact ⟨honest.1, fun x fresh => ih x (honest.2 x fresh) r⟩
  | pause may onDrop next ih => exact ⟨honest.1, fun more hmore => ih () (honest.2 more hmore) r⟩
  | await may onDrop handle next ih =>
      exact ⟨honest.1, honest.2.1, fun more s hmore => ih s (honest.2.2 more s hmore) r⟩

theorem Honest.relax {p : Direct υ α} (honest : p.Honest keeps lent post known held) :
    (p.relax : Program m υ α).Honest keeps lent post known held := by
  induction p generalizing known held with
  | done value => exact honest
  | panic payload => exact honest
  | exhausted may => cases may
  | user update next ih =>
      intro u hu
      exact ⟨(honest u hu).1, ih u (honest u hu).2⟩
  | request spans r next ih => exact ⟨honest.1, fun x fresh => ih x (honest.2 x fresh)⟩
  | pause may => cases may
  | await may => cases may

end Program

/-! ## Honest steps -/

/-- No condition on what a program returns. -/
def anything {α : Type} : α → Set Handle → Prop := fun _ _ => True

/-- A step is honest if its code is, on whatever is known when it is invoked.  A callback knows its
own continuation besides; a future step may tell its task what it knows. -/
def Step.Honest (keeps : υ → Set Handle) (step : Step υ) : Prop :=
  match step.invoker with
  | .sync body => ∀ args known, (body args).Honest keeps ∅ anything known ∅
  | .callback body =>
      ∀ args done known, done ∈ known → (body args done).Honest keeps ∅ anything known ∅
  | .future start =>
      ∀ args known, (start args).Honest keeps ∅
        (fun task more => task.Honest keeps ∅ anything more ∅) known ∅

variable {keeps : υ → Set Handle} {lent known held : Set Handle} {post : α → Set Handle → Prop}

theorem Config.honest_guarded (config : Config) {p : Program m υ α}
    (honest : p.Honest keeps lent post known held) :
    (config.guarded p).Honest keeps lent (fun r more => ∀ a, r = .ok a → post a more) known
      held := by
  have hok (a : α) (more : Set Handle) (hpost : post a more) :
      (Program.done (.ok a) : Program m υ (Except FlowError α)).Honest keeps lent
        (fun r more => ∀ a, r = .ok a → post a more) more ∅ := by
    refine ⟨rfl, fun b hb => ?_⟩
    cases hb
    exact hpost
  unfold Config.guarded
  split
  · refine honest.caught.bind fun r more _ hr => ?_
    cases r with
    | ok a => exact hok a more (hr a rfl)
    | error payload => exact ⟨rfl, fun a ha => by cases ha⟩
  · exact honest.bind fun a more _ hpost => hok a more hpost

namespace Step

theorem honest_call (config : Config) {step : Step υ} (honest : step.Honest keeps) (args : Values)
    {done : Handle} (hdone : done ∈ known) :
    (step.call args done config).Honest keeps ∅
      (fun task more => ∀ p, task = some p → p.Honest keeps ∅ anything more ∅) known ∅ := by
  obtain ⟨invoker, label⟩ := step
  cases invoker with
  | sync body =>
      have hbody : (body args).Honest keeps ∅ anything known ∅ := honest args known
      refine ((config.honest_guarded hbody).onPanic hdone).bind fun result more hmore _ => ?_
      exact ⟨hmore hdone, fun _ _ => ⟨rfl, fun p hp => by cases hp⟩⟩
  | callback body =>
      have hbody : (body args done).Honest keeps ∅ anything known ∅ := honest args done known hdone
      refine (config.honest_guarded hbody).bind fun result more _ _ => ?_
      cases result with
      | ok value => exact ⟨rfl, fun p hp => by cases hp⟩
      | error e =>
          refine ⟨rfl, fun p hp => ?_⟩
          cases hp
          exact ⟨rfl, trivial⟩
  | future start =>
      have hstart : (start args).Honest keeps ∅
          (fun task more => task.Honest keeps ∅ anything more ∅) known ∅ := honest args known
      refine ⟨hdone, fun _ _ => ?_⟩
      refine (config.honest_guarded hstart).bind fun result more _ hresult => ?_
      cases result with
      | ok task =>
          refine ⟨rfl, fun p hp => ?_⟩
          cases hp
          exact (hresult task rfl).bind fun _ _ _ _ => ⟨rfl, trivial⟩
      | error e =>
          refine ⟨rfl, fun p hp => ?_⟩
          cases hp
          exact ⟨rfl, trivial⟩

theorem honest_outcome (config : Config) {done : Handle}
    {task : Option (Suspending υ Settlement)}
    (honest : ∀ p, task = some p → p.Honest keeps ∅ anything known ∅) :
    (outcome done config task).Honest keeps (insert done ∅) anything known ∅ := by
  cases task with
  | none =>
      refine ⟨fun h => by simp, .inr (Set.mem_insert _ _), fun more s _ => ⟨rfl, trivial⟩⟩
  | some p =>
      have hguarded := (config.honest_guarded (honest p rfl)).lend (Set.empty_subset (insert done ∅))
      exact hguarded.bind fun _ _ _ _ => ⟨rfl, trivial⟩

/-- An invocation holds the waiting end of its channel for as long as it takes. -/
theorem honest_invoke {step : Step υ} (honest : step.Honest keeps) (args : Values) (config : Config)
    (known : Set Handle) : (step.invoke args config).Honest keeps ∅ anything known ∅ := by
  refine ⟨trivial, fun done _ => ?_⟩
  apply Program.Honest.closing (Set.notMem_empty done)
  have hcall := (honest_call config honest args (Set.mem_insert done known)).relax (m := .suspending)
  apply (hcall.lend (Set.empty_subset (insert done ∅))).bind
  intro task more _ htask
  exact honest_outcome config htask

end Step

/-! ## Honest flows -/

theorem Plan.Invokes.honest {p : Plan υ α} (invokes : p.Invokes (·.Honest keeps)) (config : Config)
    (known : Set Handle) :
    (p.toProgram config).Honest (fun u => keeps u.1) ∅ anything known ∅ := by
  induction p generalizing known with
  | done value => exact ⟨rfl, trivial⟩
  | exhausted => trivial
  | report spans notice next ih => exact ⟨trivial, fun _ _ => ih invokes known⟩
  | results update next ih => exact fun u hu => ⟨hu, ih u.2 (invokes u.2) known⟩
  | invoke spans step args next ih =>
      apply ((Step.honest_invoke invokes.1 args config known).inside spans).bind
      intro s more _ _
      exact ih s (invokes.2 s) more

namespace Flow

/-- The steps and the resolvers of a flow are honest. -/
structure Honest (keeps : υ → Set Handle) (flow : Flow υ) : Prop where
  steps : ∀ step ∈ flow.sequence.steps, step.Honest keeps
  resolvers : ∀ resolver ∈ flow.resolvers, ∀ completion known,
    (resolver completion).Honest keeps ∅ anything known ∅

theorem honest_notify {resolvers : List (Resolver υ)} (completion : Completion)
    (honest : ∀ resolver ∈ resolvers, ∀ known,
      (resolver completion).Honest keeps ∅ anything known ∅) (known : Set Handle) :
    (notify completion resolvers).Honest keeps ∅ anything known ∅ := by
  induction resolvers generalizing known with
  | nil => exact ⟨rfl, trivial⟩
  | cons resolver rest ih =>
      apply (honest resolver List.mem_cons_self known).bind
      intro _ more _ _
      exact ih (fun other hother => honest other (List.mem_cons_of_mem _ hother)) more

theorem Honest.plan {flow : Flow υ} (honest : flow.Honest keeps) (limit : Nat)
    (known : Set Handle) :
    ((flow.plan limit).toProgram flow.config).Honest (fun u => keeps u.1) ∅ anything known ∅ :=
  ((flow.plan_invokes limit).mono honest.steps).honest flow.config known

theorem Honest.told {flow : Flow υ} (honest : flow.Honest keeps) (completion : Completion)
    (known : Set Handle) :
    ((notify completion flow.resolvers).relax.beside : Suspending (υ × ResultSet) Unit).Honest
      (fun u => keeps u.1) ∅ anything known ∅ := by
  rw [Program.beside_eq_inside]
  have hnotify := honest_notify completion
    (fun resolver hresolver known => honest.resolvers resolver hresolver completion known) known
  exact hnotify.relax.inside []

/-- What the engine makes of honest steps and resolvers is honest. -/
theorem Honest.exec {flow : Flow υ} (honest : flow.Honest keeps) (limit : Nat)
    (known : Set Handle) :
    (flow.exec limit).Honest (fun u => keeps u.1) ∅ anything known ∅ := by
  rw [Flow.exec_eq_plan]
  apply (honest.plan limit known).bind
  intro completion more _ _
  apply (honest.told completion more).bind
  intro _ _ _ _
  exact ⟨rfl, trivial⟩

end Flow

end Stepwise
