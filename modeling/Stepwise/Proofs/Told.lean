import Stepwise.Outline
import Stepwise.Proofs.Dispatch
import Stepwise.Proofs.Reporting
/-!
# What the engine reports by itself

Of the marks of a plan some are what the engine reports by itself, which can so be told from what is
reported by the code that it calls.  Before an action it reports the label and the shape of that
action.
-/

namespace Stepwise

variable {υ α β : Type}

namespace Mark

/-- Of the events in which no invocation has a part, those that are kept are the engine's own. -/
theorem filter_reported {config : Config} {marks : List (Mark υ)} {keep : Event → Bool}
    (silent : ∀ entry ∈ marks.filterMap entry?, ∀ e ∈ entry.emitted config, keep e = false) :
    (marks.flatMap (reported config)).filter keep = (marks.filterMap event?).filter keep := by
  induction marks with
  | nil => rfl
  | cons mark marks ih =>
      rw [List.flatMap_cons, List.filter_append]
      cases mark with
      | said event =>
          rw [ih silent]
          exact (List.filter_append [event] (marks.filterMap event?)).symm
      | made entry =>
          obtain ⟨hentry, hrest⟩ := List.forall_mem_cons.1 silent
          have hnothing : (entry.emitted config).filter keep = [] :=
            List.filter_eq_nil_iff.2 fun e he => by simp [hentry e he]
          rw [ih hrest, reported, hnothing]
          rfl

end Mark

namespace Plan

/-- What the engine reports by itself while a plan is carried out. -/
def told (config : Config) (p : Plan υ α) (acts : List (Act υ)) (st : Store υ) (r : ResultSet) :
    List Event :=
  (p.marks config acts st r).filterMap Mark.event?

section

variable (config : Config) (acts : List (Act υ)) (st : Store υ) (r : ResultSet)

@[simp] theorem told_done (value : α) : (done value : Plan υ α).told config acts st r = [] := rfl

@[simp] theorem told_report (spans : List Span) (notice : Notice) (next : Plan υ α) :
    (report spans notice next).told config acts st r =
      ⟨notice, spans⟩ :: next.told config acts (st.report spans notice) r := rfl

theorem told_invoke (spans : List Span) (step : Step υ) (args : Values)
    (next : Settlement → Plan υ α) :
    (invoke spans step args next).told config acts st r =
      match Entry.course config ⟨⟨step, args⟩, spans, acts, st⟩ with
      | .ended mid s left => (next s).told config left mid r
      | _ => [] := by
  simp only [told, marks]
  cases Entry.course config ⟨⟨step, args⟩, spans, acts, st⟩ <;> rfl

theorem told_bind (p : Plan υ α) (f : α → Plan υ β) :
    (p.bind f).told config acts st r = p.told config acts st r ++
      match (p.account config acts st r).halt with
      | .ended mid value left => (f value).told config left mid (p.account config acts st r).results
      | _ => [] := by
  rw [told, marks_bind, List.filterMap_append]
  cases (p.account config acts st r).halt <;> rfl

/-- To change the value of a plan reports nothing. -/
theorem told_map (p : Plan υ α) (f : α → β) :
    (p.bind fun a => done (f a)).told config acts st r = p.told config acts st r := by
  rw [told_bind]
  cases (p.account config acts st r).halt <;> exact List.append_nil _

theorem told_announced (notices : List Notice) (p : Plan υ α) (spans : List Span) :
    ((notices.foldr (report []) p).under spans).told config acts st r =
      notices.map (⟨·, spans⟩) ++
        (p.under spans).told config acts (notices.foldl (·.report spans) st) r := by
  induction notices generalizing st with
  | nil => rfl
  | cons notice notices ih =>
      simp only [List.foldr, under, told_report, List.append_nil, ih]
      rfl

/-- What the engine itself reports is a part of what is reported. -/
theorem mem_emitted_of_mem_told {p : Plan υ α} {e : Event} (hmem : e ∈ p.told config acts st r) :
    e ∈ p.emitted config acts st r := by
  obtain ⟨mark, hmark, hevent⟩ := List.mem_filterMap.1 hmem
  rw [emitted_eq_flatMap_marks]
  refine List.mem_flatMap.2 ⟨mark, hmark, ?_⟩
  cases mark with
  | said event =>
      cases hevent
      exact List.mem_singleton_self e
  | made entry => cases hevent

end

theorem Tells.of_mem_told {allowed : Notice → Prop} {p : Plan υ α} (tells : p.Tells allowed)
    {config : Config} {spans : List Span} {acts : List (Act υ)} {st : Store υ} {r : ResultSet} {e : Event}
    (hmem : e ∈ (p.under spans).told config acts st r) : e.spans = spans ∧ allowed e.notice := by
  induction p generalizing acts st r with
  | done value => cases hmem
  | exhausted => cases hmem
  | report inner notice next ih =>
      obtain ⟨rfl, hallowed, hnext⟩ := tells
      rcases List.mem_cons.1 hmem with rfl | hmem
      · exact ⟨List.append_nil spans, hallowed⟩
      · exact ih hnext hmem
  | results update next ih => exact ih r (tells r) hmem
  | invoke inner step args next ih =>
      rw [under, told_invoke] at hmem
      split at hmem
      · exact ih _ (tells.2 _) hmem
      · cases hmem

end Plan

/-! ## Actions and turns -/

/-- The notice of an action of this outline. -/
def StepOutline.announcement (position : Nat) (step : StepOutline) : Notice :=
  .runningAction position step.label step.shape

/-- The notices of actions of these outlines, which are numbered from zero. -/
def announcing (steps : List StepOutline) : List Notice := steps.mapIdx StepOutline.announcement

/-- An action without a label is shown as anonymous. -/
@[simp] theorem StepOutline.fields_announcement (position : Nat) (step : StepOutline) :
    (step.announcement position).fields = [("action", .number position),
      ("label", .text (step.label.getD "anonymous")), ("shape", .text step.shape.word)] := rfl

def Entry.outline (e : Entry υ) : StepOutline := e.step.outline

/-- Every action that is invoked is announced. -/
theorem told_actionsPlan (config : Config) (position : Nat) (actions : List (Step υ))
    (carried : Values) (spans : List Span) (acts : List (Act υ)) (st : Store υ) (r : ResultSet) :
    let p := (actionsPlan position actions carried).under spans
    (p.told config acts st r).map Event.notice =
      ((p.account config acts st r).entries.map Entry.outline).mapIdx fun later step =>
        step.announcement (position + later) := by
  induction actions generalizing position carried acts st with
  | nil => rfl
  | cons action rest ih =>
      simp only [actionsPlan, Plan.under, List.append_nil, Plan.told_report, Plan.told_invoke,
        List.map_cons]
      change _ = (((Plan.invoke spans action carried _).account config acts _ r).entries.map
        Entry.outline).mapIdx _
      rw [Plan.account_invoke]
      cases Entry.course config ⟨⟨action, carried⟩, spans, acts, _⟩ with
      | ended mid s left =>
          cases s with
          | error e => rfl
          | ok output =>
              have hrest := ih (position + 1) output left mid
              simp only [Nat.add_right_comm position 1] at hrest
              simp only [List.map_cons, List.mapIdx_cons]
              exact congrArg (_ :: ·) hrest
      | unwound mid payload => rfl
      | pending mid part => rfl
      | exhausted mid => rfl

/-- Without actions nothing is announced. -/
theorem told_slotPlan (config : Config) (actions : List (Step υ)) (input : Values)
    (spans : List Span) (acts : List (Act υ)) (st : Store υ) (r : ResultSet) :
    let p := (slotPlan actions input).under spans
    (p.told config acts st r).map Event.notice =
      announcing ((p.account config acts st r).entries.map Entry.outline) := by
  cases actions with
  | nil => rfl
  | cons action rest =>
      have htold := told_actionsPlan config 0 (action :: rest) input spans acts st r
      simp only [Nat.zero_add] at htold
      exact htold

namespace Slot

variable {config : Config} {notices : List Notice} {branch : Nat} {spans : List Span}
  {slot : Slot υ} {acts : List (Act υ)} {st : Store υ} {r : ResultSet}

/-- In a turn whose predicate holds the notices of the turn come first. -/
theorem told_plan_of_holds
    (holds : (slot.turn config notices branch spans acts st).check.Judges config true) :
    (((slot.plan notices).under spans).told config acts st r).map Event.notice =
      notices ++ announcing
        ((slot.turn config notices branch spans acts st).actions.map Entry.outline) := by
  obtain ⟨verdict, houtcome, htruthy⟩ := holds
  obtain ⟨mid, left, hhalt⟩ := Halt.ended_of_outcome? houtcome
  have ended : Entry.course config ⟨slot.check, spans, acts, st⟩ = .ended mid (.ok verdict) left :=
    Course.ended_of_halt hhalt
  have hcourse : Entry.course config ⟨⟨slot.predicate, .empty⟩, spans, acts, st⟩ =
      .ended mid (.ok verdict) left := ended
  have hpass := told_slotPlan config slot.actions .empty spans left
    (notices.foldl (·.report spans) mid) r
  dsimp only at hpass
  rw [((slotPlan_strict slot.actions .empty).under spans).account] at hpass
  rw [turn_of_truthy config notices branch spans slot acts st ended htruthy]
  simp only [plan, Plan.under, List.append_nil, Plan.told_invoke, hcourse, if_pos htruthy,
    Plan.told_announced, Plan.under_bind, List.map_append, List.map_map]
  have hnotices : notices.map (Event.notice ∘ (⟨·, spans⟩)) = notices := List.map_id notices
  have hmap := Plan.told_map config left (notices.foldl (·.report spans) mid) r
    ((slotPlan slot.actions .empty).under spans) (Except.map some)
  rw [hnotices, hmap, hpass]
  rfl

/-- In another turn nothing is reported. -/
theorem told_plan_of_not_holds
    (fails : ¬(slot.turn config notices branch spans acts st).check.Judges config true) :
    ((slot.plan notices).under spans).told config acts st r = [] := by
  simp only [plan, Plan.under, List.append_nil, Plan.told_invoke]
  split
  · rename_i mid s left hcourse
    cases s with
    | error e => rfl
    | ok verdict =>
        have hverdict := Entry.judges_of_course hcourse
        dsimp only
        split
        · rename_i htruthy
          rw [htruthy] at hverdict
          exact absurd hverdict fails
        · rfl
  · rfl

end Slot

end Stepwise
