import Stepwise.Proofs.Plan
/-!
# Flows with other steps

Where the steps of a flow are replaced by others of the same label and shape, the flow is declared
by the same clauses, and its plan is the same with the other steps.
-/

namespace Stepwise

variable {υ υ' α β : Type}

namespace Plan

/-- The same plan with other steps. -/
def mapSteps (f : Step υ → Step υ') : Plan υ α → Plan υ' α
  | done value => done value
  | exhausted => exhausted
  | report spans notice next => report spans notice (next.mapSteps f)
  | results update next => results update fun r => (next r).mapSteps f
  | invoke spans step args next => invoke spans (f step) args fun s => (next s).mapSteps f

theorem mapSteps_id (p : Plan υ α) : p.mapSteps id = p := by
  induction p with
  | done => rfl
  | exhausted => rfl
  | report spans notice next ih => exact congrArg (report spans notice) ih
  | results update next ih => exact congrArg (results update) (funext ih)
  | invoke spans step args next ih => exact congrArg (invoke spans step args) (funext ih)

theorem mapSteps_bind (f : Step υ → Step υ') (p : Plan υ α) (g : α → Plan υ β) :
    (p.bind g).mapSteps f = (p.mapSteps f).bind fun a => (g a).mapSteps f := by
  induction p with
  | done => rfl
  | exhausted => rfl
  | report spans notice next ih => exact congrArg (report spans notice) ih
  | results update next ih => exact congrArg (results update) (funext ih)
  | invoke spans step args next ih => exact congrArg (invoke spans (f step) args) (funext ih)

theorem mapSteps_within (f : Step υ → Step υ') (span : Span) (p : Plan υ α) :
    (p.within span).mapSteps f = (p.mapSteps f).within span := by
  induction p with
  | done => rfl
  | exhausted => rfl
  | report spans notice next ih => exact congrArg (report (span :: spans) notice) ih
  | results update next ih => exact congrArg (results update) (funext ih)
  | invoke spans step args next ih =>
      exact congrArg (invoke (span :: spans) (f step) args) (funext ih)

end Plan

/-! ## Declarations -/

def Slot.mapSteps (f : Step υ → Step υ') (slot : Slot υ) : Slot υ' where
  predicate := f slot.predicate
  actions := slot.actions.map f

def Item.mapSteps (f : Step υ → Step υ') (item : Item υ) : Item υ' where
  kind := item.kind
  slots := item.slots.map (.mapSteps f)
  closed := item.closed

def Sequence.mapSteps (f : Step υ → Step υ') (s : Sequence υ) : Sequence υ' where
  items := s.items.map (.mapSteps f)

def Clause.mapSteps (f : Step υ → Step υ') : Clause υ → Clause υ'
  | chain initial => chain initial
  | condition predicate => condition (f predicate)
  | loop predicate => loop (f predicate)
  | elseIf predicate => elseIf (f predicate)
  | otherwise action => otherwise (f action)
  | andThen action => andThen (f action)

/-- Steps are replaced by steps of the same label and shape, and those of the engine stay. -/
structure StepMap (υ υ' : Type) where
  map : Step υ → Step υ'
  label : ∀ step, (map step).label = step.label
  shape : ∀ step, (map step).shape = step.shape
  always : map .always = .always
  constant : ∀ values, map (.constant values) = .constant values

variable (f : StepMap υ υ')

namespace Item

theorem mapSteps_addSlot (item : Item υ) (clause : Attachment) (slot : Slot υ) :
    (item.mapSteps f.map).addSlot clause (slot.mapSteps f.map) =
      (item.addSlot clause slot).map (mapSteps f.map) := by
  unfold addSlot mapSteps
  dsimp only
  split
  · rfl
  · split
    · rfl
    · simp only [Except.map, List.map_append, List.map_singleton]

theorem mapSteps_compose (item : Item υ) (action : Step υ) :
    (item.mapSteps f.map).compose (f.map action) =
      (item.compose action).map (mapSteps f.map) := by
  unfold compose mapSteps
  dsimp only
  rw [List.getLast?_map]
  cases item.slots.getLast? with
  | none => rfl
  | some slot =>
      simp only [Option.map_some, Except.map, List.map_append, List.map_singleton,
        List.map_dropLast]
      simp only [Slot.compose, Slot.mapSteps, List.map_append, List.map_singleton]

end Item

namespace Sequence

theorem mapSteps_updateLast (s : Sequence υ) (clause : Attachment)
    {update : Item υ → Except BuildError (Item υ)} {update' : Item υ' → Except BuildError (Item υ')}
    (same : ∀ item, update' (item.mapSteps f.map) = (update item).map (Item.mapSteps f.map)) :
    (s.mapSteps f.map).updateLast clause update' =
      (s.updateLast clause update).map (mapSteps f.map) := by
  unfold updateLast mapSteps
  dsimp only
  rw [List.getLast?_map]
  cases s.items.getLast? with
  | none => rfl
  | some item =>
      simp only [Option.map_some, same]
      cases update item with
      | error e => rfl
      | ok item' =>
          simp only [Except.map, List.map_append, List.map_singleton, List.map_dropLast]

/-- The same clauses declare the same sequence with the other steps. -/
theorem mapSteps_declare (s : Sequence υ) (clause : Clause υ) :
    (s.mapSteps f.map).declare (clause.mapSteps f.map) =
      (s.declare clause).map (mapSteps f.map) := by
  have hpush (item : Item υ) :
      (s.mapSteps f.map).push (item.mapSteps f.map) = (s.push item).mapSteps f.map := by
    simp only [push, mapSteps, List.map_append, List.map_singleton]
  have hotherwise (action : Step υ) :
      Slot.otherwise (f.map action) = (Slot.otherwise action).mapSteps f.map := by
    simp only [Slot.otherwise, Slot.mapSteps, f.always, List.map_singleton]
  cases clause with
  | chain initial =>
      have hitem : Item.chain initial = (Item.chain initial).mapSteps f.map := by
        simp only [Item.chain, Item.mapSteps, List.map_singleton, ← hotherwise, f.constant]
      simp only [Clause.mapSteps, declare, Except.map]
      rw [hitem, hpush]
  | condition predicate => exact congrArg Except.ok (hpush (.condition predicate))
  | loop predicate => exact congrArg Except.ok (hpush (.loop predicate))
  | elseIf predicate =>
      exact s.mapSteps_updateLast f .elseIf fun item =>
        item.mapSteps_addSlot f .elseIf { predicate }
  | otherwise action =>
      refine s.mapSteps_updateLast f .otherwise fun item => ?_
      rw [hotherwise, item.mapSteps_addSlot f]
      cases item.addSlot .otherwise (.otherwise action) with
      | error e => rfl
      | ok item' => rfl
  | andThen action =>
      exact s.mapSteps_updateLast f .andThen fun item => item.mapSteps_compose f action

end Sequence

/-! ## Plans -/

theorem mapSteps_actionsPlan (position : Nat) (actions : List (Step υ)) (carried : Values) :
    (actionsPlan position actions carried).mapSteps f.map =
      actionsPlan position (actions.map f.map) carried := by
  induction actions generalizing position carried with
  | nil => rfl
  | cons action rest ih =>
      rw [List.map_cons, actionsPlan, actionsPlan, f.label, f.shape]
      refine congrArg (Plan.report [] _) ?_
      refine congrArg (Plan.invoke [] (f.map action) carried) (funext fun s => ?_)
      cases s with
      | error e => rfl
      | ok output => exact ih (position + 1) output

theorem mapSteps_slotPlan (actions : List (Step υ)) (input : Values) :
    (slotPlan actions input).mapSteps f.map = slotPlan (actions.map f.map) input := by
  unfold slotPlan
  rw [List.isEmpty_map]
  split
  · rfl
  · exact mapSteps_actionsPlan f 0 actions input

namespace Item

theorem mapSteps_evaluatePlan (branch : Nat) (slots : List (Slot υ)) :
    (evaluatePlan branch slots).mapSteps f.map =
      evaluatePlan branch (slots.map (.mapSteps f.map)) := by
  induction slots generalizing branch with
  | nil => rfl
  | cons slot rest ih =>
      refine congrArg (Plan.invoke [] (f.map slot.predicate) .empty) (funext fun s => ?_)
      cases s with
      | error e => rfl
      | ok verdict =>
          dsimp only
          split
          · refine congrArg (Plan.report [] (.branchMatched branch)) ?_
            rw [Plan.mapSteps_bind, mapSteps_slotPlan]
            rfl
          · exact congrArg (Plan.report [] (.predicateFalse branch)) (ih (branch + 1))

theorem mapSteps_repeatPlan (config : Config) (slot : Slot υ) (passes : Nat)
    (last : Option Values) (limit : Nat) :
    (repeatPlan config slot passes last limit).mapSteps f.map =
      repeatPlan config (slot.mapSteps f.map) passes last limit := by
  induction limit generalizing passes last with
  | zero => rfl
  | succ limit ih =>
      refine congrArg (Plan.invoke [] (f.map slot.predicate) .empty) (funext fun s => ?_)
      cases s with
      | error e => rfl
      | ok verdict =>
          dsimp only
          split
          · simp only [Plan.mapSteps_bind, mapSteps_slotPlan]
            congr 1
            funext r
            cases r with
            | error e => rfl
            | ok output => exact ih (passes + 1) (some output)
          · rfl

theorem mapSteps_plan (limit : Nat) (config : Config) (item : Item υ) :
    (item.plan limit config).mapSteps f.map = (item.mapSteps f.map).plan limit config := by
  obtain ⟨kind, slots, closed⟩ := item
  cases kind with
  | chain => exact mapSteps_evaluatePlan f 0 slots
  | condition => exact mapSteps_evaluatePlan f 0 slots
  | loop =>
      cases slots with
      | nil => rfl
      | cons slot rest => exact mapSteps_repeatPlan f config slot 0 none limit

end Item

theorem mapSteps_itemsPlan (limit : Nat) (config : Config) (index : Nat) (items : List (Item υ)) :
    (itemsPlan limit config index items).mapSteps f.map =
      itemsPlan limit config index (items.map (.mapSteps f.map)) := by
  induction items generalizing index with
  | nil => rfl
  | cons item rest ih =>
      simp only [itemsPlan, List.map_cons, Plan.mapSteps_bind, Plan.mapSteps_within,
        Item.mapSteps_plan]
      congr 1
      funext r
      rcases r with e | _ | values
      · rfl
      · exact ih (index + 1)
      · simp only [Plan.mapSteps, ih]

/-- The plan of a flow with other steps and resolvers is the same with the other steps. -/
theorem Flow.mapSteps_plan (limit : Nat) (flow : Flow υ) {flow' : Flow υ'}
    (sequence : flow'.sequence = flow.sequence.mapSteps f.map) (config : flow'.config = flow.config)
    (buildError : flow'.buildError = flow.buildError) :
    flow'.plan limit = (flow.plan limit).mapSteps f.map := by
  have hlength : flow'.sequence.length = flow.sequence.length := by
    rw [sequence]
    exact List.length_map _
  have hitems : flow'.sequence.items = flow.sequence.items.map (.mapSteps f.map) := by
    rw [sequence]
    rfl
  unfold Flow.plan
  simp only [Plan.mapSteps, Plan.mapSteps_within, config, buildError, hlength, hitems]
  cases flow.buildError with
  | some error => rfl
  | none =>
      simp only [Plan.mapSteps, Plan.mapSteps_bind, mapSteps_itemsPlan]
      congr 1
      funext _
      congr 3
      funext r
      cases r <;> rfl

end Stepwise
