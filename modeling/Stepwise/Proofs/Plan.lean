import Stepwise.Flow
import Stepwise.Program.Lemmas
/-!
# Plans

The plan of a run is the tree of what the engine does by itself: reports, changes of the result set,
and invocations of steps, of which each settlement decides how the plan goes on.  A run is its plan
carried out, so what holds of a run on every path through its steps is proved on plans, where no
code of users is in the way.
-/

namespace Stepwise

variable {m : Mode} {υ ρ α β : Type}

/-! ## Programs inside a run -/

/-- A program as a part of a run: under spans, beside a second component of the state. -/
def Program.inside (spans : List Span) : Program m υ α → Program m (υ × ρ) α
  | done value => done value
  | panic payload => panic payload
  | exhausted may => exhausted may
  | user update next =>
      user (fun (u, r) => (update u, r)) fun (u, _) => (next u).inside spans
  | request inner r next => request (spans ++ inner) r fun x => (next x).inside spans
  | pause may onDrop next => pause may onDrop fun x => (next x).inside spans
  | await may onDrop handle next => await may onDrop handle fun s => (next s).inside spans

namespace Program

theorem inside_bind (spans : List Span) (p : Program m υ α) (f : α → Program m υ β) :
    ((p.bind f).inside spans : Program m (υ × ρ) β) =
      (p.inside spans).bind fun a => (f a).inside spans := by
  induction p with
  | done => rfl
  | panic => rfl
  | exhausted => rfl
  | user update next ih => exact congrArg (user _) (funext fun u => ih u.1)
  | request inner r next ih => exact congrArg (request (spans ++ inner) r) (funext ih)
  | pause may onDrop next ih => exact congrArg (pause may onDrop) (funext ih)
  | await may onDrop handle next ih => exact congrArg (await may onDrop handle) (funext ih)

theorem beside_eq_inside (p : Program m υ α) :
    (p.beside : Program m (υ × ρ) α) = p.inside [] := by
  induction p with
  | done => rfl
  | panic => rfl
  | exhausted => rfl
  | user update next ih => exact congrArg (user _) (funext fun u => ih u.1)
  | request inner r next ih => exact congrArg (request inner r) (funext ih)
  | pause may onDrop next ih => exact congrArg (pause may onDrop) (funext ih)
  | await may onDrop handle next ih => exact congrArg (await may onDrop handle) (funext ih)

theorem within_inside (span : Span) (spans : List Span) (p : Program m υ α) :
    (p.inside spans : Program m (υ × ρ) α).within span = p.inside (span :: spans) := by
  induction p with
  | done => rfl
  | panic => rfl
  | exhausted => rfl
  | user update next ih => exact congrArg (user _) (funext fun u => ih u.1)
  | request inner r next ih =>
      exact congrArg (request (span :: (spans ++ inner)) r) (funext ih)
  | pause may onDrop next ih => exact congrArg (pause may onDrop) (funext ih)
  | await may onDrop handle next ih => exact congrArg (await may onDrop handle) (funext ih)

theorem inside_within (span : Span) (p : Program m υ α) :
    ((p.within span).inside [] : Program m (υ × ρ) α) = (p.inside []).within span := by
  induction p with
  | done => rfl
  | panic => rfl
  | exhausted => rfl
  | user update next ih => exact congrArg (user _) (funext fun u => ih u.1)
  | request inner r next ih => exact congrArg (request (span :: inner) r) (funext ih)
  | pause may onDrop next ih => exact congrArg (pause may onDrop) (funext ih)
  | await may onDrop handle next ih => exact congrArg (await may onDrop handle) (funext ih)

end Program

/-! ## Plans and carrying them out -/

/-- What a run does besides the code of its steps. -/
inductive Plan (υ α : Type) where
  | done (value : α)
  /-- A loop used up the passes it was given. -/
  | exhausted
  | report (spans : List Span) (notice : Notice) (next : Plan υ α)
  /-- Replaces the results of the run so far and goes on with what they were before. -/
  | results (update : ResultSet → ResultSet) (next : ResultSet → Plan υ α)
  /-- Invokes a step and goes on with its settlement. -/
  | invoke (spans : List Span) (step : Step υ) (args : Values) (next : Settlement → Plan υ α)

namespace Plan

def bind (p : Plan υ α) (f : α → Plan υ β) : Plan υ β :=
  match p with
  | done value => f value
  | exhausted => exhausted
  | report spans notice next => report spans notice (next.bind f)
  | results update next => results update fun r => (next r).bind f
  | invoke spans step args next => invoke spans step args fun s => (next s).bind f

def within (span : Span) : Plan υ α → Plan υ α
  | done value => done value
  | exhausted => exhausted
  | report spans notice next => report (span :: spans) notice (next.within span)
  | results update next => results update fun r => (next r).within span
  | invoke spans step args next => invoke (span :: spans) step args fun s => (next s).within span

/-- Carries a plan out under a configuration. -/
def toProgram (config : Config) : Plan υ α → Suspending (υ × ResultSet) α
  | done value => .done value
  | exhausted => .exhausted rfl
  | report spans notice next => .request spans (.report notice) fun _ => next.toProgram config
  | results update next =>
      .user (fun (u, r) => (u, update r)) fun (_, r) => (next r).toProgram config
  | invoke spans step args next =>
      ((step.invoke args config).inside spans).bind fun s => (next s).toProgram config

theorem bind_assoc {γ : Type} (p : Plan υ α) (f : α → Plan υ β) (g : β → Plan υ γ) :
    (p.bind f).bind g = p.bind fun a => (f a).bind g := by
  induction p with
  | done => rfl
  | exhausted => rfl
  | report spans notice next ih => exact congrArg (report spans notice) ih
  | results update next ih => exact congrArg (results update) (funext ih)
  | invoke spans step args next ih => exact congrArg (invoke spans step args) (funext ih)

theorem toProgram_bind (config : Config) (p : Plan υ α) (f : α → Plan υ β) :
    (p.bind f).toProgram config = (p.toProgram config).bind fun a => (f a).toProgram config := by
  induction p with
  | done => rfl
  | exhausted => rfl
  | report spans notice next ih =>
      exact congrArg (Program.request spans (.report notice)) (funext fun _ => ih)
  | results update next ih => exact congrArg (Program.user _) (funext fun u => ih u.2)
  | invoke spans step args next ih =>
      exact (congrArg (Program.bind _) (funext ih)).trans (Program.bind_assoc _ _ _).symm

theorem toProgram_within (config : Config) (span : Span) (p : Plan υ α) :
    (p.within span).toProgram config = (p.toProgram config).within span := by
  induction p with
  | done => rfl
  | exhausted => rfl
  | report spans notice next ih =>
      exact congrArg (Program.request (span :: spans) (.report notice)) (funext fun _ => ih)
  | results update next ih => exact congrArg (Program.user _) (funext fun u => ih u.2)
  | invoke spans step args next ih =>
      rw [toProgram, Program.within_bind, Program.within_inside]
      exact congrArg (Program.bind _) (funext ih)

end Plan

/-! ## The plans of the engine -/

/-- The plan of actions of which the first has the given position. -/
def actionsPlan (position : Nat) : List (Step υ) → Values → Plan υ Settlement
  | [], carried => .done (.ok carried)
  | action :: rest, carried =>
      .report [] (.runningAction position action.label action.shape) <|
        .invoke [] action carried fun
          | .ok output => actionsPlan (position + 1) rest output
          | .error e => .done (.error e)

/-- The plan of the actions of a slot. -/
def slotPlan (actions : List (Step υ)) (input : Values) : Plan υ Settlement :=
  if actions.isEmpty then .done (.ok .empty) else actionsPlan 0 actions input

namespace Item

def evaluatePlan (branch : Nat) :
    List (Slot υ) → Plan υ (Except FlowError (Option Values))
  | [] => .report [] .noBranchMatched (.done (.ok none))
  | slot :: rest =>
      .invoke [] slot.predicate .empty fun
        | .error e => .done (.error e)
        | .ok verdict =>
            if verdict.isTruthy then
              .report [] (.branchMatched branch) <|
                (slotPlan slot.actions .empty).bind fun s => .done (s.map some)
            else
              .report [] (.predicateFalse branch) (evaluatePlan (branch + 1) rest)

def repeatPlan (config : Config) (slot : Slot υ) (passes : Nat) (last : Option Values) :
    Nat → Plan υ (Except FlowError (Option Values))
  | 0 => .exhausted
  | limit + 1 =>
      .invoke [] slot.predicate .empty fun
        | .error e => .done (.error e)
        | .ok verdict =>
            if verdict.isTruthy then
              (slotPlan slot.actions .empty).bind fun
                | .ok output => repeatPlan config slot (passes + 1) (some output) limit
                | .error e => .done (.error e)
            else
              .report [] (.loopFinished passes) <|
                .done (.ok (if config.recordLoopResults then last else none))

/-- The plan of an item as its kind demands. -/
def plan (limit : Nat) (config : Config) (item : Item υ) :
    Plan υ (Except FlowError (Option Values)) :=
  match item.kind with
  | .chain | .condition => evaluatePlan 0 item.slots
  | .loop =>
      match item.slots.head? with
      | some slot => repeatPlan config slot 0 none limit
      | none => .done (.ok none)

end Item

/-- The plan of items of which the first has the given index. -/
def itemsPlan (limit : Nat) (config : Config) (index : Nat) :
    List (Item υ) → Plan υ (Except FlowError Unit)
  | [] => .done (.ok ())
  | item :: rest =>
      ((item.plan limit config).within (.item index item.kind)).bind fun
        | .ok none => itemsPlan limit config (index + 1) rest
        | .ok (some values) =>
            .results (·.pushFirst values) fun _ => itemsPlan limit config (index + 1) rest
        | .error e => .report [] (.itemFailed index item.kind e) (.done (.error e))

/-- The plan of a whole run, before its resolvers are told. -/
def Flow.plan (limit : Nat) (flow : Flow υ) : Plan υ Completion :=
  .results (fun _ => .empty) fun _ =>
    Plan.within (.flow flow.config.spanLabel) <|
      match flow.buildError with
      | some error => .report [] (.refused error) (.done (.error (.build error)))
      | none =>
          .report [] (.flowStarted flow.sequence.length) <|
            (itemsPlan limit flow.config 0 flow.sequence.items).bind fun
              | .ok () => .results id fun results =>
                  .report [] (.flowCompleted results.length) (.done (.ok results))
              | .error e => .report [] (.flowFailed e) (.done (.error e))

/-! ## Runs carry out their plans -/

theorem runActionsFrom_inside (config : Config) (position : Nat) (actions : List (Step υ))
    (carried : Values) :
    (runActionsFrom config position actions carried).inside [] =
      (actionsPlan position actions carried).toProgram config := by
  induction actions generalizing position carried with
  | nil => rfl
  | cons action rest ih =>
      simp only [runActionsFrom, actionsPlan, Plan.toProgram, Program.bind_eq, Program.inside_bind]
      simp only [Program.report, Program.ask, Program.inside, Program.bind, List.append_nil]
      congr 1
      funext _
      congr 1
      funext s
      cases s with
      | error e => rfl
      | ok output => exact ih (position + 1) output

theorem runActions_inside (config : Config) (actions : List (Step υ)) (input : Values) :
    (runActions config actions input).inside [] =
      (slotPlan actions input).toProgram config := by
  unfold runActions slotPlan
  split
  · rfl
  · exact runActionsFrom_inside config 0 actions input

theorem Item.evaluateFrom_inside (config : Config) (branch : Nat) (slots : List (Slot υ)) :
    (evaluateFrom config branch slots).inside [] =
      (evaluatePlan branch slots).toProgram config := by
  induction slots generalizing branch with
  | nil => rfl
  | cons slot rest ih =>
      simp only [evaluateFrom, evaluatePlan, Plan.toProgram, Program.bind_eq, Program.inside_bind]
      congr 1
      funext s
      cases s with
      | error e => rfl
      | ok verdict =>
          by_cases htruthy : verdict.isTruthy
          · simp only [if_pos htruthy, Program.inside_bind, Plan.toProgram, Plan.toProgram_bind,
              runActions_inside]
            rfl
          · simp only [if_neg htruthy, Program.inside_bind, Plan.toProgram, ih]
            rfl

theorem Item.repeatFrom_inside (config : Config) (slot : Slot υ) (passes : Nat)
    (last : Option Values) (limit : Nat) :
    (repeatFrom config slot passes last limit).inside [] =
      (repeatPlan config slot passes last limit).toProgram config := by
  induction limit generalizing passes last with
  | zero => rfl
  | succ limit ih =>
      simp only [repeatFrom, repeatPlan, Plan.toProgram, Program.bind_eq, Program.inside_bind]
      congr 1
      funext s
      cases s with
      | error e => rfl
      | ok verdict =>
          by_cases htruthy : verdict.isTruthy
          · simp only [if_pos htruthy, Program.inside_bind, Plan.toProgram_bind, runActions_inside]
            congr 1
            funext s
            cases s with
            | error e => rfl
            | ok output => exact ih (passes + 1) (some output)
          · simp only [if_neg htruthy]
            rfl

theorem Item.run_inside (limit : Nat) (config : Config) (item : Item υ) :
    (item.run limit config).inside [] = (item.plan limit config).toProgram config := by
  unfold Item.run Item.plan
  cases item.kind with
  | chain => exact Item.evaluateFrom_inside config 0 item.slots
  | condition => exact Item.evaluateFrom_inside config 0 item.slots
  | loop =>
      simp only [Item.repeats]
      cases item.slots.head? with
      | none => rfl
      | some slot => exact Item.repeatFrom_inside config slot 0 none limit

theorem Item.run_within_beside (limit : Nat) (config : Config) (item : Item υ) (span : Span) :
    ((item.run limit config).within span).beside =
      ((item.plan limit config).within span).toProgram config := by
  rw [Program.beside_eq_inside, Program.inside_within, Item.run_inside, Plan.toProgram_within]

theorem runItemsFrom_eq_plan (limit : Nat) (config : Config) (index : Nat)
    (items : List (Item υ)) :
    runItemsFrom limit config index items =
      (itemsPlan limit config index items).toProgram config := by
  induction items generalizing index with
  | nil => rfl
  | cons item rest ih =>
      simp only [runItemsFrom, itemsPlan, Program.bind_eq, Plan.toProgram_bind,
        Item.run_within_beside]
      congr 1
      funext s
      cases s with
      | error e => rfl
      | ok output =>
          cases output with
          | none => exact ih (index + 1)
          | some values =>
              simp only [Plan.toProgram, ← ih (index + 1)]
              rfl

/-- A run carries out its plan. -/
theorem Flow.drive_eq_plan (limit : Nat) (flow : Flow υ) :
    (flow.drive limit).within (.flow flow.config.spanLabel) =
      (flow.plan limit).toProgram flow.config := by
  simp only [Flow.drive, Flow.plan, Plan.toProgram, Plan.toProgram_within, Program.bind_eq,
    Program.within_bind]
  cases flow.buildError with
  | some error => rfl
  | none =>
      simp only [Plan.toProgram, Plan.toProgram_bind, Sequence.run, runItemsFrom_eq_plan,
        Program.within_bind]
      simp only [Program.modify, Program.report, Program.ask, Program.within, Program.bind]
      congr 1
      funext _
      congr 1
      funext _
      simp only [Program.within_bind]
      congr 1
      funext s
      cases s <;> rfl

/-- A run carries out its plan and then tells its resolvers. -/
theorem Flow.exec_eq_plan (limit : Nat) (flow : Flow υ) :
    flow.exec limit = ((flow.plan limit).toProgram flow.config).bind fun completion =>
      ((Flow.notify completion flow.resolvers).relax.beside).bind fun _ => .done completion := by
  simp only [Flow.exec, Program.bind_eq, Flow.drive_eq_plan]
  rfl

/-! ## The steps of a plan -/

def Slot.steps (slot : Slot υ) : List (Step υ) := slot.predicate :: slot.actions

def Item.steps (item : Item υ) : List (Step υ) := item.slots.flatMap Slot.steps

def Sequence.steps (s : Sequence υ) : List (Step υ) := s.items.flatMap Item.steps

namespace Plan

/-- Whether a plan, on every path, invokes only allowed steps. -/
def Invokes (allowed : Step υ → Prop) : Plan υ α → Prop
  | done _ => True
  | exhausted => True
  | report _ _ next => next.Invokes allowed
  | results _ next => ∀ r, (next r).Invokes allowed
  | invoke _ step _ next => allowed step ∧ ∀ s, (next s).Invokes allowed

variable {allowed : Step υ → Prop}

theorem Invokes.mono {wider : Step υ → Prop} {p : Plan υ α} (invokes : p.Invokes allowed)
    (widen : ∀ step, allowed step → wider step) : p.Invokes wider := by
  induction p with
  | done value => trivial
  | exhausted => trivial
  | report spans notice next ih => exact ih invokes
  | results update next ih => exact fun r => ih r (invokes r)
  | invoke spans step args next ih =>
      exact ⟨widen step invokes.1, fun s => ih s (invokes.2 s)⟩

theorem Invokes.bind {p : Plan υ α} {f : α → Plan υ β} (invokes : p.Invokes allowed)
    (rest : ∀ a, (f a).Invokes allowed) : (p.bind f).Invokes allowed := by
  induction p with
  | done value => exact rest value
  | exhausted => trivial
  | report spans notice next ih => exact ih invokes
  | results update next ih => exact fun r => ih r (invokes r)
  | invoke spans step args next ih => exact ⟨invokes.1, fun s => ih s (invokes.2 s)⟩

theorem Invokes.within {p : Plan υ α} (span : Span) (invokes : p.Invokes allowed) :
    (p.within span).Invokes allowed := by
  induction p with
  | done value => trivial
  | exhausted => trivial
  | report spans notice next ih => exact ih invokes
  | results update next ih => exact fun r => ih r (invokes r)
  | invoke spans step args next ih => exact ⟨invokes.1, fun s => ih s (invokes.2 s)⟩

end Plan

theorem actionsPlan_invokes (position : Nat) (actions : List (Step υ)) (carried : Values) :
    (actionsPlan position actions carried).Invokes (· ∈ actions) := by
  induction actions generalizing position carried with
  | nil => trivial
  | cons action rest ih =>
      refine ⟨List.mem_cons_self, fun s => ?_⟩
      cases s with
      | error e => trivial
      | ok output => exact (ih (position + 1) output).mono fun _ h => List.mem_cons_of_mem _ h

theorem slotPlan_invokes (slot : Slot υ) (input : Values) :
    (slotPlan slot.actions input).Invokes (· ∈ slot.steps) := by
  unfold slotPlan
  split
  · trivial
  · exact (actionsPlan_invokes 0 slot.actions input).mono fun _ h => List.mem_cons_of_mem _ h

namespace Item

theorem evaluatePlan_invokes (branch : Nat) (slots : List (Slot υ)) :
    (evaluatePlan branch slots).Invokes (· ∈ slots.flatMap Slot.steps) := by
  induction slots generalizing branch with
  | nil => trivial
  | cons slot rest ih =>
      have hslot {step : Step υ} (h : step ∈ slot.steps) :
          step ∈ (slot :: rest).flatMap Slot.steps := by
        rw [List.flatMap_cons]
        exact List.mem_append_left _ h
      refine ⟨hslot List.mem_cons_self, fun s => ?_⟩
      cases s with
      | error e => trivial
      | ok verdict =>
          dsimp only
          split
          · exact ((slotPlan_invokes slot .empty).mono fun _ h => hslot h).bind fun _ => trivial
          · refine (ih (branch + 1)).mono fun _ h => ?_
            rw [List.flatMap_cons]
            exact List.mem_append_right _ h

theorem repeatPlan_invokes (config : Config) (slot : Slot υ) (passes : Nat)
    (last : Option Values) (limit : Nat) :
    (repeatPlan config slot passes last limit).Invokes (· ∈ slot.steps) := by
  induction limit generalizing passes last with
  | zero => trivial
  | succ limit ih =>
      refine ⟨List.mem_cons_self, fun s => ?_⟩
      cases s with
      | error e => trivial
      | ok verdict =>
          dsimp only
          split
          · refine (slotPlan_invokes slot .empty).bind fun s => ?_
            cases s with
            | error e => trivial
            | ok output => exact ih (passes + 1) (some output)
          · trivial

theorem plan_invokes (limit : Nat) (config : Config) (item : Item υ) :
    (item.plan limit config).Invokes (· ∈ item.steps) := by
  unfold Item.plan
  split
  · exact evaluatePlan_invokes 0 item.slots
  · exact evaluatePlan_invokes 0 item.slots
  · split
    · rename_i slot hhead
      refine (repeatPlan_invokes config slot 0 none limit).mono fun _ h => ?_
      exact List.mem_flatMap.2 ⟨slot, List.mem_of_mem_head? hhead, h⟩
    · trivial

end Item

theorem itemsPlan_invokes (limit : Nat) (config : Config) (index : Nat) (items : List (Item υ)) :
    (itemsPlan limit config index items).Invokes (· ∈ items.flatMap Item.steps) := by
  induction items generalizing index with
  | nil => trivial
  | cons item rest ih =>
      have hrest {step : Step υ} (h : step ∈ rest.flatMap Item.steps) :
          step ∈ (item :: rest).flatMap Item.steps := by
        rw [List.flatMap_cons]
        exact List.mem_append_right _ h
      refine (((item.plan_invokes limit config).within _).mono fun _ h => ?_).bind fun s => ?_
      · rw [List.flatMap_cons]
        exact List.mem_append_left _ h
      · rcases s with e | _ | values
        · trivial
        · exact (ih (index + 1)).mono fun _ h => hrest h
        · exact fun _ => (ih (index + 1)).mono fun _ h => hrest h

/-- A run invokes only steps of its own sequence. -/
theorem Flow.plan_invokes (limit : Nat) (flow : Flow υ) :
    (flow.plan limit).Invokes (· ∈ flow.sequence.steps) := by
  intro _
  apply Plan.Invokes.within
  cases flow.buildError with
  | some error => trivial
  | none =>
      refine (itemsPlan_invokes limit flow.config 0 flow.sequence.items).bind fun s => ?_
      cases s with
      | error e => trivial
      | ok _ => exact fun _ => trivial

end Stepwise
