import Mathlib.Data.List.Forall2
import Stepwise.Proofs.Retained
/-!
# The turns of a run

In an item a run takes turns: it asks the predicate of a slot and, where that holds, carries out the
actions of the slot.  A condition takes its turns at one slot after the other, until a predicate
holds; a loop takes them at its only slot, until the predicate does not hold any more.  Nothing goes
from one turn to the next but the state of user code, and the predicate and the first action of a
turn get no arguments.
-/

namespace Stepwise

variable {υ α β : Type}

/-! ## Plans of turns -/

/-- The plan of a turn at a slot: its output if the predicate holds, which notices announce. -/
def Slot.plan (notices : List Notice) (slot : Slot υ) :
    Plan υ (Except FlowError (Option Values)) :=
  .invoke [] slot.predicate .empty fun
    | .error e => .done (.error e)
    | .ok verdict =>
        if verdict.isTruthy then
          notices.foldr (Plan.report []) <|
            (slotPlan slot.actions .empty).bind fun s => .done (s.map some)
        else
          .done (.ok none)

namespace Item

/-- A condition goes on with its next slot after a turn without a match. -/
theorem evaluatePlan_cons (branch : Nat) (slot : Slot υ) (rest : List (Slot υ)) :
    evaluatePlan branch (slot :: rest) = (slot.plan [.branchMatched branch]).bind fun
      | .ok none => .report [] (.predicateFalse branch) (evaluatePlan (branch + 1) rest)
      | r => .done r := by
  simp only [evaluatePlan, Slot.plan, Plan.bind]
  congr 1
  funext s
  cases s with
  | error e => rfl
  | ok verdict =>
      by_cases htruthy : verdict.isTruthy
      · simp only [if_pos htruthy, List.foldr, Plan.bind, Plan.bind_assoc]
        congr 2
        funext s
        cases s <;> rfl
      · simp only [if_neg htruthy, Plan.bind]

/-- A loop goes on with another turn after one whose predicate held. -/
theorem repeatPlan_succ (config : Config) (slot : Slot υ) (passes : Nat) (last : Option Values)
    (limit : Nat) :
    repeatPlan config slot passes last (limit + 1) = (slot.plan []).bind fun
      | .ok none => .report [] (.loopFinished passes) <|
          .done (.ok (if config.recordLoopResults then last else none))
      | .ok (some output) => repeatPlan config slot (passes + 1) (some output) limit
      | .error e => .done (.error e) := by
  simp only [repeatPlan, Slot.plan, Plan.bind]
  congr 1
  funext s
  cases s with
  | error e => rfl
  | ok verdict =>
      by_cases htruthy : verdict.isTruthy
      · simp only [if_pos htruthy, List.foldr, Plan.bind_assoc]
        congr 1
        funext s
        cases s <;> rfl
      · simp only [if_neg htruthy, Plan.bind]

end Item

theorem Plan.account_announced (config : Config) (notices : List Notice) (p : Plan υ α)
    (spans : List Span) (acts : List (Act υ)) (st : Store υ) (r : ResultSet) :
    ((notices.foldr (report []) p).under spans).account config acts st r =
      (p.under spans).account config acts (notices.foldl (·.report spans) st) r := by
  induction notices generalizing st with
  | nil => rfl
  | cons notice notices ih =>
      simp only [List.foldr, under, account, List.append_nil, ih]
      rfl

theorem Slot.plan_strict (notices : List Notice) (slot : Slot υ) :
    (slot.plan notices).Strict := by
  refine ⟨fun e => rfl, fun verdict => ?_⟩
  dsimp only
  split
  · induction notices with
    | nil => exact (slotPlan_strict _ _).bind (fun e => rfl) fun output => ⟨some output, rfl⟩
    | cons notice notices ih => exact ih
  · exact ⟨none, rfl⟩

/-! ## Turns -/

/-- What a run does in a turn at a slot. -/
structure Turn (υ : Type) where
  /-- The number of the slot in its item. -/
  branch : Nat
  /-- The invocation of the predicate. -/
  check : Entry υ
  actions : List (Entry υ)
  halt : Halt υ (Except FlowError (Option Values))

namespace Turn

def entries (t : Turn υ) : List (Entry υ) := t.check :: t.actions

/-- The turn is one at one of the slots, and nothing comes into it. -/
def Fits (slots : List (Slot υ)) (t : Turn υ) : Prop :=
  ∃ slot, slots[t.branch]? = some slot ∧ t.check.toInvocation = ⟨slot.predicate, .empty⟩ ∧
    t.actions.map (·.step) <+: slot.actions ∧ ∀ first ∈ t.actions.head?, first.args = .empty

end Turn

namespace Slot

/-- A turn at a slot that has the given number in its item. -/
def turn (config : Config) (notices : List Notice) (branch : Nat) (spans : List Span)
    (slot : Slot υ) (acts : List (Act υ)) (st : Store υ) : Turn υ :=
  let account := ((slot.plan notices).under spans).account config acts st .empty
  { branch
    check := ⟨⟨slot.predicate, .empty⟩, spans, acts, st⟩
    actions := account.entries.tail
    halt := account.halt }

variable (config : Config) (notices : List Notice) (branch : Nat) (spans : List Span)
  (slot : Slot υ) (acts : List (Act υ)) (st : Store υ)

/-- The account of a turn. -/
theorem account_plan (r : ResultSet) :
    ((slot.plan notices).under spans).account config acts st r =
      ⟨(slot.turn config notices branch spans acts st).entries, r,
        (slot.turn config notices branch spans acts st).halt⟩ := by
  have haccount := ((slot.plan_strict notices).under spans).account config acts st r
  have hcheck : (((slot.plan notices).under spans).account config acts st .empty).entries.head? =
      some ⟨⟨slot.predicate, .empty⟩, spans, acts, st⟩ := by
    simp only [plan, Plan.under, List.append_nil, Plan.account_invoke]
    cases Entry.course config ⟨⟨slot.predicate, .empty⟩, spans, acts, st⟩ <;> rfl
  rw [haccount]
  exact congrArg (Account.mk · r _) (List.eq_cons_of_mem_head? hcheck)

/-- The account of carrying out the actions of a slot. -/
def pass : Account υ Settlement :=
  ((slotPlan slot.actions .empty).under spans).account config acts st .empty

/-- The actions follow a predicate that holds, and nothing follows another one. -/
theorem turn_eq :
    let check : Entry υ := ⟨⟨slot.predicate, .empty⟩, spans, acts, st⟩
    slot.turn config notices branch spans acts st =
      match check.course config with
      | .ended mid (.ok verdict) left =>
          if verdict.isTruthy then
            let pass := slot.pass config spans left (notices.foldl (·.report spans) mid)
            ⟨branch, check, pass.entries, pass.halt.map (·.map some)⟩
          else
            ⟨branch, check, [], .ended mid (.ok none) left⟩
      | .ended mid (.error e) left => ⟨branch, check, [], .ended mid (.error e) left⟩
      | .unwound mid payload => ⟨branch, check, [], .unwound mid payload⟩
      | .pending mid part => ⟨branch, check, [], .pending mid part.onDrop⟩
      | .exhausted mid => ⟨branch, check, [], .exhausted mid⟩ := by
  intro check
  have hcheck : ⟨⟨slot.predicate, .empty⟩, spans, acts, st⟩ = check := rfl
  simp only [turn, plan, Plan.under, Plan.account_invoke, List.append_nil, hcheck]
  cases check.course config with
  | ended mid s left =>
      cases s with
      | error e => rfl
      | ok verdict =>
          dsimp only
          split
          · rw [Plan.account_announced, Plan.under_bind]
            simp only [Plan.under, Plan.account_map, List.tail_cons]
            rfl
          · rfl
  | unwound mid payload => rfl
  | pending mid part => rfl
  | exhausted mid => rfl

end Slot

/-- The actions of a slot are carried out in order, the first of them on what is carried in. -/
theorem entries_actionsPlan (config : Config) (position : Nat) (actions : List (Step υ))
    (carried : Values) (spans : List Span) (acts : List (Act υ)) (st : Store υ) (r : ResultSet) :
    let a := ((actionsPlan position actions carried).under spans).account config acts st r
    a.entries.map (·.step) <+: actions ∧ ∀ first ∈ a.entries.head?, first.args = carried := by
  induction actions generalizing position carried acts st with
  | nil => exact ⟨List.prefix_rfl, fun first hfirst => nomatch hfirst⟩
  | cons action rest ih =>
      simp only [actionsPlan, Plan.under, Plan.account, Account.ofEntry, Account.andThen]
      have hone : [action] <+: action :: rest := ⟨rest, rfl⟩
      cases (Entry.course config _).halt with
      | ended mid s left =>
          cases s with
          | ok output =>
              refine ⟨(List.prefix_cons_inj action).2 (ih (position + 1) output left mid).1, ?_⟩
              rintro first ⟨⟩
              rfl
          | error e =>
              refine ⟨hone, ?_⟩
              rintro first ⟨⟩
              rfl
      | unwound mid payload => exact ⟨hone, by rintro first ⟨⟩; rfl⟩
      | pending mid onDrop => exact ⟨hone, by rintro first ⟨⟩; rfl⟩
      | exhausted mid => exact ⟨hone, by rintro first ⟨⟩; rfl⟩

theorem entries_slotPlan (config : Config) (actions : List (Step υ)) (input : Values)
    (spans : List Span) (acts : List (Act υ)) (st : Store υ) (r : ResultSet) :
    let a := ((slotPlan actions input).under spans).account config acts st r
    a.entries.map (·.step) <+: actions ∧ ∀ first ∈ a.entries.head?, first.args = input := by
  unfold slotPlan
  split
  · exact ⟨List.nil_prefix, fun first hfirst => nomatch hfirst⟩
  · exact entries_actionsPlan config 0 actions input spans acts st r

theorem Slot.fits_turn (config : Config) (notices : List Notice) (spans : List Span)
    {slots : List (Slot υ)} {branch : Nat} {slot : Slot υ} (hslot : slots[branch]? = some slot)
    (acts : List (Act υ)) (st : Store υ) :
    (slot.turn config notices branch spans acts st).Fits slots := by
  have hnone : ([] : List (Entry υ)).map (·.step) <+: slot.actions ∧
      ∀ first ∈ ([] : List (Entry υ)).head?, first.args = .empty :=
    ⟨List.nil_prefix, fun first hfirst => nomatch hfirst⟩
  rw [turn_eq]
  refine ⟨slot, ?_⟩
  cases Entry.course config _ with
  | ended mid s left =>
      cases s with
      | error e => exact ⟨hslot, rfl, hnone⟩
      | ok verdict =>
          dsimp only
          split
          · exact ⟨hslot, rfl, entries_slotPlan config slot.actions .empty spans left _ .empty⟩
          · exact ⟨hslot, rfl, hnone⟩
  | unwound mid payload => exact ⟨hslot, rfl, hnone⟩
  | pending mid part => exact ⟨hslot, rfl, hnone⟩
  | exhausted mid => exact ⟨hslot, rfl, hnone⟩

namespace Item

/-- A condition takes a turn, and after one without a match it goes on with its next slot. -/
theorem account_evaluatePlan_cons (config : Config) (spans : List Span) (branch : Nat)
    (slot : Slot υ) (rest : List (Slot υ)) (acts : List (Act υ)) (st : Store υ) (r : ResultSet) :
    let turn := slot.turn config [.branchMatched branch] branch spans acts st
    ((evaluatePlan branch (slot :: rest)).under spans).account config acts st r =
      (Account.mk turn.entries r turn.halt).andThen fun
        | .ok none, left, st, r =>
            ((evaluatePlan (branch + 1) rest).under spans).account config left
              (st.report spans (.predicateFalse branch)) r
        | outcome, left, st, r => ⟨[], r, .ended st outcome left⟩ := by
  intro turn
  rw [evaluatePlan_cons, Plan.under_bind, Plan.account_bind,
    slot.account_plan config [.branchMatched branch] branch spans]
  congr 1
  funext outcome left st r
  rcases outcome with e | _ | output
  · rfl
  · simp only [Plan.under, Plan.account, List.append_nil]
  · rfl

/-- A loop takes a turn, and after one whose predicate held it goes on from there. -/
theorem account_repeatPlan_succ (config : Config) (spans : List Span) (slot : Slot υ)
    (passes : Nat) (last : Option Values) (limit : Nat) (acts : List (Act υ)) (st : Store υ)
    (r : ResultSet) :
    let turn := slot.turn config [] 0 spans acts st
    ((repeatPlan config slot passes last (limit + 1)).under spans).account config acts st r =
      (Account.mk turn.entries r turn.halt).andThen fun
        | .ok none, left, st, r =>
            ⟨[], r, .ended (st.report spans (.loopFinished passes))
              (.ok (if config.recordLoopResults then last else none)) left⟩
        | .ok (some output), left, st, r =>
            ((repeatPlan config slot (passes + 1) (some output) limit).under spans).account config
              left st r
        | .error e, left, st, r => ⟨[], r, .ended st (.error e) left⟩ := by
  intro turn
  rw [repeatPlan_succ, Plan.under_bind, Plan.account_bind, slot.account_plan config [] 0 spans]
  congr 1
  funext outcome left st r
  rcases outcome with e | _ | output
  · rfl
  · simp only [Plan.under, Plan.account, List.append_nil]
  · rfl

end Item

/-! ## The turns in an item -/

/-- The turns at slots of which the first has the given number.  A turn without a match is followed
by one at the next slot. -/
def conditionTurns (config : Config) (spans : List Span) (branch : Nat) :
    List (Slot υ) → List (Act υ) → Store υ → List (Turn υ)
  | [], _, _ => []
  | slot :: rest, acts, st =>
      let turn := slot.turn config [.branchMatched branch] branch spans acts st
      turn :: match turn.halt with
        | .ended st (.ok none) left => conditionTurns config spans (branch + 1) rest left
            (st.report spans (.predicateFalse branch))
        | _ => []

/-- The turns of a loop.  A turn whose predicate held is followed by another one. -/
def loopTurns (config : Config) (spans : List Span) (slot : Slot υ) :
    Nat → List (Act υ) → Store υ → List (Turn υ)
  | 0, _, _ => []
  | limit + 1, acts, st =>
      let turn := slot.turn config [] 0 spans acts st
      turn :: match turn.halt with
        | .ended st (.ok (some _)) left => loopTurns config spans slot limit left st
        | _ => []

namespace Item

/-- The turns that a run takes in an item. -/
def turns (limit : Nat) (config : Config) (spans : List Span) (acts : List (Act υ)) (st : Store υ)
    (item : Item υ) : List (Turn υ) :=
  match item.kind with
  | .chain | .condition => conditionTurns config spans 0 item.slots acts st
  | .loop =>
      match item.slots.head? with
      | some slot => loopTurns config spans slot limit acts st
      | none => []

theorem fits_conditionTurns (config : Config) (spans : List Span) (slots firsts : List (Slot υ))
    (acts : List (Act υ)) (st : Store υ) :
    ∀ t ∈ conditionTurns config spans firsts.length slots acts st, t.Fits (firsts ++ slots) := by
  induction slots generalizing firsts acts st with
  | nil => exact List.forall_mem_nil _
  | cons slot rest ih =>
      have hslot : (firsts ++ slot :: rest)[firsts.length]? = some slot := by simp
      refine List.forall_mem_cons.2 ⟨slot.fits_turn config _ spans hslot acts st, ?_⟩
      split
      · have hrest := ih (firsts ++ [slot])
        rw [List.length_append, List.length_singleton, List.append_assoc,
          List.singleton_append] at hrest
        exact hrest _ _
      · exact List.forall_mem_nil _

theorem fits_loopTurns (config : Config) (spans : List Span) {slots : List (Slot υ)}
    {slot : Slot υ} (hslot : slots.head? = some slot) (limit : Nat) (acts : List (Act υ))
    (st : Store υ) : ∀ t ∈ loopTurns config spans slot limit acts st, t.Fits slots := by
  induction limit generalizing acts st with
  | zero => exact List.forall_mem_nil _
  | succ limit ih =>
      refine List.forall_mem_cons.2 ⟨slot.fits_turn config [] spans ?_ acts st, ?_⟩
      · rw [← List.head?_eq_getElem?, hslot]
      · split
        · exact ih _ _
        · exact List.forall_mem_nil _

/-- Every turn is one at a slot of the item. -/
theorem fits_turns (limit : Nat) (config : Config) (spans : List Span) (acts : List (Act υ))
    (st : Store υ) (item : Item υ) :
    ∀ t ∈ item.turns limit config spans acts st, t.Fits item.slots := by
  have hcondition := fits_conditionTurns config spans item.slots [] acts st
  unfold turns
  split
  · exact hcondition
  · exact hcondition
  · cases hhead : item.slots.head? with
    | none => exact List.forall_mem_nil _
    | some slot => exact fits_loopTurns config spans hhead limit acts st

theorem entries_evaluatePlan (config : Config) (spans : List Span) (branch : Nat)
    (slots : List (Slot υ)) (acts : List (Act υ)) (st : Store υ) (r : ResultSet) :
    (((evaluatePlan branch slots).under spans).account config acts st r).entries =
      (conditionTurns config spans branch slots acts st).flatMap Turn.entries := by
  induction slots generalizing branch acts st with
  | nil => rfl
  | cons slot rest ih =>
      rw [account_evaluatePlan_cons, conditionTurns, List.flatMap_cons]
      generalize slot.turn config [.branchMatched branch] branch spans acts st = t
      obtain ⟨branch', check, actions, halt⟩ := t
      cases halt with
      | ended mid outcome left =>
          rcases outcome with e | _ | output
          · rfl
          · simp only [Account.andThen, ih]
          · rfl
      | unwound mid payload => simp [Account.andThen]
      | pending mid onDrop => simp [Account.andThen]
      | exhausted mid => simp [Account.andThen]

theorem entries_repeatPlan (config : Config) (spans : List Span) (slot : Slot υ) (passes : Nat)
    (last : Option Values) (limit : Nat) (acts : List (Act υ)) (st : Store υ) (r : ResultSet) :
    (((repeatPlan config slot passes last limit).under spans).account config acts st r).entries =
      (loopTurns config spans slot limit acts st).flatMap Turn.entries := by
  induction limit generalizing passes last acts st with
  | zero => rfl
  | succ limit ih =>
      rw [account_repeatPlan_succ, loopTurns, List.flatMap_cons]
      generalize slot.turn config [] 0 spans acts st = t
      obtain ⟨branch', check, actions, halt⟩ := t
      cases halt with
      | ended mid outcome left =>
          rcases outcome with e | _ | output
          · rfl
          · rfl
          · simp only [Account.andThen, ih]
      | unwound mid payload => simp [Account.andThen]
      | pending mid onDrop => simp [Account.andThen]
      | exhausted mid => simp [Account.andThen]

/-- What a run does in an item is what it does in its turns there. -/
theorem entries_passage (limit : Nat) (config : Config) (spans : List Span) (acts : List (Act υ))
    (st : Store υ) (item : Item υ) :
    (item.passage limit config spans acts st).entries =
      (item.turns limit config spans acts st).flatMap Turn.entries := by
  unfold passage plan turns
  cases item.kind with
  | chain => exact entries_evaluatePlan config spans 0 item.slots acts st .empty
  | condition => exact entries_evaluatePlan config spans 0 item.slots acts st .empty
  | loop =>
      cases item.slots.head? with
      | none => rfl
      | some slot => exact entries_repeatPlan config spans slot 0 none limit acts st .empty

end Item

/-! ## The turns of a run -/

/-- The turns in items of which the first has the given index, item by item. -/
def itemsTurns (limit : Nat) (config : Config) (spans : List Span) (index : Nat) :
    List (Item υ) → List (Act υ) → Store υ → List (List (Turn υ))
  | [], _, _ => []
  | item :: rest, acts, st =>
      let inner := spans ++ [.item index item.kind]
      item.turns limit config inner acts st ::
        match (item.passage limit config inner acts st).course with
        | .ended st (.ok _) left => itemsTurns limit config spans (index + 1) rest left st
        | _ => []

/-- What holds of the turns and the passage in every item holds of those of a whole run. -/
theorem forall₂_itemsTurns {limit : Nat} {config : Config} {holds : List (Turn υ) → Passage υ → Prop}
    (each : ∀ spans acts st item, holds (Item.turns limit config spans acts st item)
      (Item.passage limit config spans acts st item)) (spans : List Span) (index : Nat)
    (items : List (Item υ)) (acts : List (Act υ)) (st : Store υ) :
    List.Forall₂ holds (itemsTurns limit config spans index items acts st)
      (passages limit config spans index items acts st) := by
  induction items generalizing index acts st with
  | nil => exact .nil
  | cons item rest ih =>
      refine .cons (each _ acts st item) ?_
      cases (item.passage limit config (spans ++ [Span.item index item.kind]) acts st).course with
      | ended mid outcome left =>
          cases outcome with
          | ok output => exact ih (index + 1) left mid
          | error e => exact .nil
      | unwound mid payload => exact .nil
      | pending mid part => exact .nil
      | exhausted mid => exact .nil

namespace Scene

/-- The turns that the run takes, item by item. -/
def turns (S : Scene υ) : List (List (Turn υ)) :=
  match S.flow.buildError with
  | some _ => []
  | none =>
      let spans := S.spans ++ [.flow S.flow.config.spanLabel]
      itemsTurns S.limit S.flow.config spans 0 S.flow.sequence.items S.acts
        (S.store.report spans (.flowStarted S.flow.sequence.length))

theorem forall₂_turns (S : Scene υ) {holds : List (Turn υ) → Passage υ → Prop}
    (each : ∀ spans acts st item, holds (Item.turns S.limit S.flow.config spans acts st item)
      (Item.passage S.limit S.flow.config spans acts st item)) :
    List.Forall₂ holds S.turns S.passages := by
  unfold turns passages
  cases S.flow.buildError with
  | some error => exact .nil
  | none => exact forall₂_itemsTurns each _ _ _ _ _

/-- Every turn is one at a slot of its item, and nothing comes into it. -/
theorem turns_fit (S : Scene υ) :
    List.Forall₂ (fun ts item => ∀ t ∈ ts, t.Fits item.slots) S.turns
      (S.flow.sequence.items.take S.turns.length) := by
  have hitems := List.prefix_iff_eq_take.1 S.passages_in_order.1
  have hturns : List.Forall₂ (fun ts p => ∀ t ∈ ts, t.Fits p.item.slots) S.turns S.passages :=
    S.forall₂_turns (Item.fits_turns S.limit S.flow.config)
  rw [List.length_map, ← hturns.length_eq] at hitems
  rw [← hitems, List.forall₂_map_right_iff]
  exact hturns

/-- What a run does is what it does in its turns. -/
theorem entries_turns (S : Scene υ) : S.entries = S.turns.flatten.flatMap Turn.entries := by
  rw [S.account_passages.1]
  have hturns : List.Forall₂ (fun ts p => p.entries = ts.flatMap Turn.entries) S.turns S.passages :=
    S.forall₂_turns (Item.entries_passage S.limit S.flow.config)
  generalize S.turns = turns, S.passages = ps at hturns ⊢
  induction hturns with
  | nil => rfl
  | cons hitem _ ih => rw [List.flatMap_cons, List.flatten_cons, List.flatMap_append, hitem, ih]

end Scene

end Stepwise
