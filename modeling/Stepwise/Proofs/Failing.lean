import Stepwise.Proofs.Spans
/-!
# Plans fail with the first error

An error that an invocation of a step comes to is passed on through actions, slots, passes of a loop
and items: nothing is invoked after it, the results stay as they are, and it is what the plan ends
with.  A plan has no errors of its own, unless the flow was declared wrongly.
-/

namespace Stepwise

variable {υ α β : Type}

namespace Plan

/-- The plan only reports before it ends with the error. -/
def Fails (e : FlowError) : Plan υ (Except FlowError α) → Prop
  | done r => r = .error e
  | report _ _ next => next.Fails e
  | _ => False

/-- After a step that fails nothing is invoked any more, and the results stay as they are. -/
def FailFast : Plan υ (Except FlowError α) → Prop
  | done _ => True
  | exhausted => True
  | report _ _ next => next.FailFast
  | results _ next => ∀ r, (next r).FailFast
  | invoke _ _ _ next => (∀ e, (next (.error e)).Fails e) ∧ ∀ s, (next s).FailFast

/-- The plan fails with the error of the first invocation that comes to one, and with no other.  It
has nothing to do with the results. -/
def Strict : Plan υ (Except FlowError α) → Prop
  | done r => ∃ a, r = .ok a
  | exhausted => True
  | report _ _ next => next.Strict
  | results _ _ => False
  | invoke _ _ _ next => (∀ e, (next (.error e)).Fails e) ∧ ∀ output, (next (.ok output)).Strict

theorem Fails.bind {p : Plan υ (Except FlowError α)} {e : FlowError}
    {f : Except FlowError α → Plan υ (Except FlowError β)} (fails : p.Fails e)
    (passes : (f (.error e)).Fails e) : (p.bind f).Fails e := by
  induction p with
  | done r =>
      obtain rfl : r = .error e := fails
      exact passes
  | report spans notice next ih => exact ih fails
  | exhausted => exact fails.elim
  | results update next ih => exact fails.elim
  | invoke spans step args next ih => exact fails.elim

theorem Fails.under {p : Plan υ (Except FlowError α)} {e : FlowError} (fails : p.Fails e)
    (spans : List Span) : (p.under spans).Fails e := by
  induction p with
  | done r => exact fails
  | report inner notice next ih => exact ih fails
  | exhausted => exact fails.elim
  | results update next ih => exact fails.elim
  | invoke inner step args next ih => exact fails.elim

theorem Fails.failFast {p : Plan υ (Except FlowError α)} {e : FlowError} (fails : p.Fails e) :
    p.FailFast := by
  induction p with
  | done r => trivial
  | report spans notice next ih => exact ih fails
  | exhausted => trivial
  | results update next ih => exact fails.elim
  | invoke spans step args next ih => exact fails.elim

theorem FailFast.bind {p : Plan υ (Except FlowError α)}
    {f : Except FlowError α → Plan υ (Except FlowError β)} (failFast : p.FailFast)
    (passes : ∀ e, (f (.error e)).Fails e) (rest : ∀ r, (f r).FailFast) :
    (p.bind f).FailFast := by
  induction p with
  | done r => exact rest r
  | exhausted => trivial
  | report spans notice next ih => exact ih failFast
  | results update next ih => exact fun r => ih r (failFast r)
  | invoke spans step args next ih =>
      exact ⟨fun e => (failFast.1 e).bind (passes e), fun s => ih s (failFast.2 s)⟩

theorem FailFast.under {p : Plan υ (Except FlowError α)} (failFast : p.FailFast)
    (spans : List Span) : (p.under spans).FailFast := by
  induction p with
  | done r => trivial
  | exhausted => trivial
  | report inner notice next ih => exact ih failFast
  | results update next ih => exact fun r => ih r (failFast r)
  | invoke inner step args next ih =>
      exact ⟨fun e => (failFast.1 e).under spans, fun s => ih s (failFast.2 s)⟩

theorem Strict.bind {p : Plan υ (Except FlowError α)}
    {f : Except FlowError α → Plan υ (Except FlowError β)} (strict : p.Strict)
    (passes : ∀ e, (f (.error e)).Fails e) (rest : ∀ a, (f (.ok a)).Strict) :
    (p.bind f).Strict := by
  induction p with
  | done r =>
      obtain ⟨a, rfl⟩ := strict
      exact rest a
  | exhausted => trivial
  | report spans notice next ih => exact ih strict
  | results update next ih => exact strict.elim
  | invoke spans step args next ih =>
      exact ⟨fun e => (strict.1 e).bind (passes e), fun output => ih _ (strict.2 output)⟩

theorem Strict.under {p : Plan υ (Except FlowError α)} (strict : p.Strict) (spans : List Span) :
    (p.under spans).Strict := by
  induction p with
  | done r => exact strict
  | exhausted => trivial
  | report inner notice next ih => exact ih strict
  | results update next ih => exact strict.elim
  | invoke inner step args next ih =>
      exact ⟨fun e => (strict.1 e).under spans, fun output => ih _ (strict.2 output)⟩

theorem Strict.failFast {p : Plan υ (Except FlowError α)} (strict : p.Strict) : p.FailFast := by
  induction p with
  | done r => trivial
  | exhausted => trivial
  | report spans notice next ih => exact ih strict
  | results update next ih => exact strict.elim
  | invoke spans step args next ih =>
      refine ⟨strict.1, fun s => ?_⟩
      cases s with
      | ok output => exact ih _ (strict.2 output)
      | error e => exact (strict.1 e).failFast

end Plan

/-! ## The plans of the engine -/

theorem actionsPlan_strict (position : Nat) (actions : List (Step υ)) (carried : Values) :
    (actionsPlan position actions carried).Strict := by
  induction actions generalizing position carried with
  | nil => exact ⟨carried, rfl⟩
  | cons action rest ih => exact ⟨fun e => rfl, fun output => ih (position + 1) output⟩

theorem slotPlan_strict (actions : List (Step υ)) (input : Values) :
    (slotPlan actions input).Strict := by
  unfold slotPlan
  split
  · exact ⟨.empty, rfl⟩
  · exact actionsPlan_strict 0 actions input

namespace Item

theorem evaluatePlan_strict (branch : Nat) (slots : List (Slot υ)) :
    (evaluatePlan branch slots).Strict := by
  induction slots generalizing branch with
  | nil => exact ⟨none, rfl⟩
  | cons slot rest ih =>
      refine ⟨fun e => rfl, fun verdict => ?_⟩
      by_cases htruthy : verdict.isTruthy
      · simp only [if_pos htruthy]
        exact (slotPlan_strict slot.actions .empty).bind (fun e => rfl) fun output =>
          ⟨some output, rfl⟩
      · simp only [if_neg htruthy]
        exact ih (branch + 1)

theorem repeatPlan_strict (config : Config) (slot : Slot υ) (passes : Nat) (last : Option Values)
    (limit : Nat) : (repeatPlan config slot passes last limit).Strict := by
  induction limit generalizing passes last with
  | zero => trivial
  | succ limit ih =>
      refine ⟨fun e => rfl, fun verdict => ?_⟩
      by_cases htruthy : verdict.isTruthy
      · simp only [if_pos htruthy]
        exact (slotPlan_strict slot.actions .empty).bind (fun e => rfl) fun output =>
          ih (passes + 1) (some output)
      · simp only [if_neg htruthy]
        exact ⟨_, rfl⟩

theorem plan_strict (limit : Nat) (config : Config) (item : Item υ) :
    (item.plan limit config).Strict := by
  unfold Item.plan
  split
  · exact evaluatePlan_strict 0 item.slots
  · exact evaluatePlan_strict 0 item.slots
  · split
    · exact repeatPlan_strict config _ 0 none limit
    · exact ⟨none, rfl⟩

end Item

theorem itemsPlan_failFast (limit : Nat) (config : Config) (index : Nat) (items : List (Item υ)) :
    (itemsPlan limit config index items).FailFast := by
  induction items generalizing index with
  | nil => trivial
  | cons item rest ih =>
      rw [itemsPlan, Plan.within_eq_under]
      apply ((item.plan_strict limit config).failFast.under _).bind
      · exact fun e => rfl
      · intro r
        rcases r with e | _ | values
        · trivial
        · exact ih (index + 1)
        · exact fun _ => ih (index + 1)

theorem Flow.plan_failFast (limit : Nat) (flow : Flow υ) : (flow.plan limit).FailFast := by
  intro _
  rw [Plan.within_eq_under]
  apply Plan.FailFast.under
  cases flow.buildError with
  | some error => trivial
  | none =>
      apply (itemsPlan_failFast limit flow.config 0 flow.sequence.items).bind
      · exact fun e => rfl
      · intro r
        cases r with
        | ok _ => exact fun _ => trivial
        | error e => trivial

end Stepwise
