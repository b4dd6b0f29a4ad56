import Stepwise.Proofs.Emissions
import Stepwise.Proofs.Tasks
import Stepwise.Proofs.Turns
/-!
# What invocations and plans report

An invocation reports what its step does; that of a future step ends with what its task reports, in
which another flow may run.  A plan that is carried out leaves marks: what the engine reports by
itself, and the invocations that it makes.  The trace is what the marks come to.
-/

namespace Stepwise

variable {υ ρ α β : Type}

namespace Program

/-- To guard a program reports nothing. -/
theorem emitted_guarded (config : Config) (p : Suspending υ α) (acts : List (Act υ))
    (st : Store υ) : (config.guarded p).emitted acts st = p.emitted acts st := by
  cases hcatch : config.catchPanics with
  | true =>
      rw [Config.guarded_of_catching hcatch]
      exact (emitted_map ..).trans (emitted_caught acts st p)
  | false =>
      rw [Config.guarded_of_not_catching hcatch]
      exact emitted_map ..

end Program

/-! ## Invocations -/

namespace Entry

/-- What the polls of the invocation report. -/
def emitted (config : Config) (e : Entry υ) : List Event :=
  ((e.step.invoke e.args config).under e.spans).emitted e.acts e.store

/-- An invocation of a future step reports, in the end, what its task reports. -/
theorem emitted_of_task {e : Entry υ}
    {start : Values → Direct υ (Suspending υ (Except Cause Values))}
    (hstep : e.step.invoker = .future start) {task : Suspending υ (Except Cause Values)}
    {mid : Store υ}
    (hstart : ((start e.args).under e.spans).run
      (e.store.openChannel.2.discard e.store.openChannel.1) = (.ok task, mid))
    (config : Config) : (task.under e.spans).emitted e.acts mid <:+ e.emitted config := by
  obtain ⟨⟨⟨invoker, label⟩, args⟩, spans, acts, st⟩ := e
  obtain rfl : invoker = .future start := hstep
  let k := st.openChannel.1
  let call := (Step.mk (.future start) label).call args k config
  have hcall : (call.under spans).run st.openChannel.2 =
      (.ok (some (task.bind fun r => .done (Settlement.ofResult r))), mid) :=
    Step.run_call_future hstart label config
  have hawaited : ((Step.outcome k config (some (task.bind fun r =>
      .done (Settlement.ofResult r)))).under spans).emitted acts mid =
        (task.under spans).emitted acts mid := by
    change (((config.guarded _).bind _).under spans).emitted acts mid = _
    rw [Program.under_bind, Config.under_guarded]
    refine (Program.emitted_map ..).trans ?_
    rw [Program.emitted_guarded, Program.under_bind]
    exact Program.emitted_map ..
  have hinvoke : emitted config ⟨⟨⟨.future start, label⟩, args⟩, spans, acts, st⟩ =
      [] ++ ((Program.closing k (call.relax.bind (Step.outcome k config))).under spans).emitted acts
        st.openChannel.2 := Program.emitted_request ..
  rw [hinvoke, List.nil_append, Program.emitted_closing, Program.under_bind, Program.emitted_bind,
    Program.relax_under, Program.course_relax hcall]
  simp only [hawaited]
  exact List.suffix_append _ _

end Entry

/-! ## Marks -/

/-- What a plan does by itself when it is carried out. -/
inductive Mark (υ : Type) where
  | said (event : Event)
  | made (entry : Entry υ)

namespace Mark

def event? : Mark υ → Option Event
  | said event => some event
  | made _ => none

def entry? : Mark υ → Option (Entry υ)
  | said _ => none
  | made entry => some entry

/-- What is reported there. -/
def reported (config : Config) : Mark υ → List Event
  | said event => [event]
  | made entry => entry.emitted config

end Mark

/-! ## Plans -/

namespace Plan

/-- What is reported while a plan is carried out that begins with the given results. -/
def emitted (config : Config) : Plan υ α → List (Act υ) → Store υ → ResultSet → List Event
  | done _, _, _, _ => []
  | exhausted, _, _, _ => []
  | report spans notice next, acts, st, r =>
      ⟨notice, spans⟩ :: next.emitted config acts (st.report spans notice) r
  | results update next, acts, st, r => (next r).emitted config acts st (update r)
  | invoke spans step args next, acts, st, r =>
      let entry : Entry υ := ⟨⟨step, args⟩, spans, acts, st⟩
      entry.emitted config ++
        match entry.course config with
        | .ended mid s left => (next s).emitted config left mid r
        | _ => []

/-- Carried out, a plan reports what it says. -/
theorem emitted_toProgram (config : Config) (p : Plan υ α) (acts : List (Act υ)) (st : Store υ)
    (r : ResultSet) :
    (p.toProgram config).emitted (acts.map Act.aside) (st.attach r) =
      p.emitted config acts st r := by
  induction p generalizing acts st r with
  | done value => exact Program.emitted_done ..
  | exhausted => exact Program.emitted_exhausted ..
  | report spans notice next ih =>
      exact (Program.emitted_request ..).trans (congrArg (_ :: ·) (ih acts (st.report spans notice) r))
  | results update next ih => exact (Program.emitted_user ..).trans (ih r acts st _)
  | invoke spans step args next ih =>
      have hcourse := ((step.invoke args config).under spans).course_attach acts st r
      have hemitted := Program.emitted_attach acts st ((step.invoke args config).under spans) r
      rw [Program.beside_under] at hcourse hemitted
      simp only [toProgram, Program.emitted_bind, hcourse, hemitted, emitted, Entry.emitted,
        Entry.course]
      cases ((step.invoke args config).under spans).course acts st with
      | ended mid s left => exact congrArg (_ ++ ·) (ih s left mid r)
      | unwound mid payload => rfl
      | pending mid rest => rfl
      | exhausted mid => rfl

/-- The marks that a plan leaves that begins with the given results. -/
def marks (config : Config) : Plan υ α → List (Act υ) → Store υ → ResultSet → List (Mark υ)
  | done _, _, _, _ => []
  | exhausted, _, _, _ => []
  | report spans notice next, acts, st, r =>
      .said ⟨notice, spans⟩ :: next.marks config acts (st.report spans notice) r
  | results update next, acts, st, r => (next r).marks config acts st (update r)
  | invoke spans step args next, acts, st, r =>
      let entry : Entry υ := ⟨⟨step, args⟩, spans, acts, st⟩
      .made entry ::
        match entry.course config with
        | .ended mid s left => (next s).marks config left mid r
        | _ => []

theorem marks_invoke (config : Config) (spans : List Span) (step : Step υ) (args : Values)
    (next : Settlement → Plan υ α) (acts : List (Act υ)) (st : Store υ) (r : ResultSet) :
    (invoke spans step args next).marks config acts st r =
      .made ⟨⟨step, args⟩, spans, acts, st⟩ ::
        match Entry.course config ⟨⟨step, args⟩, spans, acts, st⟩ with
        | .ended mid s left => (next s).marks config left mid r
        | _ => [] := by
  cases hcourse : Entry.course config ⟨⟨step, args⟩, spans, acts, st⟩ <;>
    simp only [marks, hcourse]

/-- The marks account for all that is reported, in order. -/
theorem emitted_eq_flatMap_marks (config : Config) (p : Plan υ α) (acts : List (Act υ))
    (st : Store υ) (r : ResultSet) :
    p.emitted config acts st r = (p.marks config acts st r).flatMap (Mark.reported config) := by
  induction p generalizing acts st r with
  | done value => rfl
  | exhausted => rfl
  | report spans notice next ih => exact congrArg (_ :: ·) (ih acts _ r)
  | results update next ih => exact ih r acts st _
  | invoke spans step args next ih =>
      simp only [emitted, marks_invoke, List.flatMap_cons, Mark.reported]
      cases Entry.course config ⟨⟨step, args⟩, spans, acts, st⟩ with
      | ended mid s left => simp only [ih]
      | unwound mid payload => rfl
      | pending mid rest => rfl
      | exhausted mid => rfl

/-- And for all that is invoked. -/
theorem entries_eq_filterMap_marks (config : Config) (p : Plan υ α) (acts : List (Act υ))
    (st : Store υ) (r : ResultSet) :
    (p.account config acts st r).entries = (p.marks config acts st r).filterMap Mark.entry? := by
  induction p generalizing acts st r with
  | done value => rfl
  | exhausted => rfl
  | report spans notice next ih => exact ih acts (st.report spans notice) r
  | results update next ih => exact ih r acts st (update r)
  | invoke spans step args next ih =>
      simp only [account_invoke, marks_invoke]
      cases Entry.course config ⟨⟨step, args⟩, spans, acts, st⟩ with
      | ended mid s left => exact congrArg (_ :: ·) (ih s left mid r)
      | unwound mid payload => rfl
      | pending mid rest => rfl
      | exhausted mid => rfl

theorem marks_bind (config : Config) (p : Plan υ α) (f : α → Plan υ β) (acts : List (Act υ))
    (st : Store υ) (r : ResultSet) :
    (p.bind f).marks config acts st r = p.marks config acts st r ++
      match (p.account config acts st r).halt with
      | .ended mid value left =>
          (f value).marks config left mid (p.account config acts st r).results
      | _ => [] := by
  induction p generalizing acts st r with
  | done value => rfl
  | exhausted => rfl
  | report spans notice next ih => exact congrArg (_ :: ·) (ih acts _ r)
  | results update next ih => exact ih r acts st _
  | invoke spans step args next ih =>
      simp only [bind, marks_invoke, account_invoke]
      cases Entry.course config ⟨⟨step, args⟩, spans, acts, st⟩ with
      | ended mid s left => simp only [ih, List.cons_append]
      | unwound mid payload => rfl
      | pending mid rest => rfl
      | exhausted mid => rfl

/-- A plan that goes on where another one ended reports what that one did first. -/
theorem emitted_bind (config : Config) (p : Plan υ α) (f : α → Plan υ β) (acts : List (Act υ))
    (st : Store υ) (r : ResultSet) :
    (p.bind f).emitted config acts st r = p.emitted config acts st r ++
      match (p.account config acts st r).halt with
      | .ended mid value left =>
          (f value).emitted config left mid (p.account config acts st r).results
      | _ => [] := by
  rw [emitted_eq_flatMap_marks, marks_bind, List.flatMap_append, ← emitted_eq_flatMap_marks]
  cases (p.account config acts st r).halt with
  | ended mid value left => simp only [emitted_eq_flatMap_marks]
  | unwound mid payload => rfl
  | pending mid onDrop => rfl
  | exhausted mid => rfl

/-- What an invocation reports is a part of what the plan does that makes it. -/
theorem emitted_infix {config : Config} {p : Plan υ α} {acts : List (Act υ)} {st : Store υ}
    {r : ResultSet} {entry : Entry υ} (hmem : entry ∈ (p.account config acts st r).entries) :
    entry.emitted config <:+: p.emitted config acts st r := by
  rw [entries_eq_filterMap_marks] at hmem
  obtain ⟨mark, hmark, hentry⟩ := List.mem_filterMap.1 hmem
  rw [emitted_eq_flatMap_marks]
  cases mark with
  | said event => cases hentry
  | made made =>
      cases hentry
      obtain ⟨before, after, hsplit⟩ := List.append_of_mem hmark
      rw [hsplit, List.flatMap_append, List.flatMap_cons, ← List.append_assoc]
      exact (List.suffix_append _ _).isInfix.trans (List.prefix_append _ _).isInfix

/-! ## What plans do on every path -/

/-- Whether a plan, on every path, makes its invocations under no spans of its own. -/
def Bare : Plan υ α → Prop
  | done _ => True
  | exhausted => True
  | report _ _ next => next.Bare
  | results _ next => ∀ r, (next r).Bare
  | invoke spans _ _ next => spans = [] ∧ ∀ s, (next s).Bare

/-- The invocations of such a plan are made under the spans that it is carried out under. -/
theorem Bare.spans_of_mem {config : Config} {p : Plan υ α} (bare : p.Bare) {spans : List Span}
    {acts : List (Act υ)} {st : Store υ} {r : ResultSet} {entry : Entry υ}
    (hmem : entry ∈ ((p.under spans).account config acts st r).entries) : entry.spans = spans := by
  induction p generalizing acts st r with
  | done value => cases hmem
  | exhausted => cases hmem
  | report inner notice next ih => exact ih bare hmem
  | results update next ih => exact ih r (bare r) hmem
  | invoke inner step args next ih =>
      obtain ⟨rfl, hnext⟩ := bare
      rcases mem_account_invoke.1 hmem with rfl | ⟨mid, s, left, -, hmem⟩
      · exact List.append_nil spans
      · exact ih s (hnext s) hmem

/-- Whether a plan, on every path, reports nothing else, and does nothing under spans of its own. -/
def Tells (allowed : Notice → Prop) : Plan υ α → Prop
  | done _ => True
  | exhausted => True
  | report spans notice next => spans = [] ∧ allowed notice ∧ next.Tells allowed
  | results _ next => ∀ r, (next r).Tells allowed
  | invoke spans _ _ next => spans = [] ∧ ∀ s, (next s).Tells allowed

variable {allowed : Notice → Prop}

theorem Tells.bind {p : Plan υ α} {f : α → Plan υ β} (tells : p.Tells allowed)
    (rest : ∀ a, (f a).Tells allowed) : (p.bind f).Tells allowed := by
  induction p with
  | done value => exact rest value
  | exhausted => trivial
  | report spans notice next ih => exact ⟨tells.1, tells.2.1, ih tells.2.2⟩
  | results update next ih => exact fun r => ih r (tells r)
  | invoke spans step args next ih => exact ⟨tells.1, fun s => ih s (tells.2 s)⟩

theorem Tells.bare {p : Plan υ α} (tells : p.Tells allowed) : p.Bare := by
  induction p with
  | done value => trivial
  | exhausted => trivial
  | report spans notice next ih => exact ih tells.2.2
  | results update next ih => exact fun r => ih r (tells r)
  | invoke spans step args next ih => exact ⟨tells.1, fun s => ih s (tells.2 s)⟩

end Plan

/-- The notices of items: how their predicates were answered, and which actions follow. -/
def Notice.ofItem : Notice → Bool
  | branchMatched _ | predicateFalse _ | noBranchMatched | runningAction .. | loopFinished _ => true
  | _ => false

theorem actionsPlan_tells (position : Nat) (actions : List (Step υ)) (carried : Values) :
    (actionsPlan position actions carried).Tells (·.ofItem = true) := by
  induction actions generalizing position carried with
  | nil => trivial
  | cons action rest ih =>
      refine ⟨rfl, rfl, rfl, fun s => ?_⟩
      cases s with
      | error e => trivial
      | ok output => exact ih (position + 1) output

theorem slotPlan_tells (actions : List (Step υ)) (input : Values) :
    (slotPlan actions input).Tells (·.ofItem = true) := by
  unfold slotPlan
  split
  · trivial
  · exact actionsPlan_tells 0 actions input

theorem Slot.plan_tells {notices : List Notice} (ofItem : ∀ notice ∈ notices, notice.ofItem = true)
    (slot : Slot υ) : (slot.plan notices).Tells (·.ofItem = true) := by
  refine ⟨rfl, fun s => ?_⟩
  cases s with
  | error e => trivial
  | ok verdict =>
      dsimp only
      split
      · induction notices with
        | nil => exact (slotPlan_tells slot.actions .empty).bind fun _ => trivial
        | cons notice notices ih =>
            obtain ⟨hnotice, hnotices⟩ := List.forall_mem_cons.1 ofItem
            exact ⟨rfl, hnotice, ih hnotices⟩
      · trivial

namespace Item

theorem evaluatePlan_tells (branch : Nat) (slots : List (Slot υ)) :
    (evaluatePlan branch slots).Tells (·.ofItem = true) := by
  induction slots generalizing branch with
  | nil => exact ⟨rfl, rfl, trivial⟩
  | cons slot rest ih =>
      rw [evaluatePlan_cons]
      refine (slot.plan_tells (List.forall_mem_singleton.2 rfl)).bind fun outcome => ?_
      rcases outcome with e | _ | output
      · trivial
      · exact ⟨rfl, rfl, ih (branch + 1)⟩
      · trivial

theorem repeatPlan_tells (config : Config) (slot : Slot υ) (passes : Nat) (last : Option Values)
    (limit : Nat) : (repeatPlan config slot passes last limit).Tells (·.ofItem = true) := by
  induction limit generalizing passes last with
  | zero => trivial
  | succ limit ih =>
      rw [repeatPlan_succ]
      refine (slot.plan_tells (List.forall_mem_nil _)).bind fun outcome => ?_
      rcases outcome with e | _ | output
      · trivial
      · exact ⟨rfl, rfl, trivial⟩
      · exact ih (passes + 1) (some output)

/-- In an item a run reports by itself nothing but notices of items, and enters no spans. -/
theorem plan_tells (limit : Nat) (config : Config) (item : Item υ) :
    (item.plan limit config).Tells (·.ofItem = true) := by
  unfold plan
  split
  · exact evaluatePlan_tells 0 item.slots
  · exact evaluatePlan_tells 0 item.slots
  · split
    · exact repeatPlan_tells config _ 0 none limit
    · trivial

theorem plan_bare (limit : Nat) (config : Config) (item : Item υ) : (item.plan limit config).Bare :=
  (item.plan_tells limit config).bare

end Item

end Stepwise
