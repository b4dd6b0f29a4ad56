import Stepwise.Proofs.Tasks
import Stepwise.Proofs.Turns
/-!
# Outputs that nobody looks at

Of what a predicate outputs only the verdict counts, and of what the last action of a slot outputs
only the first value.  So two runs whose steps differ in nothing else take the same turns and come
to the same results: what one output has beyond that reaches neither a later step nor the end.
-/

namespace Stepwise

variable {υ α β γ δ : Type}

/-! ## Runs that look alike -/

/-- Which moments of runs look alike: what the outside world does from then on, and the store.
Reports make no difference. -/
structure Semblance (υ : Type) where
  Alike : List (Act υ) → Store υ → List (Act υ) → Store υ → Prop
  report : ∀ {acts acts' st st'} (spans : List Span) (notice notice' : Notice),
    Alike acts st acts' st' → Alike acts (st.report spans notice) acts' (st'.report spans notice')

/-- The same error, or two values that are related. -/
inductive Corresponds (rel : α → β → Prop) : Except FlowError α → Except FlowError β → Prop
  | ok {a : α} {b : β} (related : rel a b) : Corresponds rel (.ok a) (.ok b)
  | error (e : FlowError) : Corresponds rel (.error e) (.error e)

theorem Corresponds.eq {r r' : Except FlowError α} (same : Corresponds Eq r r') : r = r' := by
  cases same with
  | ok related => rw [related]
  | error e => rfl

/-- Both come to the end in the same way: at moments that look alike, with values that are related,
or with the same panic. -/
inductive Halt.Resembles (like : Semblance υ) (rel : α → β → Prop) : Halt υ α → Halt υ β → Prop
  | ended {st st' : Store υ} {a : α} {b : β} {left left' : List (Act υ)}
      (alike : like.Alike left st left' st') (related : rel a b) :
      Resembles like rel (.ended st a left) (.ended st' b left')
  | unwound (st st' : Store υ) (payload : Panic) :
      Resembles like rel (.unwound st payload) (.unwound st' payload)
  | pending (st st' : Store υ) (onDrop onDrop' : List Handle) :
      Resembles like rel (.pending st onDrop) (.pending st' onDrop')
  | exhausted (st st' : Store υ) : Resembles like rel (.exhausted st) (.exhausted st')

/-- The same was done with the same arguments. -/
structure Account.Resembles (like : Semblance υ) (rel : α → β → Prop) (a : Account υ α)
    (a' : Account υ β) : Prop where
  args : a.entries.map (·.args) = a'.entries.map (·.args)
  results : a.results = a'.results
  halt : a.halt.Resembles like rel a'.halt

theorem Account.Resembles.andThen {like : Semblance υ} {rel : α → β → Prop} {rel' : γ → δ → Prop}
    {a : Account υ α} {a' : Account υ β} (resembles : a.Resembles like rel a')
    {f : α → List (Act υ) → Store υ → ResultSet → Account υ γ}
    {g : β → List (Act υ) → Store υ → ResultSet → Account υ δ}
    (rest : ∀ x y left left' st st', rel x y → like.Alike left st left' st' →
      (f x left st a.results).Resembles like rel' (g y left' st' a.results)) :
    (a.andThen f).Resembles like rel' (a'.andThen g) := by
  obtain ⟨entries, results, halt⟩ := a
  obtain ⟨entries', results', halt'⟩ := a'
  obtain ⟨hargs, rfl, hhalt⟩ := resembles
  cases hhalt with
  | ended alike related =>
      obtain ⟨hlater, hresults, hend⟩ := rest _ _ _ _ _ _ related alike
      exact ⟨by simp only [Account.andThen, List.map_append, hargs, hlater], hresults, hend⟩
  | unwound st st' payload => exact ⟨hargs, rfl, .unwound st st' payload⟩
  | pending st st' onDrop onDrop' => exact ⟨hargs, rfl, .pending st st' onDrop onDrop'⟩
  | exhausted st st' => exact ⟨hargs, rfl, .exhausted st st'⟩

/-- From moments that look alike the plans do the same. -/
def Plan.Resembles (like : Semblance υ) (config : Config) (rel : α → β → Prop) (p : Plan υ α)
    (p' : Plan υ β) : Prop :=
  ∀ spans acts acts' st st' r, like.Alike acts st acts' st' →
    ((p.under spans).account config acts st r).Resembles like rel
      ((p'.under spans).account config acts' st' r)

/-- Invoked with the same arguments at moments that look alike, the steps come to the same, but for
outputs that only need to be related. -/
def Step.Varies (like : Semblance υ) (config : Config) (rel : Values → Values → Prop)
    (step step' : Step υ) : Prop :=
  ∀ args spans acts acts' st st', like.Alike acts st acts' st' →
    (Entry.course config ⟨⟨step, args⟩, spans, acts, st⟩).halt.Resembles like (Corresponds rel)
      (Entry.course config ⟨⟨step', args⟩, spans, acts', st'⟩).halt

namespace Plan.Resembles

variable {like : Semblance υ} {config : Config} {rel : α → β → Prop} {rel' : γ → δ → Prop}

theorem done {a : α} {b : β} (related : rel a b) :
    (Plan.done a).Resembles like config rel (.done b) :=
  fun _ _ _ _ _ _ alike => ⟨rfl, rfl, .ended alike related⟩

theorem exhausted : (Plan.exhausted : Plan υ α).Resembles like config rel .exhausted :=
  fun _ _ _ _ _ _ _ => ⟨rfl, rfl, .exhausted _ _⟩

theorem report {p : Plan υ α} {p' : Plan υ β} (resembles : p.Resembles like config rel p')
    (spans : List Span) (notice notice' : Notice) :
    (p.report spans notice).Resembles like config rel (p'.report spans notice') :=
  fun outer _ _ _ _ r alike => resembles outer _ _ _ _ r
    (like.report (outer ++ spans) notice notice' alike)

theorem results {next : ResultSet → Plan υ α} {next' : ResultSet → Plan υ β}
    (update : ResultSet → ResultSet)
    (resembles : ∀ r, (next r).Resembles like config rel (next' r)) :
    (Plan.results update next).Resembles like config rel (.results update next') :=
  fun spans _ _ _ _ r alike => resembles r spans _ _ _ _ (update r) alike

theorem invoke {tolerated : Values → Values → Prop} {step step' : Step υ}
    (varies : step.Varies like config tolerated step') (spans : List Span) (args : Values)
    {next : Settlement → Plan υ α} {next' : Settlement → Plan υ β}
    (resembles : ∀ s s', Corresponds tolerated s s' →
      (next s).Resembles like config rel (next' s')) :
    (Plan.invoke spans step args next).Resembles like config rel
      (.invoke spans step' args next') := by
  intro outer acts acts' st st' r alike
  have hentry := varies args (outer ++ spans) acts acts' st st' alike
  have hfirst : (Account.ofEntry config ⟨⟨step, args⟩, outer ++ spans, acts, st⟩ r).Resembles like
      (Corresponds tolerated)
        (Account.ofEntry config ⟨⟨step', args⟩, outer ++ spans, acts', st'⟩ r) :=
    ⟨rfl, rfl, hentry⟩
  exact hfirst.andThen fun s s' left left' mid mid' hs hmid =>
    resembles s s' hs outer left left' mid mid' r hmid

theorem bind {p : Plan υ α} {p' : Plan υ β} (resembles : p.Resembles like config rel p')
    {f : α → Plan υ γ} {g : β → Plan υ δ}
    (rest : ∀ a b, rel a b → (f a).Resembles like config rel' (g b)) :
    (p.bind f).Resembles like config rel' (p'.bind g) := by
  intro spans acts acts' st st' r alike
  simp only [Plan.under_bind, Plan.account_bind]
  refine (resembles spans acts acts' st st' r alike).andThen ?_
  exact fun a b left left' mid mid' hab hmid => rest a b hab spans left left' mid mid' _ hmid

theorem within {p : Plan υ α} {p' : Plan υ β} (resembles : p.Resembles like config rel p')
    (span : Span) : (p.within span).Resembles like config rel (p'.within span) := by
  intro spans acts acts' st st' r alike
  rw [Plan.under_within, Plan.under_within]
  exact resembles (spans ++ [span]) acts acts' st st' r alike

end Plan.Resembles

/-! ## Steps that vary in what nobody looks at -/

namespace Values

def SameVerdict (vs vs' : Values) : Prop := vs.isTruthy = vs'.isTruthy

def SameFirst (vs vs' : Values) : Prop := vs.first? = vs'.first?

end Values

/-- The last actions vary in outputs with the same first value, and the others not at all. -/
inductive ActionsVary (like : Semblance υ) (config : Config) : List (Step υ) → List (Step υ) → Prop
  | nil : ActionsVary like config [] []
  | last {action action' : Step υ} (varies : action.Varies like config Values.SameFirst action') :
      ActionsVary like config [action] [action']
  | cons {action action' next next' : Step υ} {rest rest' : List (Step υ)}
      (same : action.Varies like config Eq action')
      (later : ActionsVary like config (next :: rest) (next' :: rest')) :
      ActionsVary like config (action :: next :: rest) (action' :: next' :: rest')

structure Slot.Varies (like : Semblance υ) (config : Config) (slot slot' : Slot υ) : Prop where
  predicate : slot.predicate.Varies like config Values.SameVerdict slot'.predicate
  actions : ActionsVary like config slot.actions slot'.actions

structure Item.Varies (like : Semblance υ) (config : Config) (item item' : Item υ) : Prop where
  kind : item.kind = item'.kind
  slots : List.Forall₂ (Slot.Varies like config) item.slots item'.slots

/-- Told the same at moments that look alike, a resolver comes to the same. -/
def Resolver.Heeds (like : Semblance υ) (resolver : Resolver υ) : Prop :=
  ∀ completion acts acts' st st', like.Alike acts st acts' st' →
    ((resolver completion).run st).1 = ((resolver completion).run st').1 ∧
      like.Alike acts ((resolver completion).run st).2 acts' ((resolver completion).run st').2

structure Flow.Varies (like : Semblance υ) (flow flow' : Flow υ) : Prop where
  config : flow'.config = flow.config
  buildError : flow'.buildError = flow.buildError
  resolvers : flow'.resolvers = flow.resolvers
  heeds : ∀ resolver ∈ flow.resolvers, resolver.Heeds like
  items : List.Forall₂ (Item.Varies like flow.config) flow.sequence.items flow'.sequence.items

/-! ## The plans of the engine -/

section Plans

variable {like : Semblance υ} {config : Config}

theorem ActionsVary.resembles {actions actions' : List (Step υ)}
    (varies : ActionsVary like config actions actions') (position : Nat) (carried : Values) :
    (actionsPlan position actions carried).Resembles like config (Corresponds Values.SameFirst)
      (actionsPlan position actions' carried) := by
  induction varies generalizing position carried with
  | nil => exact .done (.ok rfl)
  | last varies =>
      refine .report (.invoke varies [] carried fun s s' hs => ?_) [] _ _
      cases hs with
      | ok related => exact .done (.ok related)
      | error e => exact .done (.error e)
  | cons same later ih =>
      refine .report (.invoke same [] carried fun s s' hs => ?_) [] _ _
      cases hs with
      | ok related =>
          subst related
          exact ih (position + 1) _
      | error e => exact .done (.error e)

theorem ActionsVary.slotPlan {actions actions' : List (Step υ)}
    (varies : ActionsVary like config actions actions') (input : Values) :
    (slotPlan actions input).Resembles like config (Corresponds Values.SameFirst)
      (slotPlan actions' input) := by
  cases varies with
  | nil => exact .done (.ok rfl)
  | last varies => exact (ActionsVary.last varies).resembles 0 input
  | cons same later => exact (ActionsVary.cons same later).resembles 0 input

/-- Of an output only the first value is looked at. -/
abbrev SameOutput : Option Values → Option Values → Prop := Option.Rel Values.SameFirst

theorem Slot.Varies.plan {slot slot' : Slot υ} (varies : slot.Varies like config slot')
    (notices : List Notice) :
    (slot.plan notices).Resembles like config (Corresponds SameOutput) (slot'.plan notices) := by
  refine .invoke varies.predicate [] .empty fun s s' hs => ?_
  cases hs with
  | error e => exact .done (.error e)
  | @ok verdict verdict' related =>
      have hverdict : verdict.isTruthy = verdict'.isTruthy := related
      dsimp only
      rw [hverdict]
      split
      · induction notices with
        | nil =>
            refine (varies.actions.slotPlan .empty).bind fun s s' hs => .done ?_
            cases hs with
            | ok hfirst => exact .ok (.some hfirst)
            | error e => exact .error e
        | cons notice notices ih => exact .report ih [] notice notice
      · exact .done (.ok .none)

namespace Item

theorem evaluatePlan_resembles {slots slots' : List (Slot υ)}
    (varies : List.Forall₂ (Slot.Varies like config) slots slots') (branch : Nat) :
    (evaluatePlan branch slots).Resembles like config (Corresponds SameOutput)
      (evaluatePlan branch slots') := by
  induction varies generalizing branch with
  | nil => exact .report (.done (.ok .none)) [] _ _
  | cons hslot _ ih =>
      rw [evaluatePlan_cons, evaluatePlan_cons]
      refine (hslot.plan _).bind fun r r' hr => ?_
      rcases hr with ⟨hfirst⟩ | e
      · cases hfirst with
        | none => exact .report (ih (branch + 1)) [] _ _
        | some hfirst => exact .done (.ok (.some hfirst))
      · exact .done (.error e)

theorem repeatPlan_resembles {slot slot' : Slot υ} (varies : slot.Varies like config slot')
    (passes : Nat) {last last' : Option Values} (hlast : SameOutput last last') (limit : Nat) :
    (repeatPlan config slot passes last limit).Resembles like config (Corresponds SameOutput)
      (repeatPlan config slot' passes last' limit) := by
  induction limit generalizing passes last last' with
  | zero => exact .exhausted
  | succ limit ih =>
      rw [repeatPlan_succ, repeatPlan_succ]
      refine (varies.plan []).bind fun r r' hr => ?_
      rcases hr with ⟨hfirst⟩ | e
      · cases hfirst with
        | none =>
            refine .report (.done (.ok ?_)) [] _ _
            split
            · exact hlast
            · exact .none
        | some hfirst => exact ih (passes + 1) (.some hfirst)
      · exact .done (.error e)

theorem Varies.plan {item item' : Item υ} (varies : item.Varies like config item') (limit : Nat) :
    (item.plan limit config).Resembles like config (Corresponds SameOutput)
      (item'.plan limit config) := by
  obtain ⟨kind, slots, closed⟩ := item
  obtain ⟨kind', slots', closed'⟩ := item'
  obtain ⟨rfl, hslots⟩ := varies
  cases kind with
  | chain => exact evaluatePlan_resembles hslots 0
  | condition => exact evaluatePlan_resembles hslots 0
  | loop =>
      cases hslots with
      | nil => exact .done (.ok .none)
      | cons hslot _ => exact repeatPlan_resembles hslot 0 .none limit

end Item

theorem itemsPlan_resembles {items items' : List (Item υ)}
    (varies : List.Forall₂ (Item.Varies like config) items items') (limit index : Nat) :
    (itemsPlan limit config index items).Resembles like config (Corresponds Eq)
      (itemsPlan limit config index items') := by
  induction varies generalizing index with
  | nil => exact .done (.ok rfl)
  | cons hitem _ ih =>
      rw [itemsPlan, itemsPlan, hitem.kind]
      refine ((hitem.plan limit).within _).bind fun r r' hr => ?_
      rcases hr with ⟨hfirst⟩ | e
      · cases hfirst with
        | none => exact ih (index + 1)
        | @some values values' hfirst =>
            have hpush : (·.pushFirst values) = (ResultSet.pushFirst · values') := by
              funext r
              unfold ResultSet.pushFirst
              rw [hfirst]
            dsimp only
            rw [hpush]
            exact .results _ fun _ => ih (index + 1)
      · exact .report (.done (.error e)) [] _ _

/-! ## Turns -/

/-- At slots with the same number the same is done with the same arguments. -/
def Turn.Parallel (t t' : Turn υ) : Prop :=
  t.branch = t'.branch ∧ t.entries.map (·.args) = t'.entries.map (·.args)

variable {acts acts' : List (Act υ)} {st st' : Store υ}

theorem Slot.Varies.turn {slot slot' : Slot υ} (varies : slot.Varies like config slot')
    (notices : List Notice) (branch : Nat) (spans : List Span)
    (alike : like.Alike acts st acts' st') :
    (slot.turn config notices branch spans acts st).Parallel
        (slot'.turn config notices branch spans acts' st') ∧
      (slot.turn config notices branch spans acts st).halt.Resembles like (Corresponds SameOutput)
        (slot'.turn config notices branch spans acts' st').halt := by
  have hplan := varies.plan notices spans acts acts' st st' .empty alike
  rw [slot.account_plan config notices branch, slot'.account_plan config notices branch] at hplan
  exact ⟨⟨rfl, hplan.args⟩, hplan.halt⟩

theorem conditionTurns_parallel {slots slots' : List (Slot υ)}
    (varies : List.Forall₂ (Slot.Varies like config) slots slots') (spans : List Span)
    (branch : Nat) (alike : like.Alike acts st acts' st') :
    List.Forall₂ Turn.Parallel (conditionTurns config spans branch slots acts st)
      (conditionTurns config spans branch slots' acts' st') := by
  induction varies generalizing branch acts acts' st st' with
  | nil => exact .nil
  | @cons slot slot' _ _ hslot _ ih =>
      obtain ⟨hturn, hhalt⟩ := hslot.turn [.branchMatched branch] branch spans alike
      refine .cons hturn ?_
      generalize (slot.turn config [.branchMatched branch] branch spans acts st).halt = halt,
        (slot'.turn config [.branchMatched branch] branch spans acts' st').halt = halt' at hhalt ⊢
      rcases hhalt with ⟨hmid, related⟩
      · rcases related with ⟨hfirst⟩ | e
        · cases hfirst with
          | none => exact ih (branch + 1) (like.report spans _ _ hmid)
          | some hfirst => exact .nil
        · exact .nil
      all_goals exact .nil

theorem loopTurns_parallel {slot slot' : Slot υ} (varies : slot.Varies like config slot')
    (spans : List Span) (limit : Nat) (alike : like.Alike acts st acts' st') :
    List.Forall₂ Turn.Parallel (loopTurns config spans slot limit acts st)
      (loopTurns config spans slot' limit acts' st') := by
  induction limit generalizing acts acts' st st' with
  | zero => exact .nil
  | succ limit ih =>
      obtain ⟨hturn, hhalt⟩ := varies.turn [] 0 spans alike
      refine .cons hturn ?_
      generalize (slot.turn config [] 0 spans acts st).halt = halt,
        (slot'.turn config [] 0 spans acts' st').halt = halt' at hhalt ⊢
      rcases hhalt with ⟨hmid, related⟩
      · rcases related with ⟨hfirst⟩ | e
        · cases hfirst with
          | none => exact .nil
          | some hfirst => exact ih hmid
        · exact .nil
      all_goals exact .nil

theorem Item.Varies.turns {item item' : Item υ} (varies : item.Varies like config item')
    (limit : Nat) (spans : List Span) (alike : like.Alike acts st acts' st') :
    List.Forall₂ Turn.Parallel (item.turns limit config spans acts st)
      (item'.turns limit config spans acts' st') := by
  obtain ⟨kind, slots, closed⟩ := item
  obtain ⟨kind', slots', closed'⟩ := item'
  obtain ⟨rfl, hslots⟩ := varies
  cases kind with
  | chain => exact conditionTurns_parallel hslots spans 0 alike
  | condition => exact conditionTurns_parallel hslots spans 0 alike
  | loop =>
      cases hslots with
      | nil => exact .nil
      | cons hslot _ => exact loopTurns_parallel hslot spans limit alike

theorem itemsTurns_parallel {items items' : List (Item υ)}
    (varies : List.Forall₂ (Item.Varies like config) items items') (limit : Nat)
    (spans : List Span) (index : Nat) (alike : like.Alike acts st acts' st') :
    List.Forall₂ (List.Forall₂ Turn.Parallel) (itemsTurns limit config spans index items acts st)
      (itemsTurns limit config spans index items' acts' st') := by
  induction varies generalizing index acts acts' st st' with
  | nil => exact .nil
  | @cons item item' _ _ hitem _ ih =>
      rw [itemsTurns, itemsTurns, ← hitem.kind]
      refine .cons (hitem.turns limit _ alike) ?_
      have hplan :=
        hitem.plan limit (spans ++ [Span.item index item.kind]) acts acts' st st' .empty alike
      rw [Item.account_plan, Item.account_plan] at hplan
      have hhalt := hplan.halt
      generalize
        (item.passage limit config (spans ++ [Span.item index item.kind]) acts st).course = c,
        (item'.passage limit config (spans ++ [Span.item index item.kind]) acts' st').course = c'
        at hhalt ⊢
      cases c <;> cases c' <;> cases hhalt
      case ended.ended.ended related hmid =>
        cases related with
        | ok _ => exact ih (index + 1) hmid
        | error e => exact .nil
      all_goals exact .nil

end Plans

/-! ## Runs -/

namespace Flow

variable {like : Semblance υ}

theorem Varies.plan {flow flow' : Flow υ} (varies : flow.Varies like flow') (limit : Nat) :
    (flow.plan limit).Resembles like flow.config (Corresponds Eq) (flow'.plan limit) := by
  unfold Flow.plan
  rw [varies.config, varies.buildError]
  refine .results _ fun _ => .within ?_ _
  cases flow.buildError with
  | some error => exact .report (.done (.error _)) [] _ _
  | none =>
      refine .report ((itemsPlan_resembles varies.items limit 0).bind fun r r' hr => ?_) [] _ _
      cases hr with
      | ok _ => exact .results _ fun results => .report (.done (.ok rfl)) [] _ _
      | error e => exact .report (.done (.error e)) [] _ _

theorem notify_heeds {resolvers : List (Resolver υ)}
    (heeds : ∀ resolver ∈ resolvers, resolver.Heeds like) (completion : Completion)
    {acts acts' : List (Act υ)} {st st' : Store υ} (alike : like.Alike acts st acts' st') :
    ((notify completion resolvers).run st).1 = ((notify completion resolvers).run st').1 ∧
      like.Alike acts ((notify completion resolvers).run st).2 acts'
        ((notify completion resolvers).run st').2 := by
  induction resolvers generalizing st st' with
  | nil => exact ⟨rfl, alike⟩
  | cons resolver rest ih =>
      obtain ⟨hresolver, hrest⟩ := List.forall_mem_cons.1 heeds
      obtain ⟨hresult, halike⟩ := hresolver completion acts acts' st st' alike
      simp only [notify, Program.bind_eq, Program.run_bind]
      rcases hrun : (resolver completion).run st with ⟨r, mid⟩
      rcases hrun' : (resolver completion).run st' with ⟨r', mid'⟩
      rw [hrun, hrun'] at hresult halike
      obtain rfl : r = r' := hresult
      cases r with
      | error payload => exact ⟨rfl, halike⟩
      | ok done => exact ih hrest halike

end Flow

theorem Halt.Resembles.told {like : Semblance υ} {resolvers : List (Resolver υ)}
    (heeds : ∀ resolver ∈ resolvers, resolver.Heeds like) {halt halt' : Halt υ Completion}
    (resembles : halt.Resembles like (Corresponds Eq) halt') :
    (halt.told [] resolvers).Resembles like (Corresponds Eq) (halt'.told [] resolvers) := by
  cases resembles with
  | @ended st st' completion completion' left left' alike related =>
      obtain rfl := related.eq
      obtain ⟨hresult, halike⟩ := Flow.notify_heeds heeds completion alike
      simp only [Halt.told, Program.under_nil]
      rcases hrun : (Flow.notify completion resolvers).run st with ⟨r, last⟩
      rcases hrun' : (Flow.notify completion resolvers).run st' with ⟨r', last'⟩
      rw [hrun, hrun'] at hresult halike
      obtain rfl : r = r' := hresult
      cases r with
      | error payload => exact .unwound last last' payload
      | ok done => exact .ended halike related
  | unwound st st' payload => exact .unwound st st' payload
  | pending st st' onDrop onDrop' => exact .pending st st' onDrop onDrop'
  | exhausted st st' => exact .exhausted st st'

/-- Two runs, of flows whose predicates vary in outputs with the same verdict, whose last actions of
slots vary in outputs with the same first value, and which do not vary otherwise.  They take the
same turns, in which they make the same invocations with the same arguments, and come to the same
outcome and results.  In every turn of a run the predicate and the first action get no arguments. -/
theorem Host.unseen_outputs_change_nothing (limit : Nat) {h h' : Host υ} {acts acts' : List (Act υ)}
    {like : Semblance υ} (varies : h.flow.Varies like h'.flow)
    (alike : like.Alike acts h.store acts' h'.store) :
    let run := h.scene limit acts
    let run' := h'.scene limit acts'
    List.Forall₂ (List.Forall₂ Turn.Parallel) run.turns run'.turns ∧
    ((h.start limit).watch acts).1 = ((h'.start limit).watch acts').1 ∧
    ((h.start limit).watch acts).2.flow.results = ((h'.start limit).watch acts').2.flow.results ∧
    ∀ S ∈ [run, run'], S.entries = S.turns.flatten.flatMap Turn.entries ∧
      List.Forall₂ (fun ts item => ∀ t ∈ ts, t.Fits item.slots) S.turns
        (S.flow.sequence.items.take S.turns.length) := by
  intro run run'
  have hconfig : run'.flow.config = run.flow.config := varies.config
  -- A run begins without results, so it does not matter what earlier ones left.
  have haccount : run.account.Resembles like (Corresponds Eq) run'.account := by
    have hplan := varies.plan limit [] acts acts' h.store h'.store .empty alike
    unfold Scene.account
    rw [hconfig]
    exact hplan
  have hhalt : run.halt.Resembles like (Corresponds Eq) run'.halt := by
    unfold Scene.halt
    rw [show run'.flow.resolvers = run.flow.resolvers from varies.resolvers]
    exact haccount.halt.told varies.heeds
  have hturns : List.Forall₂ (List.Forall₂ Turn.Parallel) run.turns run'.turns := by
    unfold Scene.turns
    rw [hconfig, show run'.flow.buildError = run.flow.buildError from varies.buildError]
    cases run.flow.buildError with
    | some error => exact .nil
    | none => exact itemsTurns_parallel varies.items limit _ 0 (like.report _ _ _ alike)
  have hwatch := h.watch_eq_halt limit acts
  have hwatch' := h'.watch_eq_halt limit acts'
  change _ = h.outcomeOf run.account.results run.halt at hwatch
  change _ = h'.outcomeOf run'.account.results run'.halt at hwatch'
  rw [hwatch, hwatch', ← haccount.results]
  generalize run.halt = halt, run'.halt = halt' at hhalt ⊢
  refine ⟨hturns, ?_, ?_, fun S _ => ⟨S.entries_turns, S.turns_fit⟩⟩
  · cases hhalt with
    | ended _ related => exact congrArg Outcome.ended related.eq
    | unwound st st' payload => rfl
    | pending st st' onDrop onDrop' => rfl
    | exhausted st st' => rfl
  · cases halt <;> cases halt' <;> rfl

/-! ## Steps that compute -/

/-- The same state of user code, whatever was sent through the channels. -/
def sameUser (υ : Type) : Semblance υ where
  Alike acts st acts' st' := acts = acts' ∧ st.user = st'.user
  report _ _ _ alike := alike

/-- Computes its result and the new state of user code from its arguments and the state. -/
def Step.computing (f : Values → υ → Except Cause Values × υ) : Step υ :=
  .sync fun args => .modifyGet (f args)

theorem Step.course_computing (f : Values → υ → Except Cause Values × υ) (config : Config)
    (args : Values) (spans : List Span) (acts : List (Act υ)) (st : Store υ) :
    ∃ last, Entry.course config ⟨⟨.computing f, args⟩, spans, acts, st⟩ =
      .ended last (Settlement.ofResult (f args st.user).1) acts ∧
        last.user = (f args st.user).2 := by
  let mid : Store υ := { st.openChannel.2 with user := (f args st.user).2 }
  have hheld : mid.channel? st.openChannel.1 = some ⟨.held, true⟩ := by
    have hopened := st.channel?_openChannel st.openChannel.1
    rw [if_pos rfl] at hopened
    exact hopened
  have hbody : ((Program.modifyGet (f args) : Direct υ _).under spans).run st.openChannel.2 =
      (.ok (f args st.user).1, mid) := rfl
  exact ⟨_, Entry.course_of_sync rfl hbody hheld config, (mid.completes_settle _ _ _).user⟩

theorem Step.varies_computing {config : Config} {rel : Values → Values → Prop}
    {f g : Values → υ → Except Cause Values × υ}
    (results : ∀ args u, Corresponds rel (Settlement.ofResult (f args u).1)
      (Settlement.ofResult (g args u).1)) (states : ∀ args u, (f args u).2 = (g args u).2) :
    (Step.computing f).Varies (sameUser υ) config rel (.computing g) := by
  rintro args spans acts _ st st' ⟨rfl, huser⟩
  obtain ⟨last, hcourse, hlast⟩ := Step.course_computing f config args spans acts st
  obtain ⟨last', hcourse', hlast'⟩ := Step.course_computing g config args spans acts st'
  rw [hcourse, hcourse']
  refine .ended ⟨rfl, ?_⟩ (huser ▸ results args st.user)
  rw [hlast, hlast', huser, states]

/-- A condition and a loop, all of whose outputs end with the given values. -/
def wordyFlow (more : List Value) : Flow Nat :=
  { config := { recordLoopResults := true }
    sequence := { items := [
      ⟨.condition, [⟨.computing fun _ n => (.ok ⟨.bool (n == 0) :: more⟩, n),
        [.computing fun args n => (.ok (.single (.int args.length)), n + 1),
          .computing fun args n => (.ok ⟨.int n :: (args.toList ++ more)⟩, n)]⟩], false⟩,
      ⟨.loop, [⟨.computing fun _ n => (.ok ⟨.bool (n < 3) :: more⟩, n),
        [.computing fun args n => (.ok ⟨.int args.length :: more⟩, n + 1)]⟩], true⟩] } }

def wordyHost (more : List Value) : Host Nat := { store := { user := 0 }, flow := wordyFlow more }

theorem unseen_outputs_change_nothing_wordy :
    let plain := wordyHost []
    let wordy := wordyHost [.bool false, .int 7]
    ((plain.start 3).watch []).1 = ((wordy.start 3).watch []).1 ∧
      ((plain.start 3).watch []).2.flow.results = ⟨[.int 1, .int 0]⟩ ∧
      ((wordy.start 3).watch []).2.flow.results = ⟨[.int 1, .int 0]⟩ ∧
      (wordy.scene 3 []).turns.map List.length = [1, 3] := by
  intro plain wordy
  have varies : plain.flow.Varies (sameUser Nat) wordy.flow := by
    refine ⟨rfl, rfl, rfl, List.forall_mem_nil _, ?_⟩
    refine .cons ⟨rfl, .cons ⟨?_, .cons ?_ (.last ?_)⟩ .nil⟩
      (.cons ⟨rfl, .cons ⟨?_, .last ?_⟩ .nil⟩ .nil)
    all_goals exact Step.varies_computing (fun _ _ => .ok rfl) fun _ _ => rfl
  obtain ⟨-, houtcome, hresults, -⟩ :=
    Host.unseen_outputs_change_nothing 3 varies ⟨(rfl : [] = []), rfl⟩
  have hints : ((plain.start 3).watch []).2.flow.results.ints = [1, 0].map some := by decide +kernel
  have hplain : ((plain.start 3).watch []).2.flow.results = ⟨[.int 1, .int 0]⟩ :=
    ResultSet.eq_of_ints hints
  have hcount : (wordy.scene 3 []).turns.map List.length = [1, 3] := by decide +kernel
  exact ⟨houtcome, hplain, hresults.symm.trans hplain, hcount⟩

end Stepwise
