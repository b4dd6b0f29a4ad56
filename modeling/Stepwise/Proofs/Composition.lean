import Stepwise.Proofs.Dispatch
import Stepwise.Proofs.Grammar
import Stepwise.Proofs.Passages
/-!
# Actions one after the other

To run actions that go on as others is to run the first and then, if they come to an output, the
others on it.  Without actions nothing is passed on: where none come first, the others get the
input instead.  So the actions of a chain begin with its initial values, on every run.
-/

namespace Stepwise

variable {υ α : Type}

/-! ## Going on with an output -/

/-- Goes on with a program where actions came to an output. -/
def Program.onOutput (next : Values → Suspending υ Settlement) :
    Settlement → Suspending υ Settlement
  | .ok output => next output
  | .error e => .done (.error e)

/-- Goes on with a plan where actions came to an output. -/
def Plan.onOutput (next : Values → Plan υ Settlement) : Settlement → Plan υ Settlement
  | .ok output => next output
  | .error e => .done (.error e)

/-- Goes on where actions came to an output. -/
def Account.onOutput (next : Values → List (Act υ) → Store υ → Account υ Settlement)
    (a : Account υ Settlement) : Account υ Settlement :=
  match a.halt with
  | .ended st (.ok output) left =>
      let rest := next output left st
      { rest with entries := a.entries ++ rest.entries }
  | _ => a

/-- What actions pass on that come to an output: without any, it is what they got. -/
def passedOn (actions : List (Step υ)) (input output : Values) : Values :=
  if actions.isEmpty then input else output

theorem runActionsFrom_append (config : Config) (position : Nat) (actions others : List (Step υ))
    (carried : Values) :
    runActionsFrom config position (actions ++ others) carried =
      (runActionsFrom config position actions carried).bind
        (Program.onOutput (runActionsFrom config (position + actions.length) others)) := by
  induction actions generalizing position carried with
  | nil => rfl
  | cons action rest ih =>
      have hlength : position + (action :: rest).length = position + 1 + rest.length := by
        rw [List.length_cons]
        omega
      simp only [List.cons_append, runActionsFrom, Program.bind_eq, Program.bind_assoc, hlength]
      congr 1
      funext _
      congr 1
      funext s
      cases s with
      | ok output => exact ih (position + 1) output
      | error e => rfl

theorem actionsPlan_append (position : Nat) (actions others : List (Step υ)) (carried : Values) :
    actionsPlan position (actions ++ others) carried =
      (actionsPlan position actions carried).bind
        (Plan.onOutput (actionsPlan (position + actions.length) others)) := by
  induction actions generalizing position carried with
  | nil => rfl
  | cons action rest ih =>
      have hlength : position + (action :: rest).length = position + 1 + rest.length := by
        rw [List.length_cons]
        omega
      simp only [List.cons_append, actionsPlan, Plan.bind, hlength]
      congr 2
      funext s
      cases s with
      | ok output => exact ih (position + 1) output
      | error e => rfl

/-! ## Positions -/

/-- Counts so many actions before the one that is reported. -/
def Notice.behind (before : Nat) : Notice → Notice
  | runningAction position label shape => runningAction (before + position) label shape
  | notice => notice

/-- The plan with so many actions counted before its own. -/
def Plan.behind (before : Nat) : Plan υ α → Plan υ α
  | done value => done value
  | exhausted => exhausted
  | report spans notice next => report spans (notice.behind before) (next.behind before)
  | results update next => results update fun r => (next r).behind before
  | invoke spans step args next => invoke spans step args fun s => (next s).behind before

namespace Plan

/-- Positions are for reports only. -/
theorem silent_behind (before : Nat) (p : Plan υ α) : (p.behind before).silent = p.silent := by
  induction p with
  | done value => rfl
  | exhausted => rfl
  | report spans notice next ih => exact ih
  | results update next ih => exact congrArg (results update) (funext ih)
  | invoke spans step args next ih => exact congrArg (invoke [] step args) (funext ih)

end Plan

theorem behind_actionsPlan (before position : Nat) (actions : List (Step υ)) (carried : Values) :
    (actionsPlan position actions carried).behind before =
      actionsPlan (before + position) actions carried := by
  induction actions generalizing position carried with
  | nil => rfl
  | cons action rest ih =>
      simp only [actionsPlan, Plan.behind, Notice.behind]
      congr 2
      funext s
      cases s with
      | ok output => exact ih (position + 1) output
      | error e => rfl

/-- Further actions go on behind the ones before. -/
theorem slotPlan_append (actions : List (Step υ)) {others : List (Step υ)} (nonempty : others ≠ [])
    (input : Values) :
    slotPlan (actions ++ others) input =
      (slotPlan actions input).bind (Plan.onOutput fun output =>
        (slotPlan others (passedOn actions input output)).behind actions.length) := by
  have hothers (carried : Values) : (slotPlan others carried).behind actions.length =
      actionsPlan actions.length others carried := by
    rw [slotPlan, if_neg (by simpa using nonempty), behind_actionsPlan, Nat.add_zero]
  simp only [hothers]
  cases actions with
  | nil => rw [List.nil_append, slotPlan, if_neg (by simpa using nonempty)]; rfl
  | cons action rest =>
      have happend := actionsPlan_append 0 (action :: rest) others input
      rw [Nat.zero_add] at happend
      exact happend

theorem runActions_append (config : Config) (actions : List (Step υ)) {others : List (Step υ)}
    (nonempty : others ≠ []) (input : Values) :
    runActions config (actions ++ others) input =
      (runActions config actions input).bind (Program.onOutput fun output =>
        runActionsFrom config actions.length others (passedOn actions input output)) := by
  cases actions with
  | nil => rw [List.nil_append, runActions, if_neg (by simpa using nonempty)]; rfl
  | cons action rest =>
      have happend := runActionsFrom_append config 0 (action :: rest) others input
      rw [Nat.zero_add] at happend
      exact happend

/-! ## Accounts -/

/-- The account of running actions. -/
def performance (config : Config) (actions : List (Step υ)) (input : Values) (spans : List Span)
    (acts : List (Act υ)) (st : Store υ) : Account υ Settlement :=
  ((slotPlan actions input).under spans).account config acts st .empty

theorem halt_performance (config : Config) (actions : List (Step υ)) (input : Values)
    (spans : List Span) (acts : List (Act υ)) (st : Store υ) :
    (((runActions config actions input).under spans).course acts st).halt =
      (performance config actions input spans acts st).halt :=
  (Program.halt_of_inside (runActions_inside config actions input) (slotPlan_strict actions input)
    spans acts st .empty).symm

theorem performed_performance (config : Config) (actions : List (Step υ)) (input : Values)
    (spans : List Span) (acts : List (Act υ)) (st : Store υ) :
    let a := performance config actions input spans acts st
    Performed config actions (passedOn actions .empty input) a.entries a.halt.outcome? := by
  cases actions with
  | nil => exact .finished
  | cons action rest => exact performed_actionsPlan config 0 (action :: rest) input spans acts st _

theorem performance_append (config : Config) (actions : List (Step υ)) {others : List (Step υ)}
    (nonempty : others ≠ []) (input : Values) (spans : List Span) {acts : List (Act υ)}
    (blind : ∀ act ∈ acts, act.Blind) (st : Store υ) :
    (performance config (actions ++ others) input spans acts st).untraced =
      ((performance config actions input spans acts st).onOutput fun output =>
        performance config others (passedOn actions input output) spans).untraced := by
  have strict := (slotPlan_strict actions input).under spans
  have hresults : (performance config actions input spans acts st).results = .empty :=
    congrArg Account.results (strict.account config acts st _)
  have hfollowed : ((performance config actions input spans acts st).onOutput fun output =>
        performance config others (passedOn actions input output) spans) =
      (performance config actions input spans acts st).andThen fun outcome left mid r =>
        ((Plan.onOutput (fun output => slotPlan others (passedOn actions input output))
          outcome).under spans).account config left mid r := by
    unfold Account.onOutput Account.andThen
    rcases hfirst : performance config actions input spans acts st with
      ⟨entries, results, ⟨mid, e | output, left⟩ | _ | _ | _⟩
    · simp [Plan.onOutput, Plan.under, Plan.account]
    · obtain rfl : results = .empty := (congrArg Account.results hfirst).symm.trans hresults
      rfl
    · rfl
    · rfl
    · rfl
  rw [hfollowed, performance, slotPlan_append actions nonempty, Plan.under_bind, Plan.account_bind]
  refine Account.andThen_untraced rfl fun mid mid' outcome left hended hmid => ?_
  have hblind : ∀ act ∈ left, act.Blind := fun act hact =>
    blind act ((Plan.left_suffix hended).subset hact)
  refine (Plan.account_silent config _ hblind hmid _).trans ?_
  refine Eq.trans ?_ (Plan.account_silent config _ hblind rfl _).symm
  rw [Plan.silent_under, Plan.silent_under]
  cases outcome with
  | ok output => simp only [Plan.onOutput, Plan.silent_behind]
  | error e => rfl

/-! ## Chains -/

/-- A slot that always matches performs its actions. -/
theorem Dispatched.of_always {config : Config} {actions : List (Step υ)} {entries : List (Entry υ)}
    {outcome : Option (Except Fault (Option Values))}
    (dispatched : Dispatched config [⟨.always, actions⟩] entries outcome) :
    ∃ check ran performed, entries = check :: ran ∧ check.toInvocation = ⟨.always, .empty⟩ ∧
      Performed config actions .empty ran performed ∧
        outcome = performed.map (·.map some) := by
  have hbehind : Dispatched config ([] ++ [⟨.always, actions⟩]) entries outcome := dispatched
  rcases hbehind.selected_or_stopped with
    ⟨branch, performed, selected, houtcome⟩ | ⟨before, check, fault, -, hlt, -, -⟩
  · obtain rfl : branch = 0 := Nat.lt_one_iff.1 selected.lt_length
    obtain ⟨slot, before, check, ran, hslot, hmade, denied, hcheck, -, hperformed⟩ := selected.made
    obtain rfl : before = [] := List.eq_nil_of_length_eq_zero denied.length_eq
    cases hslot
    exact ⟨check, ran, performed, hmade, hcheck, hperformed, houtcome⟩
  · exact absurd hlt (Nat.not_lt_zero _)

/-- A passage is what a run does in its item. -/
theorem passage_of_mem_passages {limit : Nat} {config : Config} {spans : List Span} {index : Nat}
    {items : List (Item υ)} {acts : List (Act υ)} {st : Store υ} {p : Passage υ}
    (hmem : p ∈ passages limit config spans index items acts st) :
    ∃ spans acts st, p = p.item.passage limit config spans acts st := by
  induction items generalizing index acts st with
  | nil => cases hmem
  | cons item rest ih =>
      rw [passages] at hmem
      rcases List.mem_cons.1 hmem with rfl | hmem
      · exact ⟨_, _, _, rfl⟩
      · split at hmem
        · exact ih hmem
        · cases hmem

theorem Scene.passage_of_mem {S : Scene υ} {p : Passage υ} (hmem : p ∈ S.passages) :
    ∃ spans acts st, p = p.item.passage S.limit S.flow.config spans acts st := by
  unfold passages at hmem
  split at hmem
  · cases hmem
  · exact passage_of_mem_passages hmem

/-- Whatever a run begins with, it begins the actions of a chain with the initial values. -/
theorem Item.passage_chain (limit : Nat) (config : Config) (spans : List Span)
    (acts : List (Act υ)) (st : Store υ) (initial : Values) (thens : List (Step υ)) :
    let p := (Stanza.chain initial thens).item.passage limit config spans acts st
    ∃ check seed rest performed, p.entries = check :: seed :: rest ∧
      check.toInvocation = ⟨.always, .empty⟩ ∧ seed.toInvocation = ⟨.constant initial, .empty⟩ ∧
        Performed config thens initial rest performed ∧
          p.course.halt.outcome? = performed.map (·.map some) := by
  intro p
  have haccount := Item.account_plan limit config spans (Stanza.chain initial thens).item acts st
    .empty
  have hdispatched := dispatched_evaluatePlan config 0 (Stanza.chain initial thens).item.slots spans
    acts st .empty
  have hplan : (Stanza.chain initial thens).item.plan limit config =
      evaluatePlan 0 (Stanza.chain initial thens).item.slots := rfl
  rw [hplan] at haccount
  rw [haccount] at hdispatched
  obtain ⟨check, ran, performed, hentries, hcheck, hperformed, houtcome⟩ := hdispatched.of_always
  cases hperformed with
  | @stopped _ _ _ seed fault step stops =>
      have hseed := Entry.outcome?_constant (congrArg Invocation.step step) config
      rw [stops] at hseed
      cases fault <;> cases hseed
  | @next _ _ _ output seed rest _ step succeeds others =>
      have hseed := Entry.outcome?_constant (congrArg Invocation.step step) config
      obtain rfl : initial = output := by
        rw [succeeds] at hseed
        cases hseed
        rfl
      exact ⟨check, seed, rest, performed, hentries, hcheck, step, others, houtcome⟩

/-- The first of actions is invoked on what is carried in. -/
theorem Performed.head? {config : Config} {first : Step υ} {later : List (Step υ)}
    {carried : Values} {entries : List (Entry υ)} {outcome : Option (Except Fault Values)}
    (performed : Performed config (first :: later) carried entries outcome) :
    ∃ e, entries.head? = some e ∧ e.toInvocation = ⟨first, carried⟩ := by
  cases performed with
  | stopped step stops => exact ⟨_, rfl, step⟩
  | next step succeeds others => exact ⟨_, rfl, step⟩

/-! ## Composition -/

/--
To run actions that others follow is to run them and then, only if they come to an output, to run
the others on it, or on the input if none came first: the runs differ in the positions that are
reported and in nothing else.  Actions are invoked in order, the first on the input and each of the
others on the whole output of the one before, where it ended, up to the first that has a fault.
Without actions the output is empty.  So on every run that comes to it, a chain invokes its first
action on exactly its initial values.
-/
theorem actions_compose (config : Config) (input : Values) (spans : List Span)
    (acts : List (Act υ)) (st : Store υ) :
    (∀ actions others : List (Step υ), others ≠ [] →
      runActions config (actions ++ others) input =
          (runActions config actions input).bind (Program.onOutput fun output =>
            runActionsFrom config actions.length others (passedOn actions input output)) ∧
        slotPlan (actions ++ others) input =
          (slotPlan actions input).bind (Plan.onOutput fun output =>
            (slotPlan others (passedOn actions input output)).behind actions.length) ∧
        ((∀ act ∈ acts, act.Blind) →
          (performance config (actions ++ others) input spans acts st).untraced =
            ((performance config actions input spans acts st).onOutput fun output =>
              performance config others (passedOn actions input output) spans).untraced)) ∧
    (∀ actions : List (Step υ), let run := performance config actions input spans acts st
      (((runActions config actions input).under spans).course acts st).halt = run.halt ∧
        run.halt.Follows config run.entries acts st ∧
        run.entries.map (·.step) <+: actions ∧
        (actions ≠ [] → Performed config actions input run.entries run.halt.outcome?)) ∧
    runActions config ([] : List (Step υ)) input = .done (.ok .empty) ∧
    ∀ (initial : Values) (thens : List (Step υ)),
      (∀ flow : Flow υ, flow.extendAll (Stanza.chain initial thens).word =
        { flow with sequence := flow.sequence.push (Stanza.chain initial thens).item }) ∧
      ∀ (S : Scene υ), ∀ p ∈ S.passages, p.item = (Stanza.chain initial thens).item →
        ∃ check seed rest performed, p.entries = check :: seed :: rest ∧
          check.toInvocation = ⟨.always, .empty⟩ ∧
          seed.toInvocation = ⟨.constant initial, .empty⟩ ∧
          Performed S.flow.config thens initial rest performed ∧
          p.course.halt.outcome? = performed.map (·.map some) ∧
          ∀ first later, thens = first :: later →
            ∃ e, rest.head? = some e ∧ e.toInvocation = ⟨first, initial⟩ := by
  refine ⟨fun actions others nonempty => ⟨runActions_append config actions nonempty input,
    slotPlan_append actions nonempty input, fun blind =>
      performance_append config actions nonempty input spans blind st⟩, fun actions => ?_, rfl,
    fun initial thens => ⟨fun flow => flow.extendAll_word _, fun S p hmem hitem => ?_⟩⟩
  · have performed := performed_performance config actions input spans acts st
    refine ⟨halt_performance config actions input spans acts st,
      Plan.account_follows config _ acts st .empty, performed.steps.1, fun nonempty => ?_⟩
    have hinput : passedOn actions .empty input = input := by
      rw [passedOn, if_neg (by simpa using nonempty)]
    rwa [hinput] at performed
  · obtain ⟨spans, acts, st, hp⟩ := S.passage_of_mem hmem
    rw [hitem] at hp
    obtain ⟨check, seed, rest, performed, hentries, hcheck, hseed, hperformed, houtcome⟩ :=
      Item.passage_chain S.limit S.flow.config spans acts st initial thens
    rw [← hp] at hentries houtcome
    refine ⟨check, seed, rest, performed, hentries, hcheck, hseed, hperformed, houtcome, ?_⟩
    rintro first later rfl
    exact hperformed.head?

/-- Is suspended once, and then adds a count that the state keeps. -/
def addCount : Step Nat :=
  .task fun args => .pause rfl [] fun _ => .user (· + 1) fun n => .done (.ok (args.push (.int n)))

/-- The number of values that it gets. -/
def countArguments : Step Nat := .sync fun args => .done (.ok (.single (.int args.length)))

/-- A chain of two values, run once more after another run. -/
def chainAgain : Scene Nat where
  limit := 1
  flow := { Flow.empty.extendAll (Stanza.chain ⟨[.int 1, .int 2]⟩ [countArguments]).word with
    results := ⟨[.int 9]⟩ }
  spans := []
  acts := []
  store := { user := 5, channels := #[⟨.dropped, false⟩] }

/-- The action that follows gets the whole output, and that of a chain all initial values. -/
theorem actions_compose_counted :
    let input : Values := ⟨[.int 7, .int 8]⟩
    let whole := performance {} ([addCount] ++ [countArguments]) input [] [id] { user := 3 }
    whole.untraced = ((performance {} [addCount] input [] [id] { user := 3 }).onOutput fun output =>
      performance {} [countArguments] (passedOn [addCount] input output) []).untraced ∧
    whole.entries.map (·.args.length) = [2, 3] ∧
    ∃ p ∈ chainAgain.passages, ∃ check seed rest e, p.entries = check :: seed :: rest ∧
      rest.head? = some e ∧ e.toInvocation = ⟨countArguments, ⟨[.int 1, .int 2]⟩⟩ := by
  intro input whole
  have hcompose := actions_compose {} input [] [id] ({ user := 3 } : Store Nat)
  have blind : ∀ act ∈ ([id] : List (Act Nat)), act.Blind := by
    rintro act hact
    obtain rfl := List.mem_singleton.1 hact
    exact fun st st' hst => hst
  have hwhole := (hcompose.1 [addCount] [countArguments] (List.cons_ne_nil _ _)).2.2 blind
  refine ⟨hwhole, by decide +kernel, ?_⟩
  obtain ⟨p, rest, hpassages⟩ : ∃ p rest, chainAgain.passages = p :: rest := ⟨_, _, rfl⟩
  have hmem : p ∈ chainAgain.passages := hpassages ▸ List.mem_cons_self
  have hitem : p.item = (Stanza.chain ⟨[.int 1, .int 2]⟩ [countArguments]).item :=
    congrArg (fun ps => (ps.head?.map Passage.item).getD (.chain .empty)) hpassages.symm
  obtain ⟨check, seed, rest, -, hentries, -, -, -, -, hfirst⟩ :=
    (hcompose.2.2.2 ⟨[.int 1, .int 2]⟩ [countArguments]).2 chainAgain p hmem hitem
  obtain ⟨e, he, hinvoked⟩ := hfirst countArguments [] rfl
  exact ⟨p, hmem, check, seed, rest, e, hentries, he, hinvoked⟩

end Stepwise
