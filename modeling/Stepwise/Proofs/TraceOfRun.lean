import Stepwise.Proofs.Reporting
import Stepwise.Proofs.Retained
/-!
# The trace of a run

Directly under the span of its flow a run reports how it began and how it came out.  Everything else
that it reports before its resolvers are told is reported in an item, under the span of that one,
and in the order of the items.
-/

namespace Stepwise

variable {υ : Type}

/-! ## Events under the spans of items -/

/-- The event was reported in the item of that index, whose span is directly inside the given
ones. -/
def Event.In (spans : List Span) (index : Nat) (e : Event) : Prop :=
  ∃ kind, spans ++ [.item index kind] <+: e.spans

theorem Event.In.unique {spans : List Span} {e : Event} {i j : Nat} (first : e.In spans i)
    (second : e.In spans j) : i = j := by
  obtain ⟨kind, rest, hrest⟩ := first
  obtain ⟨kind', rest', hrest'⟩ := second
  have hsame := hrest.trans hrest'.symm
  rw [List.append_assoc, List.append_assoc, List.append_cancel_left_eq] at hsame
  injection hsame with hspan _
  injection hspan

/-- Reported directly under the given spans, an event is in none of the items there. -/
theorem Event.not_in_of_spans {spans : List Span} {e : Event} (hspans : e.spans = spans) (i : Nat) :
    ¬e.In spans i := by
  rintro ⟨kind, hprefix⟩
  have hlength := hprefix.length_le
  rw [hspans, List.length_append] at hlength
  exact absurd hlength (Nat.not_succ_le_self _)

/-- No event was reported in an item before one that was reported later. -/
def Event.Advances (spans : List Span) (e later : Event) : Prop :=
  ∀ i j, e.In spans i → later.In spans j → i ≤ j

/-! ## Runs through items -/

/-- What the polls of an item report. -/
theorem Item.emitted_plan (limit : Nat) (config : Config) (spans : List Span) (item : Item υ)
    (acts : List (Act υ)) (st : Store υ) (r : ResultSet) :
    ((item.plan limit config).under spans).emitted config acts st r =
      ((item.run limit config).under spans).emitted acts st := by
  rw [← Plan.emitted_toProgram, Plan.toProgram_under, ← Item.run_inside, Program.under_inside,
    List.append_nil, ← Program.beside_under, Program.emitted_attach]

/-- What a run reports in items of which the first has the given index. -/
def itemsEvents (limit : Nat) (config : Config) (spans : List Span) (index : Nat) :
    List (Item υ) → List (Act υ) → Store υ → List Event
  | [], _, _ => []
  | item :: rest, acts, st =>
      let inner := spans ++ [.item index item.kind]
      ((item.run limit config).under inner).emitted acts st ++
        match (item.passage limit config inner acts st).course with
        | .ended st (.ok _) left => itemsEvents limit config spans (index + 1) rest left st
        | _ => []

section Items

variable {limit : Nat} {config : Config} {spans : List Span} {index : Nat} {items : List (Item υ)}
  {acts : List (Act υ)} {st : Store υ}

/-- Everything that is reported in items is reported under the span of one that the run comes to. -/
theorem exists_of_mem_itemsEvents {e : Event}
    (hmem : e ∈ itemsEvents limit config spans index items acts st) :
    ∃ i item, items[i]? = some item ∧
      i < (passages limit config spans index items acts st).length ∧
        spans ++ [Span.item (index + i) item.kind] <+: e.spans := by
  induction items generalizing index acts st with
  | nil => cases hmem
  | cons item rest ih =>
      rw [itemsEvents] at hmem
      rw [passages]
      rcases List.mem_append.1 hmem with hfirst | hrest
      · exact ⟨0, item, rfl, Nat.zero_lt_succ _, Program.prefix_of_mem_emitted_under _ _ hfirst⟩
      · generalize item.passage limit config (spans ++ [Span.item index item.kind]) acts st = p at *
        obtain ⟨_, entries, ⟨mid, e | output, left⟩ | ⟨mid, payload⟩ | ⟨mid, part⟩ | mid⟩ := p
        · cases hrest
        · obtain ⟨i, found, hitem, hlt, hprefix⟩ := ih hrest
          refine ⟨i + 1, found, hitem, Nat.succ_lt_succ hlt, ?_⟩
          rwa [Nat.add_right_comm, Nat.add_assoc] at hprefix
        · cases hrest
        · cases hrest
        · cases hrest

/-- A run reports in one item after the other. -/
theorem pairwise_itemsEvents :
    (itemsEvents limit config spans index items acts st).Pairwise (Event.Advances spans) := by
  induction items generalizing index acts st with
  | nil => exact .nil
  | cons item rest ih =>
      have hfirst {e : Event} (hmem : e ∈ ((item.run limit config).under
          (spans ++ [Span.item index item.kind])).emitted acts st) : e.In spans index :=
        ⟨item.kind, Program.prefix_of_mem_emitted_under _ _ hmem⟩
      rw [itemsEvents]
      refine List.pairwise_append.2 ⟨?_, ?_, fun e he later hlater i j hi hj => ?_⟩
      · refine List.pairwise_of_forall_mem_list fun e he later hlater i j hi hj => ?_
        rw [hi.unique (hfirst he), hj.unique (hfirst hlater)]
      · split
        · exact ih
        · exact .nil
      · split at hlater
        · obtain ⟨k, found, -, -, hprefix⟩ := exists_of_mem_itemsEvents hlater
          rw [hi.unique (hfirst he), hj.unique ⟨_, hprefix⟩, Nat.add_assoc]
          exact Nat.le_add_right index _
        · cases hlater

/-- What a run through items reports of the one that it fails with. -/
def Halt.Reports (spans : List Span) (index : Nat) (ps : List (Passage υ)) (events : List Event) :
    Halt υ (Except FlowError Unit) → Prop
  | ended _ (.error e) _ => ∃ firsts failing, ps = firsts ++ [failing] ∧ failing.FailsWith e ∧
      events = [⟨.itemFailed (index + firsts.length) failing.item.kind e, spans⟩]
  | _ => events = []

theorem Halt.Reports.cons {ps : List (Passage υ)} {events : List Event}
    {halt : Halt υ (Except FlowError Unit)} (reports : halt.Reports spans (index + 1) ps events)
    (p : Passage υ) : halt.Reports spans index (p :: ps) events := by
  obtain ⟨st, e | ⟨⟩, left⟩ | _ | _ | _ := halt
  · obtain ⟨firsts, failing, rfl, hfails, rfl⟩ := reports
    refine ⟨p :: firsts, failing, rfl, hfails, ?_⟩
    rw [List.length_cons, Nat.add_right_comm, Nat.add_assoc]
  all_goals exact reports

/-- A run through items reports what it does in them, and then the one that it fails with. -/
theorem emitted_itemsPlan (r : ResultSet) :
    ∃ failure, ((itemsPlan limit config index items).under spans).emitted config acts st r =
        itemsEvents limit config spans index items acts st ++ failure ∧
      (((itemsPlan limit config index items).under spans).account config acts st r).halt.Reports
        spans index (passages limit config spans index items acts st) failure := by
  induction items generalizing index acts st r with
  | nil => exact ⟨[], rfl, rfl⟩
  | cons item rest ih =>
      rw [itemsPlan, Plan.under_bind, Plan.under_within, Plan.emitted_bind, Plan.account_bind,
        Item.account_plan, Item.emitted_plan, itemsEvents, passages]
      simp only [Account.andThen]
      have hitem : (item.passage limit config (spans ++ [Span.item index item.kind]) acts st).item =
          item := rfl
      generalize item.passage limit config (spans ++ [Span.item index item.kind]) acts st = p at *
      subst hitem
      -- Only an item that fails is followed by a report of its own, and that ends the run.
      obtain ⟨item, entries, ⟨mid, e | output, left⟩ | ⟨mid, payload⟩ | ⟨mid, part⟩ | mid⟩ := p
      · refine ⟨[⟨.itemFailed index item.kind e, spans⟩], ?_, [], _, rfl, ⟨mid, left, rfl⟩, rfl⟩
        simp [Course.halt, Plan.under, Plan.emitted]
      · cases output with
        | none =>
            obtain ⟨failure, hemitted, hreports⟩ := @ih (index + 1) left mid r
            refine ⟨failure, ?_, hreports.cons _⟩
            simp only [Course.halt, hemitted, List.append_assoc]
        | some output =>
            obtain ⟨failure, hemitted, hreports⟩ := @ih (index + 1) left mid (r.pushFirst output)
            refine ⟨failure, ?_, hreports.cons _⟩
            simp only [Course.halt, Plan.under, Plan.emitted, hemitted, List.append_assoc]
      all_goals exact ⟨[], by simp [Course.halt], rfl⟩

end Items

/-! ## Runs of flows -/

namespace Scene

/-- The span of the flow, under those that the run is under. -/
def own (S : Scene υ) : List Span := S.spans ++ [.flow S.flow.config.spanLabel]

/-- What the polls of the run report before its resolvers are told. -/
def reported (S : Scene υ) : List Event :=
  (((S.flow.drive S.limit).within (.flow S.flow.config.spanLabel)).under S.spans).emitted
    (S.acts.map Act.aside) (S.store.attach S.flow.results)

/-- What the run reports in its items. -/
def inItems (S : Scene υ) : List Event :=
  match S.flow.buildError with
  | some _ => []
  | none =>
      itemsEvents S.limit S.flow.config S.own 0 S.flow.sequence.items S.acts
        (S.store.report S.own (.flowStarted S.flow.sequence.length))

/-- What a run that returns announces directly under the span of its flow, before its items and
after them. -/
inductive Announces (S : Scene υ) : Completion → List Notice → List Notice → Prop
  | refused {error : BuildError} (build : S.flow.buildError = some error) :
      S.Announces (.error (.build error)) [.refused error] []
  | completed {results : ResultSet} (declared : S.flow.buildError = none) :
      S.Announces (.ok results) [.flowStarted S.flow.sequence.length]
        [.flowCompleted results.length]
  /-- The failing item is the one that the run comes to last. -/
  | failed {e : FlowError} {firsts : List (Passage υ)} {failing : Passage υ}
      (declared : S.flow.buildError = none) (passages : S.passages = firsts ++ [failing])
      (fails : failing.FailsWith e)
      (item : S.flow.sequence.items[firsts.length]? = some failing.item) :
      S.Announces (.error e) [.flowStarted S.flow.sequence.length]
        [.itemFailed firsts.length failing.item.kind e, .flowFailed e]

theorem reported_eq_plan (S : Scene υ) :
    S.reported = ((S.flow.plan S.limit).under S.spans).emitted S.flow.config S.acts S.store
      S.flow.results := by
  rw [reported, Flow.drive_eq_plan, ← Plan.toProgram_under, Plan.emitted_toProgram]

/-- The resolvers of a run report when everything else is reported. -/
theorem emitted_of_ended {S : Scene υ} {st : Store υ} {completion : Completion}
    {left : List (Act υ)} (hended : S.account.halt = .ended st completion left) :
    S.emitted = S.reported ++
      (((Flow.notify completion S.flow.resolvers).under S.spans).run st).2.since st := by
  have hplan := Plan.halt_course S.flow.config ((S.flow.plan S.limit).under S.spans) S.acts S.store
    S.flow.results
  have houter : S.account.outer =
      .ended (st.attach S.account.results) completion (left.map Act.aside) := by
    rw [Account.outer, hended]
    rfl
  have hcourse := Course.ended_of_halt (hplan.trans houter)
  rw [emitted, reported, Flow.exec_eq_plan, Flow.drive_eq_plan, Program.under_bind,
    Program.emitted_bind, ← Plan.toProgram_under, hcourse]
  simp only [Program.under_bind, Program.under_relax_beside]
  congr 1
  refine (Program.emitted_map ..).trans ?_
  rw [Program.emitted_attach, Program.emitted_relax]

/-- A flow that was declared rightly reports that it starts, what its items report, and what it comes
to. -/
theorem reported_declared {S : Scene υ} (hbuild : S.flow.buildError = none) :
    let plan := (itemsPlan S.limit S.flow.config 0 S.flow.sequence.items).under S.own
    let st := S.store.report S.own (.flowStarted S.flow.sequence.length)
    S.reported = ⟨.flowStarted S.flow.sequence.length, S.own⟩ ::
      (plan.emitted S.flow.config S.acts st .empty ++
        match (plan.account S.flow.config S.acts st .empty).halt with
        | .ended _ (.ok ()) _ => [⟨.flowCompleted
            (plan.account S.flow.config S.acts st .empty).results.length, S.own⟩]
        | .ended _ (.error e) _ => [⟨.flowFailed e, S.own⟩]
        | _ => []) := by
  intro plan st
  have hown : S.spans ++ [Span.flow S.flow.config.spanLabel] = S.own := rfl
  have hplan : (itemsPlan S.limit S.flow.config 0 S.flow.sequence.items).under S.own = plan := rfl
  have hst : S.store.report S.own (.flowStarted S.flow.sequence.length) = st := rfl
  rw [reported_eq_plan, Flow.plan, hbuild]
  simp only [Plan.under, Plan.emitted, Plan.under_within, Plan.under_bind, Plan.emitted_bind,
    List.append_nil, hown, hplan, hst]
  generalize plan.account S.flow.config S.acts st .empty = a
  obtain ⟨entries, results, ⟨mid, e | ⟨⟩, left⟩ | ⟨mid, payload⟩ | ⟨mid, onDrop⟩ | mid⟩ := a
  · simp only [Plan.under, Plan.emitted, List.append_nil]
  · simp only [Plan.under, Plan.emitted, List.append_nil]
  · rfl
  · rfl
  · rfl

/-- The passage that follows others is the one through the item of that number. -/
theorem item_of_passages {S : Scene υ} {firsts : List (Passage υ)} {p : Passage υ}
    (hsplit : S.passages = firsts ++ [p]) :
    S.flow.sequence.items[firsts.length]? = some p.item := by
  obtain ⟨others, hothers⟩ := S.passages_in_order.1
  simp [← hothers, hsplit]

/-- The trace of a run that returns begins and ends with what it announces. -/
theorem reported_of_ended {S : Scene υ} {st : Store υ} {completion : Completion}
    {left : List (Act υ)} (hended : S.account.halt = .ended st completion left) :
    ∃ opening closing, S.Announces completion opening closing ∧
      S.reported = opening.map (⟨·, S.own⟩) ++ S.inItems ++ closing.map (⟨·, S.own⟩) := by
  cases hbuild : S.flow.buildError with
  | some error =>
      rw [account_refused hbuild] at hended
      cases hended
      refine ⟨_, _, .refused hbuild, ?_⟩
      rw [reported_eq_plan, Flow.plan, hbuild, inItems, hbuild, Plan.within_eq_under]
      simp [Plan.under, Plan.emitted, own]
  | none =>
      obtain ⟨failure, hemitted, hreports⟩ := @emitted_itemsPlan υ S.limit S.flow.config S.own 0
        S.flow.sequence.items S.acts (S.store.report S.own (.flowStarted S.flow.sequence.length))
          .empty
      have hinItems : S.inItems = itemsEvents S.limit S.flow.config S.own 0
          S.flow.sequence.items S.acts
            (S.store.report S.own (.flowStarted S.flow.sequence.length)) := by
        rw [inItems, hbuild]
      have hpassages := passages_declared hbuild
      have hreported := reported_declared hbuild
      rw [account_declared hbuild] at hended
      dsimp only at hpassages hreported hended
      rw [← own] at hpassages hended
      generalize ((itemsPlan S.limit S.flow.config 0 S.flow.sequence.items).under S.own).account
        S.flow.config S.acts (S.store.report S.own (.flowStarted S.flow.sequence.length)) .empty =
          a at hreported hended hreports
      rw [hreported, hemitted, ← hinItems]
      obtain ⟨es, results, ⟨mid, e | ⟨⟩, rest⟩ | ⟨mid, payload⟩ | ⟨mid, onDrop⟩ | mid⟩ := a
      all_goals cases hended
      · obtain ⟨firsts, failing, hsplit, hfails, rfl⟩ := hreports
        rw [← hpassages] at hsplit
        refine ⟨_, _, .failed hbuild hsplit hfails (item_of_passages hsplit), ?_⟩
        simp
      · obtain rfl : failure = [] := hreports
        refine ⟨_, _, .completed hbuild, ?_⟩
        simp

/-- Everything that the run reports in items is reported in one that it comes to. -/
theorem exists_of_mem_inItems {S : Scene υ} {e : Event} (hmem : e ∈ S.inItems) :
    ∃ i item, S.flow.sequence.items[i]? = some item ∧ i < S.passages.length ∧
      S.own ++ [Span.item i item.kind] <+: e.spans := by
  unfold inItems at hmem
  unfold passages
  cases hbuild : S.flow.buildError with
  | some error =>
      rw [hbuild] at hmem
      cases hmem
  | none =>
      rw [hbuild] at hmem
      obtain ⟨i, item, hitem, hlt, hprefix⟩ := exists_of_mem_itemsEvents hmem
      rw [Nat.zero_add] at hprefix
      exact ⟨i, item, hitem, hlt, hprefix⟩

theorem pairwise_inItems (S : Scene υ) : S.inItems.Pairwise (Event.Advances S.own) := by
  unfold inItems
  split
  · exact .nil
  · exact pairwise_itemsEvents

/-- How the trace of a run accounts for what the run comes to, with what is announced before the
items and after them, and what is reported in them. -/
structure Recounts (S : Scene υ) (completion : Completion) (opening : List Notice)
    (inner : List Event) (closing : List Notice) : Prop where
  announces : S.Announces completion opening closing
  layout : S.reported = opening.map (⟨·, S.own⟩) ++ inner ++ closing.map (⟨·, S.own⟩)
  /-- Nothing else is reported directly under the span of the flow. -/
  own : (S.reported.filter (·.spans = S.own)).map Event.notice = opening ++ closing
  /-- Everything in between is reported in an item that the run comes to, under its own span. -/
  items : ∀ e ∈ inner, ∃ i item, S.flow.sequence.items[i]? = some item ∧
    i < S.passages.length ∧ S.own ++ [.item i item.kind] <+: e.spans
  ordered : inner.Pairwise (Event.Advances S.own)
  bounded : ∀ index kind error, .itemFailed index kind error ∈ closing →
    ∀ e ∈ inner, ∀ i, e.In S.own i → i ≤ index
  /-- The resolvers report when everything else is reported. -/
  resolvers : ∃ st left, S.account.halt = .ended st completion left ∧ S.emitted = S.reported ++
    (((Flow.notify completion S.flow.resolvers).under S.spans).run st).2.since st

/-- The trace of the run accounts for what it comes to. -/
def Accounts (S : Scene υ) (completion : Completion) : Prop :=
  ∃ opening inner closing, S.Recounts completion opening inner closing

/-- The trace of a run that returns accounts for what it returns. -/
theorem Returns.accounts {S : Scene υ} {completion : Completion} (returns : S.Returns completion) :
    S.Accounts completion := by
  obtain ⟨st, left, hended⟩ := returns.account
  obtain ⟨opening, closing, hannounces, hlayout⟩ := reported_of_ended hended
  refine ⟨opening, S.inItems, closing, hannounces, hlayout, ?_, fun e => exists_of_mem_inItems,
    S.pairwise_inItems, ?_, st, left, hended, emitted_of_ended hended⟩
  · have hnotices (notices : List Notice) :
        ((notices.map fun notice => Event.mk notice S.own).filter (·.spans = S.own)) =
          notices.map fun notice => Event.mk notice S.own :=
      List.filter_eq_self.2 fun e he => by
        obtain ⟨notice, -, rfl⟩ := List.mem_map.1 he
        exact decide_eq_true rfl
    have hitems : S.inItems.filter (·.spans = S.own) = [] :=
      List.filter_eq_nil_iff.2 fun e he hown => by
        obtain ⟨i, item, -, -, hprefix⟩ := exists_of_mem_inItems he
        exact Event.not_in_of_spans (of_decide_eq_true hown) i ⟨item.kind, hprefix⟩
    rw [hlayout, List.filter_append, List.filter_append, hnotices, hnotices, hitems]
    simp [Function.comp_def]
  · intro index kind error hclosing e he i hin
    obtain ⟨j, item, -, hlt, hprefix⟩ := exists_of_mem_inItems he
    rw [hin.unique ⟨item.kind, hprefix⟩]
    cases hannounces with
    | refused => cases hclosing
    | completed => simp at hclosing
    | failed declared hsplit =>
        simp only [List.mem_cons, Notice.itemFailed.injEq, reduceCtorEq, List.not_mem_nil,
          or_false] at hclosing
        rw [hsplit, List.length_append, ← hclosing.1] at hlt
        exact Nat.le_of_lt_succ hlt

end Scene

end Stepwise
