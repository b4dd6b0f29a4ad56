import Stepwise.Proofs.Drafts
import Stepwise.Proofs.NestedTraces
import Stepwise.Proofs.Outlined
/-!
# Traces and outlines

The trace of a run is made of what the engine reports by itself and of what is reported in the
invocations that it makes.  Under the span of an item the engine reports what follows from the
outline of that item, and nothing else.
-/

namespace Stepwise

variable {υ : Type}

theorem Event.in_of_spans {spans : List Span} {e : Event} {i : Nat} {kind : ItemKind}
    (hspans : e.spans = spans ++ [Span.item i kind]) : e.In spans i :=
  ⟨kind, [], by rw [hspans, List.append_nil]⟩

/-! ## What the engine reports in a run through items -/

section Items

variable {limit : Nat} {config : Config} {spans : List Span} {index : Nat} {items : List (Item υ)}
  {acts : List (Act υ)} {st : Store υ}

/-- What the engine reports by itself in the first of items comes before all else: what it reports
in the others, if it comes to them, or that the first one failed. -/
theorem told_itemsPlan_cons (item : Item υ) (rest : List (Item υ)) (r : ResultSet) :
    let inner := spans ++ [Span.item index item.kind]
    let passage := item.passage limit config inner acts st
    ∃ others, ((itemsPlan limit config index (item :: rest)).under spans).told config acts st r =
        ((item.plan limit config).under inner).told config acts st r ++ others ∧
      ((∃ mid left r', others =
          ((itemsPlan limit config (index + 1) rest).under spans).told config left mid r' ∧
            passages limit config spans index (item :: rest) acts st =
              passage :: passages limit config spans (index + 1) rest left mid) ∨
        (∀ e ∈ others, e.spans = spans) ∧
          passages limit config spans index (item :: rest) acts st = [passage]) := by
  intro inner passage
  rw [itemsPlan, Plan.under_bind, Plan.under_within, Plan.told_bind, Item.account_plan, passages]
  refine ⟨_, rfl, ?_⟩
  rcases passage.course with
    ⟨mid, e | _ | output, left⟩ | ⟨mid, payload⟩ | ⟨mid, part⟩ | mid
  · refine .inr ⟨?_, rfl⟩
    simp [Course.halt, Plan.under]
  · exact .inl ⟨mid, left, r, rfl, rfl⟩
  · exact .inl ⟨mid, left, r.pushFirst output, rfl, rfl⟩
  · exact .inr ⟨List.forall_mem_nil _, rfl⟩
  · exact .inr ⟨List.forall_mem_nil _, rfl⟩
  · exact .inr ⟨List.forall_mem_nil _, rfl⟩

/-- Directly under an item the engine reports by itself nothing but notices of items. -/
theorem spans_of_mem_told_itemsPlan {r : ResultSet} {e : Event}
    (hmem : e ∈ ((itemsPlan limit config index items).under spans).told config acts st r) :
    e.spans = spans ∨ ∃ later kind,
      e.spans = spans ++ [Span.item (index + later) kind] ∧ e.notice.ofItem = true := by
  induction items generalizing index acts st r with
  | nil => cases hmem
  | cons item rest ih =>
      obtain ⟨others, htold, hothers⟩ :=
        @told_itemsPlan_cons υ limit config spans index acts st item rest r
      rw [htold] at hmem
      rcases List.mem_append.1 hmem with hfirst | hrest
      · obtain ⟨hspans, hnotice⟩ := (item.plan_tells limit config).of_mem_told hfirst
        exact .inr ⟨0, item.kind, hspans, hnotice⟩
      · rcases hothers with ⟨mid, left, r', rfl, -⟩ | ⟨hown, -⟩
        · rcases ih hrest with hspans | ⟨later, kind, hspans, hnotice⟩
          · exact .inl hspans
          · refine .inr ⟨later + 1, kind, ?_, hnotice⟩
            rw [hspans, Nat.add_assoc, Nat.add_comm 1]
        · exact .inl (hown e hrest)

/-- What the engine reports by itself under the span of an item that the run comes to is what it
reports in the course of that item. -/
theorem told_of_passages {i : Nat} {p : Passage υ}
    (hp : (passages limit config spans index items acts st)[i]? = some p) (r : ResultSet) :
    let inner := spans ++ [Span.item (index + i) p.item.kind]
    items[i]? = some p.item ∧ ∃ acts' st' r', p = p.item.passage limit config inner acts' st' ∧
      (((itemsPlan limit config index items).under spans).told config acts st r).filter
          (·.spans = inner) =
        ((p.item.plan limit config).under inner).told config acts' st' r' := by
  induction items generalizing index acts st r i with
  | nil => cases hp
  | cons item rest ih =>
      obtain ⟨others, htold, hothers⟩ :=
        @told_itemsPlan_cons υ limit config spans index acts st item rest r
      have hfirst := @Plan.Tells.of_mem_told υ _ _ _ (item.plan_tells limit config) config
        (spans ++ [Span.item index item.kind]) acts st r
      intro inner
      rw [htold, List.filter_append]
      cases i with
      | zero =>
          have hothers' : others.filter (·.spans = spans ++ [Span.item index item.kind]) = [] := by
            refine List.filter_eq_nil_iff.2 fun e he => ?_
            rw [decide_eq_true_iff]
            intro hspans
            have hin := Event.in_of_spans hspans
            rcases hothers with ⟨mid, left, r', rfl, -⟩ | ⟨hown, -⟩
            · rcases spans_of_mem_told_itemsPlan he with hown | ⟨later, kind, hlater, -⟩
              · exact Event.not_in_of_spans hown index hin
              · have hindex := hin.unique (Event.in_of_spans hlater)
                omega
            · exact Event.not_in_of_spans (hown e he) index hin
          have hhead : (passages limit config spans index (item :: rest) acts st)[0]? =
              some (item.passage limit config (spans ++ [Span.item index item.kind]) acts st) := by
            rcases hothers with ⟨mid, left, r', -, hpassages⟩ | ⟨-, hpassages⟩ <;>
              rw [hpassages] <;> rfl
          cases hhead.symm.trans hp
          refine ⟨rfl, acts, st, r, rfl, ?_⟩
          rw [show inner = spans ++ [Span.item index item.kind] from rfl, hothers', List.append_nil]
          exact List.filter_eq_self.2 fun e he => decide_eq_true (hfirst he).1
      | succ i =>
          rcases hothers with ⟨mid, left, r', rfl, hpassages⟩ | ⟨hown, hpassages⟩
          · rw [hpassages, List.getElem?_cons_succ] at hp
            obtain ⟨hitem, acts', st', r'', hpassage, hfilter⟩ := ih hp r'
            have hindex : index + 1 + i = index + (i + 1) := by omega
            rw [hindex] at hpassage hfilter
            refine ⟨hitem, acts', st', r'', hpassage, ?_⟩
            have hnothing : (((item.plan limit config).under
                (spans ++ [Span.item index item.kind])).told config acts st r).filter
                  (·.spans = inner) = [] := by
              refine List.filter_eq_nil_iff.2 fun e he => ?_
              rw [decide_eq_true_iff]
              intro hspans
              have hsame := (Event.in_of_spans (hfirst he).1).unique (Event.in_of_spans hspans)
              omega
            rw [hnothing, List.nil_append]
            exact hfilter
          · rw [hpassages] at hp
            cases hp

end Items

/-! ## What the engine reports in a run -/

namespace Scene

/-- The marks that the run leaves before its resolvers are told. -/
def marks (S : Scene υ) : List (Mark υ) :=
  ((S.flow.plan S.limit).under S.spans).marks S.flow.config S.acts S.store S.flow.results

/-- What the engine reports by itself directly under the given spans. -/
def told (S : Scene υ) (spans : List Span) : List Notice :=
  ((S.marks.filterMap Mark.event?).filter (·.spans = spans)).map Event.notice

/-- No invocation gives a notice of the item that it is made in. -/
def Unfeigned (S : Scene υ) : Prop :=
  ∀ entry ∈ S.entries, ∀ e ∈ entry.emitted S.flow.config,
    e.spans = entry.spans → e.notice.ofItem = false

theorem reported_eq_marks (S : Scene υ) :
    S.reported = S.marks.flatMap (Mark.reported S.flow.config) :=
  S.reported_eq_plan.trans (Plan.emitted_eq_flatMap_marks ..)

theorem entries_eq_marks (S : Scene υ) : S.marks.filterMap Mark.entry? = S.entries :=
  (Plan.entries_eq_filterMap_marks ..).symm

/-- Besides what it reports in its items the engine reports directly under the span of the flow. -/
theorem told_declared {S : Scene υ} (hbuild : S.flow.buildError = none) :
    let plan := (itemsPlan S.limit S.flow.config 0 S.flow.sequence.items).under S.own
    let st := S.store.report S.own (.flowStarted S.flow.sequence.length)
    ∃ closing : List Event,
      S.marks.filterMap Mark.event? = ⟨.flowStarted S.flow.sequence.length, S.own⟩ ::
        (plan.told S.flow.config S.acts st .empty ++ closing) ∧ ∀ e ∈ closing, e.spans = S.own := by
  intro plan st
  have hown : S.spans ++ [Span.flow S.flow.config.spanLabel] = S.own := rfl
  have hmarks : S.marks.filterMap Mark.event? = ((S.flow.plan S.limit).under S.spans).told
      S.flow.config S.acts S.store S.flow.results := rfl
  rw [hmarks, Flow.plan, hbuild]
  simp only [Plan.under, Plan.told, Plan.under_within, Plan.under_bind, List.append_nil, hown]
  refine ⟨_, congrArg (_ :: ·) (Plan.told_bind ..), ?_⟩
  generalize plan.account S.flow.config S.acts st .empty = a
  obtain ⟨entries, results, ⟨mid, e | ⟨⟩, left⟩ | ⟨mid, payload⟩ | ⟨mid, onDrop⟩ | mid⟩ := a
  · exact List.forall_mem_singleton.2 (List.append_nil S.own)
  · exact List.forall_mem_singleton.2 (List.append_nil S.own)
  · exact List.forall_mem_nil _
  · exact List.forall_mem_nil _
  · exact List.forall_mem_nil _

/-- Under the span of an item the engine reports by itself what it reports in its items. -/
theorem told_item {S : Scene υ} (hbuild : S.flow.buildError = none) (i : Nat) (kind : ItemKind) :
    let plan := (itemsPlan S.limit S.flow.config 0 S.flow.sequence.items).under S.own
    let st := S.store.report S.own (.flowStarted S.flow.sequence.length)
    (S.marks.filterMap Mark.event?).filter (·.spans = S.own ++ [Span.item i kind]) =
      (plan.told S.flow.config S.acts st .empty).filter
        (·.spans = S.own ++ [Span.item i kind]) := by
  intro plan st
  obtain ⟨closing, htold, hclosing⟩ := told_declared hbuild
  have hneg {e : Event} (hown : e.spans = S.own) :
      ¬decide (e.spans = S.own ++ [Span.item i kind]) = true := by
    rw [decide_eq_true_iff]
    exact fun hspans => Event.not_in_of_spans hown i (Event.in_of_spans hspans)
  have hnothing : closing.filter (·.spans = S.own ++ [Span.item i kind]) = [] :=
    List.filter_eq_nil_iff.2 fun e he => hneg (hclosing e he)
  rw [htold, List.filter_cons_of_neg, List.filter_append, hnothing, List.append_nil]
  exact hneg rfl

theorem ofItem_of_mem_told {S : Scene υ} (hbuild : S.flow.buildError = none) {e : Event}
    (hmem : e ∈ S.marks.filterMap Mark.event?) {i : Nat} {kind : ItemKind}
    (hspans : e.spans = S.own ++ [Span.item i kind]) : e.notice.ofItem = true := by
  have hfilter : e ∈ (S.marks.filterMap Mark.event?).filter
      (·.spans = S.own ++ [Span.item i kind]) :=
    List.mem_filter.2 ⟨hmem, decide_eq_true hspans⟩
  rw [told_item hbuild] at hfilter
  rcases spans_of_mem_told_itemsPlan (List.mem_of_mem_filter hfilter) with hown | ⟨_, _, -, hnotice⟩
  · exact absurd (Event.in_of_spans hspans) (Event.not_in_of_spans hown i)
  · exact hnotice

/-- Where no invocation gives a notice of its item, those in the trace are the engine's own. -/
theorem Unfeigned.filter_reported {S : Scene υ} (unfeigned : S.Unfeigned)
    (hbuild : S.flow.buildError = none) (i : Nat) (kind : ItemKind) :
    (S.reported.filter fun e => e.spans = S.own ++ [Span.item i kind] ∧ e.notice.ofItem = true).map
      Event.notice = S.told (S.own ++ [Span.item i kind]) := by
  rw [told, reported_eq_marks, Mark.filter_reported]
  · refine congrArg _ (List.filter_congr fun e he => ?_)
    rw [decide_eq_decide, and_iff_left_iff_imp]
    exact ofItem_of_mem_told hbuild he
  · intro entry hentry e he
    rw [entries_eq_marks] at hentry
    rw [decide_eq_false_iff_not]
    rintro ⟨hspans, hnotice⟩
    obtain ⟨j, item, -, hentry_spans⟩ := exists_of_mem_entries hentry
    have hprefix : entry.spans <+: e.spans := Program.prefix_of_mem_emitted_under _ _ he
    have hsame : entry.spans = e.spans := by
      refine hprefix.eq_of_length ?_
      rw [hspans, hentry_spans, List.length_append, List.length_append]
      rfl
    rw [unfeigned entry hentry e he hsame.symm] at hnotice
    cases hnotice

/-- A run that returns has ended every item that it came to. -/
theorem Returns.ended_of_mem {S : Scene υ} {completion : Completion}
    (returns : S.Returns completion) {p : Passage υ} (hmem : p ∈ S.passages) :
    ∃ st outcome left, p.course = .ended st outcome left := by
  have hfinished (finishes : p.Finishes) :
      ∃ st outcome left, p.course = .ended st outcome left := by
    obtain ⟨st, output, left, hcourse⟩ := finishes
    exact ⟨st, .ok output, left, hcourse⟩
  obtain ⟨st, left, hended⟩ := returns.account
  have hconcludes := S.account_passages.2.2
  rw [hended] at hconcludes
  cases completion with
  | ok results => exact hfinished (hconcludes.2.2.2 p hmem)
  | error e =>
      rcases hconcludes with ⟨error, hbuild, -⟩ | ⟨-, -, firsts, failing, hsplit, hfirsts, hfailing⟩
      · rw [passages, hbuild] at hmem
        cases hmem
      · rw [hsplit] at hmem
        rcases List.mem_append.1 hmem with hfirst | hlast
        · exact hfinished (hfirsts p hfirst)
        · obtain rfl := List.mem_singleton.1 hlast
          obtain ⟨st, left, hcourse⟩ := hfailing
          exact ⟨st, .error e, left, hcourse⟩

/-- Every event that is reported in an item is reported in one that the run comes to. -/
theorem Returns.lt_of_in {S : Scene υ} {completion : Completion} (returns : S.Returns completion)
    {e : Event} (hmem : e ∈ S.reported) {i : Nat} (hin : e.In S.own i) : i < S.passages.length := by
  obtain ⟨opening, inner, closing, recounts⟩ := returns.accounts
  rw [recounts.layout] at hmem
  have hnotice {notices : List Notice} (hmem : e ∈ notices.map (⟨·, S.own⟩)) : False := by
    obtain ⟨notice, -, rfl⟩ := List.mem_map.1 hmem
    have hown : (Event.mk notice S.own).spans = S.own := rfl
    exact Event.not_in_of_spans hown i hin
  rcases List.mem_append.1 hmem with hmem | hclosing
  · rcases List.mem_append.1 hmem with hopening | hinner
    · exact (hnotice hopening).elim
    · obtain ⟨j, item, -, hlt, hprefix⟩ := recounts.items e hinner
      rwa [hin.unique ⟨item.kind, hprefix⟩]
  · exact (hnotice hclosing).elim

end Scene

/-- Of a sequence that is built the loops have one branch. -/
theorem Draft.Reachable.exists_branch {d : Draft υ} (reachable : d.Reachable) {i : Nat}
    {item : ItemOutline} (hitem : d.sequence.outline.items[i]? = some item)
    (hkind : item.kind = .loop) : ∃ branch, item.branches = [branch] := by
  obtain ⟨entries, rfl, built⟩ := reachable.exists_of
  simp only [Sequence.outline, of, List.getElem?_mapIdx, List.getElem?_map, Option.map_map,
    Option.map_eq_some_iff] at hitem
  obtain ⟨e, he, rfl⟩ := hitem
  cases built e (List.mem_of_getElem? he) with
  | loop slot => exact ⟨slot.outline, rfl⟩
  | chain => cases hkind
  | unclosed => cases hkind
  | closed => cases hkind

namespace Scene

/-- How the trace of a run agrees, in an item that it comes to, with the outline of that item. -/
structure Outlined (S : Scene υ) (i : Nat) (p : Passage υ) (item : ItemOutline) : Prop where
  listed : S.flow.sequence.outline.items[i]? = some item
  /-- What the engine reports by itself under the span of the item follows from the outline, given
  the outcome. -/
  explains : ∃ st outcome left, p.course = .ended st outcome left ∧
    item.Explains (p.entries.map Entry.outline) (S.told (S.own ++ [.item i item.kind])) outcome
  /-- In an item that fails it is the last invocation that failed, and no other one. -/
  failsFirst : Account.FailsFirst S.flow.config ⟨p.entries, .empty, p.course.halt⟩
  /-- The loops of a sequence that was built have one branch. -/
  only : item.kind = .loop → (∃ d : Draft υ, d.Reachable ∧ d.sequence = S.flow.sequence) →
    ∃ branch, item.branches = [branch]
  /-- Where the invocations give no such notices, the trace shows them as they are. -/
  traced : S.Unfeigned → (S.reported.filter fun e =>
    e.spans = S.own ++ [.item i item.kind] ∧ e.notice.ofItem = true).map Event.notice =
      S.told (S.own ++ [.item i item.kind])

/-- The trace of a run that returns is what the engine reports by itself, and what is reported in
the invocations that it makes.  Every item under whose span anything is reported is one that the run
comes to, and what the engine reports by itself in such an item agrees with its outline. -/
theorem trace_follows_outline {S : Scene υ} {completion : Completion}
    (returns : S.Returns completion) (declared : S.flow.buildError = none) :
    S.reported = S.marks.flatMap (Mark.reported S.flow.config) ∧
    S.marks.filterMap Mark.entry? = S.entries ∧
    (∀ e ∈ S.reported, ∀ i, e.In S.own i → i < S.passages.length) ∧
    ∀ i p, S.passages[i]? = some p → ∃ item, S.Outlined i p item := by
  refine ⟨S.reported_eq_marks, S.entries_eq_marks, fun e he i hin => returns.lt_of_in he hin,
    fun i p hp => ?_⟩
  obtain ⟨st, outcome, left, hcourse⟩ := returns.ended_of_mem (List.mem_of_getElem? hp)
  have hpassages := passages_declared declared
  dsimp only at hpassages
  rw [← own] at hpassages
  rw [hpassages] at hp
  obtain ⟨hitem, acts, mid, r, hpassage, htold⟩ := told_of_passages hp .empty
  rw [Nat.zero_add] at hpassage htold
  have hlisted : S.flow.sequence.outline.items[i]? = some (p.item.outline i) := by
    rw [Sequence.outline, List.getElem?_mapIdx, hitem]
    rfl
  refine ⟨p.item.outline i, hlisted, ⟨st, outcome, left, hcourse, ?_⟩,
    failsFirst_of_mem_passages (List.mem_of_getElem? hp), ?_, fun unfeigned =>
      unfeigned.filter_reported declared i _⟩
  · have ended := hcourse
    rw [hpassage] at ended
    have hexplains := Item.outline_explains ended i r
    dsimp only at hexplains
    rw [← hpassage, ← htold, ← told_item declared] at hexplains
    exact hexplains
  · rintro hkind ⟨d, reachable, hsequence⟩
    rw [← hsequence] at hlisted
    exact reachable.exists_branch hlisted hkind

end Scene

/-- Counts, and says whether the count was below a bound. -/
def below (bound : Nat) : Step Nat :=
  .sync fun _ => .user (· + 1) fun n => .done (.ok (.single (.bool (n < bound))))

/-- Fails unless the count is below eight. -/
def belowEight : Step Nat :=
  .sync fun _ => .user id fun n => .done (if n < 8 then .ok .empty else .error (.message "full"))

/-- A condition whose second branch matches, and a loop that fails in its second pass. -/
def fillingRun : Scene Nat where
  limit := 2
  flow := { sequence := { items := [
    ⟨.condition,
      [⟨below 0, []⟩, ⟨below 9, [Step.Stub.countedSync (· + 1), below 9]⟩, ⟨.always, []⟩], true⟩,
    ⟨.loop, [⟨below 9, [Step.Stub.countedSync (· + 1), belowEight]⟩], true⟩] } }
  spans := []
  acts := []
  store := { user := 0 }

/-- What the trace shows of an item directly under its span. -/
def Scene.shown (S : Scene υ) (i : Nat) (kind : ItemKind) : List (String × List (String × Field)) :=
  (S.reported.filter fun e => e.spans = S.own ++ [.item i kind] ∧ e.notice.ofItem = true).map
    fun e => (e.notice.message, e.notice.fields)

theorem trace_follows_outline_filling :
    fillingRun.Returns (.error (.failed (.message "full"))) ∧ fillingRun.Unfeigned ∧
    (∃ p item, fillingRun.passages[1]? = some p ∧ fillingRun.Outlined 1 p item) ∧
    fillingRun.shown 0 .condition =
      [("Predicate did not hold", [("branch", .number 0)]),
        ("Branch matched", [("branch", .number 1)]),
        ("Running action",
          [("action", .number 0), ("label", .text "counter"), ("shape", .text "sync")]),
        ("Running action",
          [("action", .number 1), ("label", .text "anonymous"), ("shape", .text "sync")])] ∧
    fillingRun.shown 1 .loop = (List.replicate 2
      [("Running action",
          [("action", .number 0), ("label", .text "counter"), ("shape", .text "sync")]),
        ("Running action",
          [("action", .number 1), ("label", .text "anonymous"), ("shape", .text "sync")])]).flatten
      := by
  have hreturns : fillingRun.Returns (.error (.failed (.message "full"))) := ⟨_, _, rfl⟩
  have hunfeigned : fillingRun.Unfeigned := by
    unfold Scene.Unfeigned
    decide +kernel
  obtain ⟨p, hp⟩ : ∃ p, fillingRun.passages[1]? = some p := ⟨_, rfl⟩
  obtain ⟨-, -, -, houtlined⟩ := Scene.trace_follows_outline hreturns rfl
  obtain ⟨item, outlined⟩ := houtlined 1 p hp
  refine ⟨hreturns, hunfeigned, ⟨p, item, hp, outlined⟩, ?_, ?_⟩
  · decide +kernel
  · decide +kernel

end Stepwise
