import Stepwise.Proofs.EnteredSpans
import Stepwise.Proofs.Nesting
import Stepwise.Proofs.TraceOfRun
import Stepwise.Step.Stub
/-!
# Traces of nested runs

A run that is nested in an item of another one reports there, under the spans of that item.  So what
holds of the trace of a run holds at every depth of the runs that are nested in it.
-/

namespace Stepwise

variable {υ : Type}

/-- The invocation is that of a future step whose task, at some point, runs a flow: the given run is
that one, from the moment at which the task comes to it. -/
inductive Entry.Runs (e : Entry υ) (S : Scene υ) : Prop
  | intro {γ : Type} {start : Values → Direct υ (Suspending υ (Except Cause Values))}
      {prepare : Suspending υ γ} {body : γ → Suspending υ (Except Cause Values)} {value : γ}
      {rest : Completion × ResultSet → Suspending υ (Except Cause Values)} {mid : Store υ}
      (step : e.step.invoker = .future start)
      (starts : ((start e.args).under e.spans).run
        (e.store.openChannel.2.discard e.store.openChannel.1) = (.ok (prepare.bind body), mid))
      (prepares : (prepare.under e.spans).course e.acts mid = .ended S.store value S.acts)
      (runs : body value = ((S.flow.exec S.limit).withLocal S.flow.results).bind rest)
      (spans : S.spans = e.spans)

/-- A task that prepares a flow and runs it is one that runs a flow. -/
theorem Entry.Nests.runs {e : Entry υ} {S : Scene υ} (nests : e.Nests S) : e.Runs S := by
  obtain ⟨hstep, hstarts, hprepares, hspans⟩ := nests
  exact .intro hstep hstarts hprepares rfl hspans

/-- What a nested run reports is a part of what the invocation does that it is nested in. -/
theorem Entry.Runs.emitted_infix {e : Entry υ} {S : Scene υ} (runs : e.Runs S) (config : Config) :
    S.emitted <:+: e.emitted config := by
  obtain @⟨γ, start, prepare, body, value, rest, mid, hstep, hstarts, hprepares, hruns, hspans⟩ :=
    runs
  refine List.IsInfix.trans ?_ (e.emitted_of_task hstep hstarts config).isInfix
  rw [Program.under_bind, Program.emitted_bind, hprepares]
  simp only [hruns, Program.under_bind, Program.emitted_bind, Program.under_withLocal,
    Program.emitted_withLocal, ← hspans]
  exact (List.prefix_append _ _).isInfix.trans (List.suffix_append _ _).isInfix

/-- An invocation is made directly under the span of the item that it is in. -/
theorem exists_of_mem_passages {limit : Nat} {config : Config} {spans : List Span} {index : Nat}
    {items : List (Item υ)} {acts : List (Act υ)} {st : Store υ} {p : Passage υ} {entry : Entry υ}
    (hmem : p ∈ passages limit config spans index items acts st) (hentry : entry ∈ p.entries) :
    ∃ i item, items[i]? = some item ∧ entry.spans = spans ++ [Span.item (index + i) item.kind] := by
  induction items generalizing index acts st with
  | nil => cases hmem
  | cons item rest ih =>
      rw [passages] at hmem
      rcases List.mem_cons.1 hmem with rfl | hmem
      · exact ⟨0, item, rfl, (item.plan_bare limit config).spans_of_mem hentry⟩
      · split at hmem
        · obtain ⟨i, found, hitem, hspans⟩ := ih hmem
          refine ⟨i + 1, found, hitem, ?_⟩
          rwa [Nat.add_right_comm, Nat.add_assoc] at hspans
        · cases hmem

namespace Scene

theorem exists_of_mem_entries {S : Scene υ} {entry : Entry υ} (hmem : entry ∈ S.entries) :
    ∃ i item, S.flow.sequence.items[i]? = some item ∧
      entry.spans = S.own ++ [Span.item i item.kind] := by
  rw [S.account_passages.1] at hmem
  obtain ⟨p, hp, hentry⟩ := List.mem_flatMap.1 hmem
  unfold passages at hp
  split at hp
  · cases hp
  · obtain ⟨i, item, hitem, hspans⟩ := exists_of_mem_passages hp hentry
    rw [Nat.zero_add] at hspans
    exact ⟨i, item, hitem, hspans⟩

/-- The first run is around the other one, so many levels down: it makes an invocation in which that
one is nested, or another run around it. -/
inductive Surrounds : Scene υ → Nat → Scene υ → Prop
  | self (S : Scene υ) : S.Surrounds 0 S
  | nested {outer below S : Scene υ} {depth : Nat} {entry : Entry υ} (mem : entry ∈ outer.entries)
      (runs : entry.Runs below) (surrounds : below.Surrounds depth S) :
      outer.Surrounds (depth + 1) S

theorem Encloses.surrounds {outer S : Scene υ} {depth : Nat} (encloses : outer.Encloses depth S) :
    outer.Surrounds depth S := by
  induction encloses with
  | self => exact .self _
  | nested mem nests _ _ ih => exact .nested mem nests.runs ih

end Scene

/-- So many levels of spans, each that of a flow with that of one of its items in it. -/
inductive Span.Levels : Nat → List Span → Prop
  | nil : Levels 0 []
  | cons (label : String) (index : Nat) (kind : ItemKind) {depth : Nat} {deeper : List Span}
      (levels : Levels depth deeper) : Levels (depth + 1) (.flow label :: .item index kind :: deeper)

namespace Scene

/-- A run reports, within an item, what the runs report that are nested there. -/
structure Carries (outer : Scene υ) (depth : Nat) (S : Scene υ) : Prop where
  emitted : S.emitted <:+: outer.reported
  /-- Between the span of the item and that of the nested flow are those of the runs between. -/
  spans : ∃ i item deeper, outer.flow.sequence.items[i]? = some item ∧
    Span.Levels depth deeper ∧ S.spans = outer.own ++ .item i item.kind :: deeper

theorem reported_prefix (S : Scene υ) : S.reported <+: S.emitted := by
  rw [emitted, reported, Flow.exec_eq_plan, Flow.drive_eq_plan, Program.under_bind,
    Program.emitted_bind]
  exact List.prefix_append _ _

theorem carries_of_runs {outer below : Scene υ} {entry : Entry υ} (hmem : entry ∈ outer.entries)
    (runs : entry.Runs below) : outer.Carries 0 below := by
  obtain ⟨i, item, hitem, hspans⟩ := exists_of_mem_entries hmem
  refine ⟨?_, i, item, [], hitem, .nil, ?_⟩
  · rw [reported_eq_plan]
    exact (runs.emitted_infix outer.flow.config).trans (Plan.emitted_infix hmem)
  · obtain @⟨_, _, _, _, _, _, _, -, -, -, -, hsame⟩ := runs
    exact hsame.trans hspans

/-- What is carried by a nested run is carried by the run around it. -/
theorem Carries.outward {outer below S : Scene υ} {depth : Nat} (outward : outer.Carries 0 below)
    (carries : below.Carries depth S) : outer.Carries (depth + 1) S := by
  obtain ⟨i, item, _, hitem, ⟨⟩, hbelow⟩ := outward.spans
  obtain ⟨j, inner, deeper, -, hlevels, hspans⟩ := carries.spans
  refine ⟨carries.emitted.trans (below.reported_prefix.isInfix.trans outward.emitted), i, item,
    .flow below.flow.config.spanLabel :: .item j inner.kind :: deeper, hitem,
    .cons _ j inner.kind hlevels, ?_⟩
  rw [hspans, own, hbelow, List.append_assoc, List.append_assoc]
  rfl

theorem Surrounds.carries {outer S : Scene υ} {depth : Nat}
    (surrounds : outer.Surrounds (depth + 1) S) : outer.Carries depth S := by
  induction depth generalizing outer with
  | zero =>
      obtain _ | ⟨hmem, hruns, hself⟩ := surrounds
      cases hself
      exact carries_of_runs hmem hruns
  | succ depth ih =>
      obtain _ | ⟨hmem, hruns, hsurrounds⟩ := surrounds
      exact (carries_of_runs hmem hruns).outward (ih hsurrounds)

/-- The trace of a run that returns accounts for what it returns, and no span of the run is left
entered when a poll is over.  The same holds at every depth of the runs that are nested in it, which
report in the item where they are nested.  The run of a host is such a run, and the polls of the host
report what it reports. -/
theorem trace_accounts {S : Scene υ} {completion : Completion} (returns : S.Returns completion) :
    S.Accounts completion ∧ S.LeavesSpans ∧
    (∀ depth inner, S.Surrounds (depth + 1) inner → S.Carries depth inner ∧ inner.LeavesSpans ∧
      ∀ innermost, inner.Returns innermost → inner.Accounts innermost) ∧
    ∀ limit acts (h : Host υ), h.scene limit acts = S →
      ((h.start limit).watch acts).1 = .ended completion ∧
        (h.start limit).reports acts = S.emitted := by
  refine ⟨returns.accounts, S.leavesSpans, fun depth inner surrounds => ?_, ?_⟩
  · exact ⟨surrounds.carries, inner.leavesSpans, fun innermost hinner => hinner.accounts⟩
  · rintro limit acts h rfl
    exact ⟨Host.returns_iff_watch.1 returns, h.reports_start limit acts⟩

end Scene

/-! ## A run that waits in a nested one -/

/-- A chain that is pending once, and then one that is out of tea. -/
def steepingFlow : Flow Unit :=
  { sequence := { items := [⟨.chain, [⟨.always, [Step.Stub.deferred (.single (.int 1))]⟩], true⟩] ++
      teaFlow.sequence.items } }

def steepingHost : Host Unit := { store := { user := () }, flow := steepingFlow.nested.nested }

/-- The run that is two levels down. -/
def steepingRun : Scene Unit :=
  ((steepingHost.scene 1 [id]).second steepingFlow.nested).second steepingFlow

/-- Two runs around one that waits in its first item and fails in its second one. -/
theorem trace_accounts_steeping :
    let e := FlowError.passedOn^[2] outOfTea
    (steepingHost.scene 1 [id]).Returns (.error e) ∧
    (steepingHost.scene 1 [id]).Accounts (.error e) ∧
    (steepingHost.scene 1 [id]).LeavesSpans ∧
    (steepingHost.scene 1 [id]).Carries 1 steepingRun ∧
    steepingRun.Returns (.error outOfTea) ∧ steepingRun.Accounts (.error outOfTea) ∧
    ((steepingHost.start 1).watch [id]).1 = .ended (.error e) ∧
    (steepingRun.emitted.map fun e =>
        (e.notice.message, e.notice.fields, e.spans.drop steepingRun.spans.length)) =
      [("Flow started", [("items", .number 2)], [.flow "flow"]),
        ("Branch matched", [("branch", .number 0)], [.flow "flow", .item 0 .chain]),
        ("Running action", [("action", .number 0), ("label", .text "deferred"),
          ("shape", .text "future")], [.flow "flow", .item 0 .chain]),
        ("Branch matched", [("branch", .number 0)], [.flow "flow", .item 1 .chain]),
        ("Running action", [("action", .number 0), ("label", .text "anonymous"),
          ("shape", .text "sync")], [.flow "flow", .item 1 .chain]),
        ("Item failed, stopping flow", [("item", .number 1), ("kind", .text "chain"),
          ("error", .text "no tea")], [.flow "flow"]),
        ("Flow failed", [("error", .text "no tea")], [.flow "flow"])] := by
  have hencloses : (steepingHost.scene 1 [id]).Encloses 2 steepingRun :=
    Scene.encloses_second steepingFlow.nested rfl nofun
      (Scene.encloses_second steepingFlow rfl nofun (.self steepingRun))
  have hlast : steepingRun.entries[3]?.bind (Entry.settlement? steepingRun.flow.config) =
      some (.error outOfTea) := rfl
  obtain ⟨entry, hentry, hsettled⟩ := Option.bind_eq_some_iff.1 hlast
  have hreturns : steepingRun.Returns (.error outOfTea) :=
    Scene.returns_of_settlement? (List.mem_of_getElem? hentry) hsettled nofun
  obtain ⟨haccounts, hleaves, hnested, hhosts⟩ := Scene.trace_accounts (hencloses.returns hreturns)
  obtain ⟨hcarries, -, hinner⟩ := hnested 1 steepingRun hencloses.surrounds
  refine ⟨hencloses.returns hreturns, haccounts, hleaves, hcarries, hreturns, hinner _ hreturns,
    (hhosts 1 [id] steepingHost rfl).1, ?_⟩
  decide +kernel

end Stepwise
