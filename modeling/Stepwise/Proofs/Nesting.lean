import Stepwise.Proofs.Provenance
import Stepwise.Proofs.Tasks
import Stepwise.Script.Body
/-!
# Errors of nested flows

The task of a future step may run another flow and pass its error on.  Then the run around it fails
with an error that wraps the one of the nested run: it has the same text, but neither its kind nor
the type of what user code failed with.  So it goes on through any number of runs around that one.
-/

namespace Stepwise

variable {υ ρ α : Type}

/-! ## Runs in which an invocation fails -/

theorem Plan.FailFast.account {p : Plan υ (Except FlowError α)} (failFast : p.FailFast)
    {config : Config} {acts : List (Act υ)} {st : Store υ} {r : ResultSet} {entry : Entry υ}
    (hmem : entry ∈ (p.account config acts st r).entries) {e : FlowError}
    (hsettled : entry.settlement? config = some (.error e)) :
    ∃ last left, (p.account config acts st r).halt = .ended last (.error e) left := by
  induction p generalizing acts st r with
  | done value => cases hmem
  | exhausted => cases hmem
  | report spans notice next ih => exact ih failFast hmem
  | results update next ih => exact ih r (failFast r) hmem
  | invoke spans step args next ih =>
      rcases mem_account_invoke.1 hmem with rfl | ⟨mid, s, left, hcourse, hmem⟩
      · obtain ⟨mid, left, hcourse⟩ := Course.ended_of_value? hsettled
        obtain ⟨last, hlast⟩ := (failFast.1 e).account config left mid
        rw [account_invoke, hcourse]
        simp only [hlast]
        exact ⟨last, left, rfl⟩
      · rw [account_invoke, hcourse]
        exact ih s (failFast.2 s) hmem

/-- Where a plain function is called from makes no difference to what it returns. -/
theorem Program.run_under (spans : List Span) (p : Direct υ α) (st : Store υ) :
    ((p.under spans).run st).1 = (p.run st).1 := by
  have hbeside : st.Beside spans () st.reports st.reports (st.attach ()) :=
    .start st (st.attach ()) rfl rfl rfl rfl
  suffices hall : ∀ log outerLog (st outer : Store υ),
      st.Beside spans () log outerLog (outer.attach ()) →
        ((p.under spans).run outer).1 = (p.run st).1 from hall _ _ st st hbeside
  intro log outerLog
  induction p with
  | done value => exact fun _ _ _ => rfl
  | panic payload => exact fun _ _ _ => rfl
  | exhausted may => cases may
  | user update next ih =>
      intro st outer beside
      have huser : outer.user = st.user := congrArg Prod.fst beside.user
      simp only [under, run, huser]
      exact ih _ _ _ (beside.update update)
  | request inner q next ih =>
      intro st outer beside
      obtain ⟨hreply, hbeside⟩ := beside.answer inner q
      obtain ⟨hsame, hstore⟩ := (outer.attach ()).answer_attach (spans ++ inner) q
      rw [hstore] at hbeside
      have hanswer : (outer.answer (spans ++ inner) q).1 = (st.answer inner q).1 :=
        hsame.symm.trans hreply
      simp only [under, run, hanswer]
      exact ih _ _ _ hbeside
  | pause may => cases may
  | await may => cases may

/-- Resolvers that never panic are told to the end. -/
theorem Halt.told_ended {spans : List Span} {resolvers : List (Resolver υ)}
    (quiet : ∀ resolver ∈ resolvers, Resolver.Quiet resolver) (st : Store υ)
    (completion : Completion) (left : List (Act υ)) :
    ∃ last, (Halt.ended st completion left).told spans resolvers = .ended last completion left := by
  have htold := Program.run_under spans (Flow.notify completion resolvers) st
  rw [Flow.run_notify completion fun resolver hresolver => quiet resolver hresolver completion]
    at htold
  simp only [told]
  rcases hrun : ((Flow.notify completion resolvers).under spans).run st with ⟨result, last⟩
  rw [hrun] at htold
  obtain rfl : result = .ok () := htold
  exact ⟨last, rfl⟩

/-- A run in which an invocation fails returns its error. -/
theorem Scene.returns_of_settlement? {S : Scene υ} {entry : Entry υ} (hmem : entry ∈ S.entries)
    {e : FlowError} (hsettled : entry.settlement? S.flow.config = some (.error e))
    (quiet : ∀ resolver ∈ S.flow.resolvers, Resolver.Quiet resolver) : S.Returns (.error e) := by
  have hfailFast := (S.flow.plan_failFast S.limit).under S.spans
  obtain ⟨mid, left, hended⟩ := hfailFast.account hmem hsettled
  obtain ⟨last, htold⟩ := Halt.told_ended quiet mid (.error e) left
  refine Scene.returns_iff_halt.2 ⟨last, left, ?_⟩
  unfold halt account
  rw [hended]
  exact htold

/-! ## Flows that run in a task -/

/-- A task that prepares another flow, unless it returns early, runs it, and passes its error on. -/
def Program.nesting (limit : Nat)
    (prepare : Suspending υ (Except (Except Cause Values) (Flow υ)))
    (rest : ResultSet → Suspending υ (Except Cause Values)) : Suspending υ (Except Cause Values) :=
  prepare.bind fun
    | .error result => .done result
    | .ok flow => ((flow.exec limit).withLocal flow.results).bind fun
        | (.ok results, _) => rest results
        | (.error e, _) => .done (.error (.flow e))

/-- A run begins without results, whatever its flow has. -/
theorem Flow.exec_withLocal (limit : Nat) (flow : Flow υ) (r r' : ResultSet) :
    (flow.exec limit).withLocal r = (flow.exec limit).withLocal r' := rfl

open Script Program in
/-- The task of a script that runs a flow is such a task. -/
theorem Script.toStep_flow (limit body : Nat) (config : Config) (declarations : List Declaration)
    (after : List Instruction) (label : Option String) :
    ((StepScript.scripted .future (.flow config declarations :: after) label).toStep limit
      body).invoker =
      .future fun _ => .done <| .nesting limit
        ((modifyGet (Memory.start body)).bind fun _ =>
          (declareAll limit declarations (Flow.empty.withConfig config)).bind fun flow =>
            .done (.ok flow))
        fun results => .done (.ok ⟨results.toList⟩) := by
  have hlabel (step : Step Memory) : (relabel step label).invoker = step.invoker := by
    cases label <;> rfl
  rw [StepScript.toStep, hlabel]
  simp only [Style.toStep, Step.task, Step.future, Style.alone, runBody, Instruction.run, nesting,
    bind_eq, pure_eq, bind_assoc, done_bind]
  congr 1
  funext args
  congr 2
  funext turn
  congr 1
  funext flow
  rw [flow.exec_withLocal limit .empty flow.results]
  congr 1
  funext x
  obtain ⟨_ | results, _⟩ := x <;> rfl

section Fair

variable {keeps : υ → Set Handle} {limit : Nat}
  {prepare : Suspending υ (Except (Except Cause Values) (Flow υ))}
  {rest : ResultSet → Suspending υ (Except Cause Values)}

end Fair

/-- The error of a run whose step passes on the error of a nested one. -/
def FlowError.passedOn (e : FlowError) : FlowError := .failed (.flow e)

/-- The invocation is that of a future step whose task runs a flow: the given run is that one, from
the moment at which the task comes to it. -/
inductive Entry.Nests (e : Entry υ) (S : Scene υ) : Prop
  | intro {start : Values → Direct υ (Suspending υ (Except Cause Values))}
      {prepare : Suspending υ (Except (Except Cause Values) (Flow υ))}
      {rest : ResultSet → Suspending υ (Except Cause Values)} {mid : Store υ}
      (step : e.step.invoker = .future start)
      (starts : ((start e.args).under e.spans).run
        (e.store.openChannel.2.discard e.store.openChannel.1) =
          (.ok (.nesting S.limit prepare rest), mid))
      (prepares : (prepare.under e.spans).course e.acts mid =
        .ended S.store (.ok S.flow) S.acts)
      (spans : S.spans = e.spans)

/-- An invocation passes on the error of the run that it nests. -/
theorem Entry.Nests.settlement? {e : Entry υ} {S : Scene υ} (nests : e.Nests S) {error : FlowError}
    (returns : S.Returns (.error error)) (config : Config) :
    e.settlement? config = some (.error error.passedOn) := by
  obtain @⟨start, prepare, rest, mid, hstep, hstarts, hprepares, hspans⟩ := nests
  obtain ⟨st, left, hhalt⟩ := Scene.returns_iff_halt.1 returns
  have hcourse := Scene.course_of_halt hhalt
  unfold Scene.course at hcourse
  have hnested := Program.course_withLocal hcourse
  have htask : ((Program.nesting S.limit prepare rest).under e.spans).course e.acts mid =
      .ended st (.error (.flow error)) left := by
    unfold Program.nesting
    rw [Program.under_bind, Program.course_bind, hprepares]
    simp only [Course.andThen]
    rw [Program.under_bind, Program.course_bind, Program.under_withLocal, ← hspans, hnested]
    rfl
  unfold Entry.settlement?
  rw [course_of_task hstep hstarts htask]
  rfl

/-! ## Runs around a run -/

/-- The first run encloses the other one, so many levels down: it invokes a step whose task nests
it, or nests a run that encloses it.  No resolver on the way panics. -/
inductive Scene.Encloses : Scene υ → Nat → Scene υ → Prop
  | self (S : Scene υ) : S.Encloses 0 S
  | nested {outer below S : Scene υ} {depth : Nat} {entry : Entry υ}
      (mem : entry ∈ outer.entries) (nests : entry.Nests below)
      (quiet : ∀ resolver ∈ outer.flow.resolvers, Resolver.Quiet resolver)
      (encloses : below.Encloses depth S) : outer.Encloses (depth + 1) S

/-- An error is passed on through all runs around the one that it ends. -/
theorem Scene.Encloses.returns {outer S : Scene υ} {depth : Nat} (encloses : outer.Encloses depth S)
    {error : FlowError} (returns : S.Returns (.error error)) :
    outer.Returns (.error (FlowError.passedOn^[depth] error)) := by
  induction encloses with
  | self => exact returns
  | nested mem nests quiet encloses ih =>
      rw [Function.iterate_succ_apply']
      exact returns_of_settlement? mem (nests.settlement? (ih returns) _) quiet

def outOfTea : FlowError := .failed (.context "no tea" (.outOfStock 4))

def teaFlow : Flow Unit :=
  { sequence := { items := [⟨.chain, [⟨.always,
      [.sync fun _ => .done (.error (.context "no tea" (.outOfStock 4)))]⟩], true⟩] } }

/-- A step whose task runs the given flow. -/
def Flow.asStep (flow : Flow Unit) : Step Unit :=
  .task fun _ => .nesting 1 (.done (.ok flow)) fun results => .done (.ok ⟨results.toList⟩)

def Flow.nested (flow : Flow Unit) : Flow Unit :=
  { sequence := { items := [⟨.chain, [⟨.always, [flow.asStep]⟩], true⟩] } }

/-- The run of the given flow in the second invocation of a run. -/
def Scene.second (flow : Flow Unit) (S : Scene Unit) : Scene Unit :=
  S.entries[1]?.elim S fun e =>
    ⟨1, flow, e.spans, e.acts, e.store.openChannel.2.discard e.store.openChannel.1⟩

theorem Scene.encloses_second {outer S : Scene Unit} (flow : Flow Unit) {depth : Nat}
    (hstep : outer.entries[1]?.map (·.step) = some flow.asStep)
    (quiet : ∀ resolver ∈ outer.flow.resolvers, Resolver.Quiet resolver)
    (encloses : (outer.second flow).Encloses depth S) : outer.Encloses (depth + 1) S := by
  obtain ⟨entry, hentry, hsame⟩ := Option.map_eq_some_iff.1 hstep
  have hsecond : outer.second flow = ⟨1, flow, entry.spans, entry.acts,
      entry.store.openChannel.2.discard entry.store.openChannel.1⟩ := by
    unfold second
    rw [hentry]
    rfl
  refine .nested (List.mem_of_getElem? hentry) ?_ quiet encloses
  rw [hsecond]
  exact .intro (congrArg Step.invoker hsame) rfl rfl rfl

end Stepwise
