import Stepwise.Poll
import Stepwise.Proofs.Plan
/-!
# The position of a run

A run that is suspended is suspended in one invocation of a step.  The invocations before it are
settled, each with a settlement that the plan of the run went on with, and what is left of the run
is what is left of that invocation, followed by the rest of the plan.
-/

namespace Stepwise

variable {m : Mode} {υ ρ α β : Type}

/-! ## Parts of programs -/

/-- What may be left of a program. -/
inductive Program.Part : Program m υ α → Program m υ α → Prop where
  | whole (p : Program m υ α) : Part p p
  | user {update : υ → υ} {next : υ → Program m υ α} {q : Program m υ α} (u : υ)
      (rest : Part (next u) q) : Part (.user update next) q
  | request {spans : List Span} {r : Request} {next : r.Reply → Program m υ α}
      {q : Program m υ α} (x : r.Reply) (rest : Part (next x) q) : Part (.request spans r next) q
  | pause {may : m = .suspending} {onDrop : List Handle} {next : Unit → Program m υ α}
      {q : Program m υ α} (rest : Part (next ()) q) : Part (.pause may onDrop next) q
  | await {may : m = .suspending} {onDrop : List Handle} {h : Handle}
      {next : Settlement → Program m υ α} {q : Program m υ α} (s : Settlement)
      (rest : Part (next s) q) : Part (.await may onDrop h next) q

namespace Program

theorem Part.trans {p q r : Program m υ α} (first : Part p q) (second : Part q r) : Part p r := by
  induction first with
  | whole p => exact second
  | user u _ ih => exact .user u (ih second)
  | request x _ ih => exact .request x (ih second)
  | pause _ ih => exact .pause (ih second)
  | await s _ ih => exact .await s (ih second)

/-- What is left of a program that is pending. -/
inductive Left : Suspending υ α → Suspending υ α → Prop where
  | await {p : Suspending υ α} {may : Mode.suspending = .suspending} {onDrop : List Handle}
      {h : Handle} {next : Settlement → Suspending υ α} (part : Part p (.await may onDrop h next)) :
      Left p (.await may onDrop h next)
  | pause {p : Suspending υ α} {may : Mode.suspending = .suspending} {onDrop : List Handle}
      {next : Unit → Suspending υ α} (part : Part p (.pause may onDrop next)) : Left p (next ())

theorem Part.left {p q r : Suspending υ α} (part : Part p q) (left : Left q r) : Left p r := by
  cases left with
  | await last => exact .await (part.trans last)
  | pause last => exact .pause (part.trans last)

theorem Left.part {p q : Suspending υ α} (left : Left p q) : Part p q := by
  cases left with
  | await part => exact part
  | pause part => exact part.trans (.pause (.whole _))

/-- What is left of a part of a run that is pending is left of that part. -/
theorem left_of_poll {p : Suspending υ α} {spans : List Span} {st last : Store (υ × ρ)}
    {rest : Parked (υ × ρ) α} (hpoll : (p.inside spans).poll st = .pending last rest) :
    ∃ q, Left p q ∧ rest.program = q.inside spans := by
  induction p generalizing st with
  | done value => cases hpoll
  | panic payload => cases hpoll
  | exhausted may => cases hpoll
  | user update next ih =>
      obtain ⟨q, hleft, hrest⟩ := ih _ hpoll
      exact ⟨q, Part.left (.user _ (.whole _)) hleft, hrest⟩
  | request inner r next ih =>
      obtain ⟨q, hleft, hrest⟩ := ih _ hpoll
      exact ⟨q, Part.left (.request _ (.whole _)) hleft, hrest⟩
  | pause may onDrop next ih =>
      cases hpoll
      exact ⟨next (), .pause (.whole _), rfl⟩
  | await may onDrop h next ih =>
      simp only [inside, poll] at hpoll
      cases hsettled : st.settlement? h with
      | some s =>
          rw [hsettled] at hpoll
          obtain ⟨q, hleft, hrest⟩ := ih s hpoll
          exact ⟨q, Part.left (.await s (.whole _)) hleft, hrest⟩
      | none =>
          rw [hsettled] at hpoll
          cases hpoll
          exact ⟨.await may onDrop h next, .await (.whole _), rfl⟩

theorem Left.of_user {update : υ → υ} {next : υ → Suspending υ α} {q : Suspending υ α}
    (left : Left (.user update next) q) : ∃ u, Left (next u) q := by
  cases left with
  | await part =>
      cases part with
      | user u rest => exact ⟨u, .await rest⟩
  | pause part =>
      cases part with
      | user u rest => exact ⟨u, .pause rest⟩

theorem Left.of_request {spans : List Span} {r : Request} {next : r.Reply → Suspending υ α}
    {q : Suspending υ α} (left : Left (.request spans r next) q) : ∃ x, Left (next x) q := by
  cases left with
  | await part =>
      cases part with
      | request x rest => exact ⟨x, .await rest⟩
  | pause part =>
      cases part with
      | request x rest => exact ⟨x, .pause rest⟩

theorem not_left_done {value : α} {q : Suspending υ α} : ¬ Left (.done value) q := by
  intro left
  cases left with
  | await part => cases part
  | pause part => cases part

theorem not_left_panic {payload : Panic} {q : Suspending υ α} : ¬ Left (.panic payload) q := by
  intro left
  cases left with
  | await part => cases part
  | pause part => cases part

/-- Whoever waits for a settlement goes on waiting. -/
theorem Left.of_waiting {k : Handle} {q : Suspending υ Settlement}
    (left : Left ((settled k).closing k) q) : q = (settled k).closing k := by
  cases left with
  | await part =>
      cases part with
      | whole => rfl
      | await s rest =>
          obtain ⟨_, hleft⟩ := (Left.await rest).of_request
          exact (not_left_done hleft).elim
  | pause part =>
      cases part with
      | await s rest =>
          obtain ⟨_, hleft⟩ := (Left.pause rest).of_request
          exact (not_left_done hleft).elim

/-- What a sequence returns it returns after something that its first part returns. -/
theorem Part.of_bind_done {p : Program m υ α} {f : α → Program m υ β} {b : β}
    (part : Part (p.bind f) (.done b)) : ∃ a, Part p (.done a) ∧ Part (f a) (.done b) := by
  induction p with
  | done value => exact ⟨value, .whole _, part⟩
  | panic payload => cases part
  | exhausted may => cases part
  | user update next ih =>
      cases part with
      | user u rest =>
          obtain ⟨a, hfirst, hrest⟩ := ih u rest
          exact ⟨a, .user u hfirst, hrest⟩
  | request spans r next ih =>
      cases part with
      | request x rest =>
          obtain ⟨a, hfirst, hrest⟩ := ih x rest
          exact ⟨a, .request x hfirst, hrest⟩
  | pause may onDrop next ih =>
      cases part with
      | pause rest =>
          obtain ⟨a, hfirst, hrest⟩ := ih () rest
          exact ⟨a, .pause hfirst, hrest⟩
  | await may onDrop h next ih =>
      cases part with
      | await s rest =>
          obtain ⟨a, hfirst, hrest⟩ := ih s rest
          exact ⟨a, .await s hfirst, hrest⟩

/-- After a call that never suspends, only what follows it is pending. -/
theorem Left.of_call {p : Direct υ α} {f : α → Suspending υ β} {k : Handle} {q : Suspending υ β}
    (left : Left ((p.relax.bind f).closing k) q) :
    ∃ a, Part p (.done a) ∧ Left ((f a).closing k) q := by
  induction p with
  | done value => exact ⟨value, .whole _, left⟩
  | panic payload =>
      obtain ⟨_, hleft⟩ := left.of_request
      exact (not_left_panic hleft).elim
  | exhausted may => cases may
  | user update next ih =>
      obtain ⟨u, hleft⟩ := left.of_user
      obtain ⟨a, hpart, hrest⟩ := ih u hleft
      exact ⟨a, .user u hpart, hrest⟩
  | request spans r next ih =>
      obtain ⟨x, hleft⟩ := left.of_request
      obtain ⟨a, hpart, hrest⟩ := ih x hleft
      exact ⟨a, .request x hpart, hrest⟩
  | pause may => cases may
  | await may => cases may

end Program

/-! ## Pending invocations -/

namespace Step

open Program

/-- A call of a plain function or a callback leaves at most a task that is settled already. -/
theorem settled_of_call {step : Step υ} (hshape : step.shape ≠ .future) {args : Values} {k : Handle}
    {config : Config} {task : Option (Suspending υ Settlement)}
    (part : Part (step.call args k config) (.done task)) :
    task = none ∨ ∃ r, task = some (.done r) := by
  unfold Step.shape at hshape
  unfold Step.call at part
  split at part
  · obtain ⟨result, -, hrest⟩ := part.of_bind_done
    cases hrest with
    | request x last =>
        cases last
        exact .inl rfl
  · obtain ⟨result, -, hrest⟩ := part.of_bind_done
    cases result with
    | ok value =>
        cases hrest
        exact .inl rfl
    | error e =>
        cases hrest
        exact .inr ⟨.error e, rfl⟩
  · rename_i start hinvoker
    rw [hinvoker] at hshape
    exact absurd rfl hshape

/-- An invocation of a plain function or a callback is pending only where it waits for its own
continuation. -/
theorem left_invoke {step : Step υ} (hshape : step.shape ≠ .future) {args : Values}
    {config : Config} {q : Suspending υ Settlement} (left : Left (step.invoke args config) q) :
    ∃ k, q = (settled k).closing k := by
  obtain ⟨k, hopened⟩ := left.of_request
  obtain ⟨task, hcall, hleft⟩ := Left.of_call hopened
  rcases settled_of_call hshape hcall with rfl | ⟨r, rfl⟩
  · exact ⟨k, hleft.of_waiting⟩
  · simp only [outcome, Config.guarded] at hleft
    split at hleft
    · obtain ⟨_, hlast⟩ := hleft.of_request
      exact (not_left_done hlast).elim
    · obtain ⟨_, hlast⟩ := hleft.of_request
      exact (not_left_done hlast).elim

end Step

/-! ## Invocations along a plan -/

structure Invocation (υ : Type) where
  step : Step υ
  args : Values

/-- The plan is led to what is left of it by the settlements of the given invocations, in order. -/
inductive Plan.Reaches : Plan υ α → List (Invocation υ × Settlement) → Plan υ α → Prop where
  | here (p : Plan υ α) : Reaches p [] p
  | report {spans : List Span} {notice : Notice} {p q : Plan υ α}
      {settled : List (Invocation υ × Settlement)} (rest : Reaches p settled q) :
      Reaches (.report spans notice p) settled q
  | results {update : ResultSet → ResultSet} {p : ResultSet → Plan υ α} {q : Plan υ α}
      {settled : List (Invocation υ × Settlement)} (r : ResultSet) (rest : Reaches (p r) settled q) :
      Reaches (.results update p) settled q
  | invoke {spans : List Span} {step : Step υ} {args : Values} {p : Settlement → Plan υ α}
      {q : Plan υ α} {settled : List (Invocation υ × Settlement)} (s : Settlement)
      (rest : Reaches (p s) settled q) :
      Reaches (.invoke spans step args p) ((⟨step, args⟩, s) :: settled) q

theorem Plan.Reaches.trans {p q r : Plan υ α} {first second : List (Invocation υ × Settlement)}
    (reaches : p.Reaches first q) (further : q.Reaches second r) :
    p.Reaches (first ++ second) r := by
  induction reaches with
  | here p => exact further
  | report _ ih => exact .report (ih further)
  | results r _ ih => exact .results r (ih further)
  | invoke s _ ih => exact .invoke s (ih further)

/-- Within one poll the plan settles the given invocations one after the other, each in the store
that the one before it left, and comes to what is left of the plan in the last store. -/
inductive Plan.Settles (config : Config) :
    Plan υ α → Store (υ × ResultSet) → List (Invocation υ × Settlement) → Plan υ α →
      Store (υ × ResultSet) → Prop where
  | here (p : Plan υ α) (st : Store (υ × ResultSet)) : Settles config p st [] p st
  | report {spans : List Span} {notice : Notice} {p q : Plan υ α} {st last : Store (υ × ResultSet)}
      {settled : List (Invocation υ × Settlement)}
      (rest : Settles config p (st.report spans notice) settled q last) :
      Settles config (.report spans notice p) st settled q last
  | results {update : ResultSet → ResultSet} {p : ResultSet → Plan υ α} {q : Plan υ α}
      {st last : Store (υ × ResultSet)} {settled : List (Invocation υ × Settlement)}
      (rest : Settles config (p st.user.2) { st with user := (st.user.1, update st.user.2) } settled q
        last) : Settles config (.results update p) st settled q last
  | invoke {spans : List Span} {step : Step υ} {args : Values} {p : Settlement → Plan υ α}
      {q : Plan υ α} {st mid last : Store (υ × ResultSet)} {s : Settlement}
      {settled : List (Invocation υ × Settlement)}
      (hpoll : ((step.invoke args config).inside spans).poll st = .done mid s)
      (rest : Settles config (p s) mid settled q last) :
      Settles config (.invoke spans step args p) st ((⟨step, args⟩, s) :: settled) q last

/-- A poll goes no further in the plan: it ends, or its first invocation is not settled. -/
def Plan.Stops (config : Config) (st : Store (υ × ResultSet)) : Plan υ α → Prop
  | done _ | exhausted => True
  | invoke spans step args _ =>
      ∀ mid s, ((step.invoke args config).inside spans).poll st ≠ .done mid s
  | report .. | results .. => False

namespace Plan

theorem Settles.reaches {config : Config} {p q : Plan υ α} {st last : Store (υ × ResultSet)}
    {settled : List (Invocation υ × Settlement)} (settles : p.Settles config st settled q last) :
    p.Reaches settled q := by
  induction settles with
  | here p st => exact .here p
  | report _ ih => exact .report ih
  | results _ ih => exact .results _ ih
  | invoke _ _ ih => exact .invoke _ ih

/-- A poll settles invocations as far as it goes. -/
theorem exists_settles (config : Config) (p : Plan υ α) (f : α → Suspending (υ × ResultSet) β)
    (st : Store (υ × ResultSet)) :
    ∃ settled q last, p.Settles config st settled q last ∧ q.Stops config last ∧
      ((p.toProgram config).bind f).poll st = ((q.toProgram config).bind f).poll last := by
  induction p generalizing st with
  | done value => exact ⟨[], _, st, .here _ st, trivial, rfl⟩
  | exhausted => exact ⟨[], _, st, .here _ st, trivial, rfl⟩
  | report spans notice next ih =>
      obtain ⟨settled, q, last, hsettles, hstops, hpoll⟩ := ih (st.report spans notice)
      exact ⟨settled, q, last, .report hsettles, hstops, hpoll⟩
  | results update next ih =>
      obtain ⟨settled, q, last, hsettles, hstops, hpoll⟩ :=
        ih st.user.2 { st with user := (st.user.1, update st.user.2) }
      exact ⟨settled, q, last, .results hsettles, hstops, hpoll⟩
  | invoke spans step args next ih =>
      by_cases hdone : ∃ mid s, ((step.invoke args config).inside spans).poll st = .done mid s
      · obtain ⟨mid, s, hinvoke⟩ := hdone
        obtain ⟨settled, q, last, hsettles, hstops, hpoll⟩ := ih s mid
        refine ⟨_, q, last, .invoke hinvoke hsettles, hstops, ?_⟩
        rw [toProgram, Program.bind_assoc, Program.poll_bind, hinvoke]
        exact hpoll
      · have hstops (mid : Store (υ × ResultSet)) (s : Settlement) :
            ((step.invoke args config).inside spans).poll st ≠ .done mid s :=
          fun hinvoke => hdone ⟨mid, s, hinvoke⟩
        exact ⟨[], _, st, .here _ st, hstops, rfl⟩

end Plan

/-! ## The end of a run -/

/-- How a run ends after its plan. -/
def Flow.finish (flow : Flow υ) (completion : Completion) :
    Suspending (υ × ResultSet) Completion :=
  (notify completion flow.resolvers).relax.beside.bind fun _ => .done completion

theorem Program.beside_ne_pending (p : Direct υ α) (st last : Store (υ × ρ))
    (rest : Parked (υ × ρ) α) :
    (p.relax.beside : Suspending (υ × ρ) α).poll st ≠ .pending last rest := by
  induction p generalizing st with
  | done value => nofun
  | panic payload => nofun
  | exhausted may => cases may
  | user update next ih => exact ih _ _
  | request spans q next ih => exact ih _ _
  | pause may => cases may
  | await may => cases may

/-- Resolvers are told in one go. -/
theorem Flow.finish_ne_pending (flow : Flow υ) (completion : Completion)
    (st last : Store (υ × ResultSet)) (rest : Parked (υ × ResultSet) Completion) :
    (flow.finish completion).poll st ≠ .pending last rest := by
  intro hpoll
  rw [Flow.finish, Program.poll_bind] at hpoll
  have hnever := Program.beside_ne_pending (notify completion flow.resolvers) st
  cases htold : ((notify completion flow.resolvers).relax.beside :
      Suspending (υ × ResultSet) Unit).poll st with
  | pending mid part => exact hnever mid part htold
  | done mid value =>
      rw [htold] at hpoll
      cases hpoll
  | panicked mid payload =>
      rw [htold] at hpoll
      cases hpoll
  | exhausted mid =>
      rw [htold] at hpoll
      cases hpoll

/-! ## Positions -/

/-- Where a run is suspended. -/
structure Position (υ : Type) where
  /-- The invocations before, each with its settlement. -/
  settled : List (Invocation υ × Settlement)
  spans : List Span
  /-- The invocation in progress. -/
  current : Invocation υ
  /-- What is left of it. -/
  rest : Suspending υ Settlement
  /-- How the plan goes on with its settlement. -/
  next : Settlement → Plan υ Completion

/-- What a poll of a run in a store comes to, if it has come to the given part of its plan: it
settles invocations one by one, and stops at the end or in one that is not settled. -/
def Flow.OneByOne (flow : Flow υ) (p : Plan υ Completion) (st : Store (υ × ResultSet))
    (polled : Progress (υ × ResultSet) Completion) : Prop :=
  ∃ settled q last, p.Settles flow.config st settled q last ∧ q.Stops flow.config last ∧
    polled = ((q.toProgram flow.config).bind flow.finish).poll last

namespace Position

/-- What is left of a run at a position. -/
def program (flow : Flow υ) (pos : Position υ) : Suspending (υ × ResultSet) Completion :=
  (pos.rest.inside pos.spans).bind fun s => ((pos.next s).toProgram flow.config).bind flow.finish

/-- The settlements lead the plan of the flow to the invocation in progress, and what is left is
left of it. -/
structure On (limit : Nat) (flow : Flow υ) (pos : Position υ) : Prop where
  reaches : (flow.plan limit).Reaches pos.settled
    (.invoke pos.spans pos.current.step pos.current.args pos.next)
  left : Program.Left (pos.current.step.invoke pos.current.args flow.config) pos.rest

/-- A poll runs nothing but the invocation in progress, unless this one comes to its settlement.
Then the plan goes on with that. -/
def Proceeds (flow : Flow υ) (pos : Position υ) (st : Store (υ × ResultSet)) : Prop :=
  match (pos.rest.inside pos.spans).poll st with
  | .done mid s => flow.OneByOne (pos.next s) mid ((pos.program flow).poll st)
  | .panicked last payload => (pos.program flow).poll st = .panicked last payload
  | .exhausted last => (pos.program flow).poll st = .exhausted last
  | .pending last part => ∃ q, Program.Left pos.rest q ∧ (pos.program flow).poll st =
      .pending last ⟨{ pos with rest := q }.program flow, part.onDrop⟩

theorem proceeds (flow : Flow υ) (pos : Position υ) (st : Store (υ × ResultSet)) :
    pos.Proceeds flow st := by
  unfold Proceeds
  rw [program, Program.poll_bind]
  cases hrest : (pos.rest.inside pos.spans).poll st with
  | done mid s => exact (pos.next s).exists_settles flow.config flow.finish mid
  | panicked last payload => rfl
  | exhausted last => rfl
  | pending last part =>
      obtain ⟨q, hleft, hq⟩ := Program.left_of_poll hrest
      refine ⟨q, hleft, ?_⟩
      rw [program, ← hq]
      rfl

/-- What is left of a plan after some settlements is suspended at a position of the whole plan. -/
theorem exists_of_poll {limit : Nat} {flow : Flow υ} {p : Plan υ Completion}
    {settled : List (Invocation υ × Settlement)} (reaches : (flow.plan limit).Reaches settled p)
    {st last : Store (υ × ResultSet)} {rest : Parked (υ × ResultSet) Completion}
    (hpoll : ((p.toProgram flow.config).bind flow.finish).poll st = .pending last rest) :
    ∃ pos, On limit flow pos ∧ rest.program = pos.program flow := by
  obtain ⟨more, q, mid, hsettles, hstops, heq⟩ := p.exists_settles flow.config flow.finish st
  have hreaches := reaches.trans hsettles.reaches
  rw [heq] at hpoll
  cases q with
  | done value => exact absurd hpoll (flow.finish_ne_pending value mid last rest)
  | exhausted => cases hpoll
  | report spans notice next => exact hstops.elim
  | results update next => exact hstops.elim
  | invoke spans step args next =>
      rw [Plan.toProgram, Program.bind_assoc, Program.poll_bind] at hpoll
      cases hinvoke : ((step.invoke args flow.config).inside spans).poll mid with
      | pending mid part =>
          rw [hinvoke] at hpoll
          obtain ⟨r, hleft, hr⟩ := Program.left_of_poll hinvoke
          cases hpoll
          refine ⟨⟨settled ++ more, spans, ⟨step, args⟩, r, next⟩, ⟨hreaches, hleft⟩, ?_⟩
          rw [program, ← hr]
      | done last s => exact absurd hinvoke (hstops last s)
      | panicked mid payload =>
          rw [hinvoke] at hpoll
          cases hpoll
      | exhausted mid =>
          rw [hinvoke] at hpoll
          cases hpoll

end Position

/-- A run was not polled yet, or it is at a position. -/
def Parked.At (limit : Nat) (flow : Flow υ) (run : Parked (υ × ResultSet) Completion) : Prop :=
  run.program = flow.exec limit ∨
    ∃ pos, Position.On limit flow pos ∧ run.program = pos.program flow

/-- The results that a flow has make no difference. -/
theorem Parked.At.with_results {limit : Nat} {flow : Flow υ}
    {run : Parked (υ × ResultSet) Completion} (hat : run.At limit flow) (results : ResultSet) :
    run.At limit { flow with results } := by
  rcases hat with hfresh | ⟨pos, hon, hprogram⟩
  · exact .inl hfresh
  · exact .inr ⟨pos, ⟨hon.reaches, hon.left⟩, hprogram⟩

/-- So it stays as long as it is polled. -/
theorem Parked.At.poll {limit : Nat} {flow : Flow υ} {run : Parked (υ × ResultSet) Completion}
    (hat : run.At limit flow) {st last : Store (υ × ResultSet)}
    {rest : Parked (υ × ResultSet) Completion} (hpoll : run.poll st = .pending last rest) :
    rest.At limit flow := by
  unfold Parked.poll at hpoll
  rcases hat with hfresh | ⟨pos, hon, hprogram⟩
  · rw [hfresh, Flow.exec_eq_plan] at hpoll
    exact .inr (Position.exists_of_poll (.here (flow.plan limit)) hpoll)
  · have hproceeds := pos.proceeds flow st
    unfold Position.Proceeds at hproceeds
    rw [hprogram] at hpoll
    rw [hpoll] at hproceeds
    cases hrest : (pos.rest.inside pos.spans).poll st with
    | pending mid part =>
        rw [hrest] at hproceeds
        obtain ⟨q, hleft, heq⟩ := hproceeds
        cases heq
        exact .inr ⟨{ pos with rest := q }, ⟨hon.reaches, hon.left.part.left hleft⟩, rfl⟩
    | done mid s =>
        rw [Position.program, Program.poll_bind, hrest] at hpoll
        have hnext := hon.reaches.trans (.invoke s (.here (pos.next s)))
        exact .inr (Position.exists_of_poll hnext hpoll)
    | panicked mid payload =>
        rw [hrest] at hproceeds
        cases hproceeds
    | exhausted mid =>
        rw [hrest] at hproceeds
        cases hproceeds

end Stepwise
