import Stepwise.Proofs.Drive
import Stepwise.Step.Style
/-!
# Steps that perform a piece of work

A body that uses neither its continuation nor a flow of its own computes its ending from its
arguments and the state of user code.  In whatever style such a body is made into a step, and however
often it is pending on the way, an invocation of the step comes to the same verdict and leaves the
same state.
-/

namespace Stepwise

variable {m : Mode} {υ α β : Type}

/-! ## Stores that follow one another in a run -/

namespace Store

/-- Completions are scheduled only for channels that were opened. -/
def Scheduled (st : Store υ) : Prop := ∀ c ∈ st.due ++ st.deferred, c.1.id < st.ears.size

/-- A later store: user code has come to the state `u`, nothing was reported, and no waiting end
went away. -/
structure Follows (u : υ) (st later : Store υ) : Prop where
  user : later.user = u
  ears : later.ears = st.ears
  reports : later.reports = st.reports
  scheduled : later.Scheduled

theorem Follows.refl {st : Store υ} (scheduled : st.Scheduled) : Follows st.user st st :=
  ⟨rfl, rfl, rfl, scheduled⟩

theorem Follows.trans {u u' : υ} {st later last : Store υ} (first : Follows u st later)
    (second : Follows u' later last) : Follows u' st last where
  user := second.user
  ears := second.ears.trans first.ears
  reports := second.reports.trans first.reports
  scheduled := second.scheduled

namespace Follows

variable {u : υ} {st later : Store υ}

theorem completes {named : Set Handle} {last : Store υ} (follows : Follows u st later)
    (completes : Completes named later last)
    (subset : last.due ++ last.deferred ⊆ later.due ++ later.deferred) : Follows u st last := by
  refine ⟨completes.user.trans follows.user, completes.ears.trans follows.ears,
    completes.reports.trans follows.reports, fun c hc => ?_⟩
  rw [completes.ears]
  exact follows.scheduled c (subset hc)

theorem settle (follows : Follows u st later) (spans : List Span) (h : Handle) (s : Settlement) :
    Follows u st (later.settle spans h s) := by
  apply follows.completes (later.completes_settle spans h s)
  rw [due_settle, deferred_settle]
  exact List.Subset.refl _

theorem discard (follows : Follows u st later) (h : Handle) : Follows u st (later.discard h) := by
  apply follows.completes (later.completes_discard h)
  rw [due_discard, deferred_discard]
  exact List.Subset.refl _

theorem turn (follows : Follows u st later) : Follows u st later.turn := by
  apply follows.completes later.completes_turn
  rw [due_turn, deferred_turn, List.append_nil]
  exact List.subset_append_right _ _

theorem assign (follows : Follows u st later) (u' : υ) : Follows u' st { later with user := u' } :=
  ⟨rfl, follows.ears, follows.reports, follows.scheduled⟩

theorem defer (follows : Follows u st later) {h : Handle} (s : Settlement)
    (hopen : h.id < st.ears.size) : Follows u st (later.defer h s) := by
  refine ⟨follows.user, follows.ears, follows.reports, ?_⟩
  intro c hc
  have hcases : c ∈ later.due ++ later.deferred ∨ c = (h, s) := by
    simpa [Store.defer, or_assoc] using hc
  rcases hcases with hold | rfl
  · exact follows.scheduled c hold
  · have : (later.defer h s).ears = st.ears := follows.ears
    rw [this]
    exact hopen

end Follows

theorem Scheduled.openChannel {st : Store υ} (scheduled : st.Scheduled) :
    st.openChannel.2.Scheduled := by
  intro c hc
  have := scheduled c hc
  rw [ears_openChannel, Array.size_push]
  omega

/-- The channel just opened is none that a completion is scheduled for. -/
theorem Scheduled.opened_not_named {st : Store υ} (scheduled : st.Scheduled)
    {completions : List (Handle × Settlement)} (hsubset : completions ⊆ st.due ++ st.deferred) :
    st.openChannel.1 ∉ named completions := by
  rintro ⟨s, hs⟩
  have := scheduled _ (hsubset hs)
  rw [size_ears] at this
  exact Nat.lt_irrefl _ this

end Store

/-! ## Bodies -/

/-- The program uses the state of user code and nothing else of the store, and comes to a value and
a new state.  It may be pending on the way. -/
def Program.Computes : Program m υ α → υ → α → υ → Prop
  | done value, u, a, u' => a = value ∧ u' = u
  | user update next, u, a, u' => (next u).Computes (update u) a u'
  | pause _ _ next, u, a, u' => (next ()).Computes u a u'
  | _, _, _, _ => False

namespace Program

theorem Computes.run {p : Direct υ α} {st : Store υ} {a : α} {u : υ}
    (computes : p.Computes st.user a u) : p.run st = (.ok a, { st with user := u }) := by
  induction p generalizing st with
  | done value =>
      obtain ⟨rfl, rfl⟩ := computes
      rfl
  | panic payload => exact computes.elim
  | exhausted may => cases may
  | user update next ih =>
      have hnext : (next st.user).Computes ({ st with user := update st.user } : Store υ).user a u :=
        computes
      exact ih _ hnext
  | request spans q next ih => exact computes.elim
  | pause may => cases may
  | await may => cases may

theorem Computes.drives {p : Suspending υ α} {st : Store υ} {a : α} {u : υ}
    (computes : p.Computes st.user a u) (scheduled : st.Scheduled) :
    ∃ last, p.Drives st (.ok a) last ∧ st.Follows u last := by
  induction p generalizing st with
  | done value =>
      obtain ⟨rfl, rfl⟩ := computes
      exact ⟨st, ⟨rfl, rfl⟩, .refl scheduled⟩
  | panic payload => exact computes.elim
  | exhausted may => exact computes.elim
  | user update next ih =>
      have hfirst := (Store.Follows.refl scheduled).assign (update st.user)
      have hnext : (next st.user).Computes ({ st with user := update st.user } : Store υ).user a u :=
        computes
      obtain ⟨last, hdrives, hlast⟩ := ih _ hnext hfirst.scheduled
      exact ⟨last, hdrives, hfirst.trans hlast⟩
  | request spans q next ih => exact computes.elim
  | pause may onDrop next ih =>
      have hfirst := (Store.Follows.refl scheduled).turn
      have hcomputes : (next ()).Computes st.turn.user a u := hfirst.user ▸ computes
      obtain ⟨last, hdrives, hlast⟩ := ih _ hcomputes hfirst.scheduled
      exact ⟨last, hdrives, hfirst.trans hlast⟩
  | await may onDrop h next ih => exact computes.elim

end Program

/-- In every mode, and whether it gets a continuation or not, the body does this work and leaves the
continuation alone. -/
def Body.Performs (body : Body υ) (work : Values → υ → Ending × υ) : Prop :=
  ∀ m args held u, (body m args held).Computes u (held, (work args u).1) (work args u).2

/-- The step is made from a body that performs the work, in one of the styles. -/
def Step.Performs (work : Values → υ → Ending × υ) (step : Step υ) : Prop :=
  ∃ style body, Body.Performs body work ∧ step.invoker = (Style.toStep body style).invoker

/-- A body that only yields values. -/
theorem performs_yielding (values : Values) :
    Body.Performs (fun _ _ held => .done (held, .output values) : Body υ)
      fun _ u => (.output values, u) :=
  fun _ _ _ _ => ⟨rfl, rfl⟩

/-- The predicate of an unconditional slot performs work like any other step. -/
theorem Step.performs_always :
    (Step.always : Step υ).Performs fun _ u => (.output (.single (.bool true)), u) :=
  ⟨.sync, _, performs_yielding _, rfl⟩

theorem Step.performs_constant (values : Values) :
    (Step.constant values : Step υ).Performs fun _ u => (.output values, u) :=
  ⟨.sync, _, performs_yielding _, rfl⟩

namespace Ending

/-- What user code comes to that ends so. -/
def result : Ending → Except Panic (Except Cause Values)
  | output values => .ok (.ok values)
  | failure cause => .ok (.error cause)
  | panic payload => .error payload

/-- What the invocation of a step comes to whose body ends so. -/
def verdict (config : Config) (ending : Ending) : Except Panic Settlement :=
  (config.guardedResult ending.result).map (·.bind Settlement.ofResult)

theorem run_conclude (ending : Ending) (st : Store υ) :
    (ending.conclude : Direct υ (Except Cause Values)).run st = (ending.result, st) := by
  cases ending <;> rfl

theorem drives_conclude (ending : Ending) (st : Store υ) :
    (ending.conclude : Suspending υ (Except Cause Values)).Drives st ending.result st := by
  cases ending <;> exact ⟨rfl, rfl⟩

end Ending

/-- A callback body that still has its continuation completes it or lets go of it. -/
theorem Style.finish_some (complete : Handle → Settlement → Direct υ Unit) (h : Handle)
    (ending : Ending) :
    Style.finish complete (some h, ending) =
      match ending.result with
      | .ok r => complete h (.ofResult r)
      | .error payload => (Program.discard h).bind fun _ => .panic payload := by
  cases ending <;> rfl

namespace Body.Performs

variable {body : Body υ} {work : Values → υ → Ending × υ}

theorem run_alone (performs : Body.Performs body work) (args : Values) (st : Store υ) :
    (Style.alone body .direct args).run st =
      ((work args st.user).1.result, { st with user := (work args st.user).2 }) := by
  have hrun := (performs .direct args none st.user).run
  unfold Style.alone
  rw [Program.bind_eq, Program.run_bind_ok hrun]
  exact Ending.run_conclude _ _

theorem drives_alone (performs : Body.Performs body work) (args : Values) {st : Store υ}
    (scheduled : st.Scheduled) :
    ∃ last, (Style.alone body .suspending args).Drives st (work args st.user).1.result last ∧
      st.Follows (work args st.user).2 last := by
  obtain ⟨last, hdrives, hlast⟩ := (performs .suspending args none st.user).drives scheduled
  refine ⟨last, ?_, hlast⟩
  unfold Style.alone
  rw [Program.bind_eq]
  exact hdrives.bind (Ending.drives_conclude _ _)

theorem run_callback (performs : Body.Performs body work) (args : Values) (h : Handle)
    (complete : Handle → Settlement → Direct υ Unit) (st : Store υ) :
    ((body .direct args (some h)).bind (Style.finish complete)).run st =
      match (work args st.user).1.result with
      | .ok r => (complete h (.ofResult r)).run { st with user := (work args st.user).2 }
      | .error payload =>
        (.error payload, { st with user := (work args st.user).2 }.discard h) := by
  have hrun := (performs .direct args (some h) st.user).run
  rw [Program.run_bind_ok hrun, Style.finish_some]
  cases (work args st.user).1.result <;> rfl

end Body.Performs

/-! ## Invocations -/

/-- A completion that was deferred is delivered after two turns. -/
theorem Store.delivers_deferred {st : Store υ} {h : Handle} (s : Settlement)
    (hheld : st.channel? h = some ⟨.held, true⟩) (hdue : h ∉ named st.due)
    (hdeferred : h ∉ named st.deferred) :
    (st.defer h s).Delivers h s (st.defer h s).turn.turn := by
  have hfirst : (st.defer h s).channel? h = some ⟨.held, true⟩ := hheld
  have hsecond : (st.defer h s).turn.channel? h = some ⟨.held, true⟩ := by
    rw [← hfirst]
    exact (st.defer h s).completes_turn.others h hdue
  have hunsettled (later : Store υ) (hchannel : later.channel? h = some ⟨.held, true⟩) :
      later.settlement? h = none := by
    simp [settlement?, hchannel, Channel.settlement?]
  have hthird : (st.defer h s).turn.turn.settlement? h = some s := by
    have hlast : (st.defer h s).turn.due = st.deferred ++ [(h, s)] := due_turn _
    unfold turn at hlast ⊢
    rw [hlast, send_append]
    apply settlement?_settle_held
    rw [← hsecond]
    exact (completes_send st.deferred _).others h hdeferred
  exact .later (hunsettled _ hfirst) (.later (hunsettled _ hsecond) (.now hthird))

namespace Step

section Styles

variable {work : Values → υ → Ending × υ} {step : Step υ} {body : Body υ} (config : Config)
  (args : Values) {st : Store υ} {h : Handle}

theorem drives_callAndAwait {task : Option (Suspending υ Settlement)} {mid last : Store υ}
    {r : Except Panic Settlement} (hcall : (step.call args h config).run st = (.ok task, mid))
    (houtcome : (outcome h config task).Drives mid r last) :
    (step.callAndAwait args h config).Drives st r last :=
  ((Program.drives_relax _ _ _ _).2 hcall).bind houtcome

theorem drives_callAndAwait_error {mid : Store υ} {payload : Panic}
    (hcall : (step.call args h config).run st = (.error payload, mid)) :
    (step.callAndAwait args h config).Drives st (.error payload) mid :=
  ((Program.drives_relax _ _ _ _).2 hcall).bind_error _

/-- An error that a call comes back with is what the invocation settles with. -/
theorem drives_outcome_error (error : FlowError) (st : Store υ) :
    (outcome h config (some (.done (.error error)))).Drives st (.ok (.error error)) st := by
  have htask : (Program.done (.error error) : Suspending υ Settlement).Drives st
      (.ok (.error error)) st := ⟨rfl, rfl⟩
  exact (config.drives_guarded htask).bind ⟨rfl, rfl⟩

theorem drives_sync (performs : Body.Performs body work) (scheduled : st.Scheduled)
    (hinvoker : step.invoker = (Style.toStep body .sync).invoker)
    (hheld : st.channel? h = some ⟨.held, true⟩) :
    ∃ last, (step.callAndAwait args h config).Drives st ((work args st.user).1.verdict config) last ∧
      st.Follows (work args st.user).2 last := by
  obtain ⟨worked, hworked⟩ : ∃ worked : Store υ, worked = { st with user := (work args st.user).2 } :=
    ⟨_, rfl⟩
  have hfollows : st.Follows (work args st.user).2 worked :=
    hworked ▸ (Store.Follows.refl scheduled).assign _
  have hbody := config.run_guarded (Style.alone body .direct args) st
  rw [performs.run_alone, ← hworked] at hbody
  have hcall : step.call args h config =
      ((config.guarded (Style.alone body .direct args)).onPanic (.discard h)).bind fun result =>
        (Program.settle h (result.bind Settlement.ofResult)).bind fun _ => .done none := by
    unfold call
    rw [hinvoker]
    rfl
  unfold Ending.verdict
  cases hresult : config.guardedResult (work args st.user).1.result with
  | ok result =>
      have hrun : (step.call args h config).run st =
          (.ok none, worked.settle [] h (result.bind Settlement.ofResult)) := by
        rw [hcall, Program.run_bind, Program.run_onPanic, hbody, hresult]
        rfl
      have hheld' : worked.channel? h = some ⟨.held, true⟩ := hworked ▸ hheld
      have hsettled := Store.settlement?_settle_held (result.bind Settlement.ofResult) [] hheld'
      exact ⟨_, drives_callAndAwait config args hrun ⟨_, _, .now hsettled, rfl, rfl⟩,
        hfollows.settle [] h _⟩
  | error payload =>
      have hrun : (step.call args h config).run st = (.error payload, worked.discard h) := by
        rw [hcall, Program.run_bind, Program.run_onPanic, hbody, hresult]
        rfl
      exact ⟨_, drives_callAndAwait_error config args hrun, hfollows.discard h⟩

/-- A callback body may complete its continuation at once or later. -/
theorem drives_callback (performs : Body.Performs body work) (scheduled : st.Scheduled)
    {complete : Handle → Settlement → Direct υ Unit}
    (hinvoker : step.invoker = .callback fun args done =>
      (body .direct args (some done)).bind (Style.finish complete))
    (hcomplete : ∀ u s, ∃ sent last, (complete h s).run { st with user := u } = (.ok (), sent) ∧
      sent.Delivers h s last ∧ st.Follows u last) :
    ∃ last, (step.callAndAwait args h config).Drives st ((work args st.user).1.verdict config) last ∧
      st.Follows (work args st.user).2 last := by
  have hbody := performs.run_callback args h complete st
  have hguarded := config.run_guarded ((body .direct args (some h)).bind (Style.finish complete)) st
  unfold Ending.verdict
  cases hresult : (work args st.user).1.result with
  | ok r =>
      obtain ⟨sent, last, hsent, hdelivers, hfollows⟩ := hcomplete (work args st.user).2 (.ofResult r)
      have hrun : (step.call args h config).run st = (.ok none, sent) := by
        unfold call
        rw [hinvoker]
        simp only [Program.bind_eq]
        rw [Program.run_bind, hguarded, hbody, hresult]
        simp only [hsent]
        rfl
      exact ⟨last, drives_callAndAwait config args hrun ⟨_, _, hdelivers, rfl, rfl⟩, hfollows⟩
  | error payload =>
      obtain ⟨worked, hworked⟩ :
          ∃ worked : Store υ, worked = { st with user := (work args st.user).2 } := ⟨_, rfl⟩
      have hfollows : st.Follows (work args st.user).2 worked :=
        hworked ▸ (Store.Follows.refl scheduled).assign _
      simp only [hresult, ← hworked] at hbody
      refine ⟨worked.discard h, ?_, hfollows.discard h⟩
      rw [hbody] at hguarded
      unfold Config.guardedResult at hguarded ⊢
      cases hcatch : config.catchPanics with
      | true =>
          have hrun : (step.call args h config).run st =
              (.ok (some (.done (.error (.panicked payload.message)))), worked.discard h) := by
            unfold call
            rw [hinvoker]
            simp only [Program.bind_eq]
            rw [Program.run_bind, hguarded]
            simp only [hcatch, if_true]
            rfl
          exact drives_callAndAwait config args hrun (drives_outcome_error config _ _)
      | false =>
          have hrun : (step.call args h config).run st = (.error payload, worked.discard h) := by
            unfold call
            rw [hinvoker]
            simp only [Program.bind_eq]
            rw [Program.run_bind, hguarded]
            simp [hcatch]
          exact drives_callAndAwait_error config args hrun

theorem exists_settled (scheduled : st.Scheduled) (hheld : st.channel? h = some ⟨.held, true⟩)
    (u : υ) (s : Settlement) :
    ∃ sent last, (Program.settle h s : Direct υ Unit).run { st with user := u } = (.ok (), sent) ∧
      sent.Delivers h s last ∧ st.Follows u last := by
  have hfollows := (Store.Follows.refl scheduled).assign u
  have hheld' : ({ st with user := u } : Store υ).channel? h = some ⟨.held, true⟩ := hheld
  exact ⟨_, _, rfl, .now (Store.settlement?_settle_held s [] hheld'), hfollows.settle [] h s⟩

theorem exists_deferred (scheduled : st.Scheduled) (hheld : st.channel? h = some ⟨.held, true⟩)
    (hdue : h ∉ Store.named st.due) (hdeferred : h ∉ Store.named st.deferred) (u : υ)
    (s : Settlement) :
    ∃ sent last, (Program.defer h s : Direct υ Unit).run { st with user := u } = (.ok (), sent) ∧
      sent.Delivers h s last ∧ st.Follows u last := by
  have hopen : h.id < st.ears.size := by
    rw [Store.size_ears, ← Store.channel?_isSome, hheld]
    rfl
  have hfollows := ((Store.Follows.refl scheduled).assign u).defer s hopen
  exact ⟨_, _, rfl, Store.delivers_deferred s hheld hdue hdeferred, hfollows.turn.turn⟩

/-- A future drops its continuation, and its task decides. -/
theorem drives_future {start : Values → Direct υ (Suspending υ (Except Cause Values))}
    (hinvoker : step.invoker = .future start) {r : Except Panic (Except Cause Values)}
    {mid last : Store υ} {task : Suspending υ (Except Cause Values)}
    (hstart : (start args).run (st.discard h) = (.ok task, mid)) (htask : task.Drives mid r last) :
    (step.callAndAwait args h config).Drives st
      ((config.guardedResult r).map (·.bind Settlement.ofResult)) last := by
  have hguarded := config.run_guarded (start args) (st.discard h)
  rw [hstart] at hguarded
  have hrun : (step.call args h config).run st =
      (.ok (some (task.bind fun result => .done (Settlement.ofResult result))), mid) := by
    unfold call
    rw [hinvoker]
    have hdiscard : (Program.discard h : Direct υ Unit).run st = (.ok (), st.discard h) := rfl
    simp only [Program.bind_eq]
    rw [Program.run_bind_ok hdiscard, Program.run_bind, hguarded]
    rfl
  refine drives_callAndAwait config args hrun ?_
  cases r with
  | ok result =>
      have hsettled : (task.bind fun result => .done (Settlement.ofResult result)).Drives mid
          (.ok (Settlement.ofResult result)) last := htask.bind ⟨rfl, rfl⟩
      exact (config.drives_guarded hsettled).bind ⟨rfl, rfl⟩
  | error payload =>
      have hpanic := htask.bind_error fun result => .done (Settlement.ofResult result)
      have hguarded := config.drives_guarded hpanic
      unfold Config.guardedResult at hguarded ⊢
      cases hcatch : config.catchPanics with
      | true =>
          rw [hcatch] at hguarded
          exact hguarded.bind ⟨rfl, rfl⟩
      | false =>
          rw [hcatch] at hguarded
          exact hguarded.bind_error _

/-- A panic while a future is made is caught or goes on. -/
theorem drives_future_panic {start : Values → Direct υ (Suspending υ (Except Cause Values))}
    (hinvoker : step.invoker = .future start) {mid : Store υ} {payload : Panic}
    (hstart : (start args).run (st.discard h) = (.error payload, mid)) :
    (step.callAndAwait args h config).Drives st
      ((config.guardedResult (.error payload : Except Panic (Except Cause Values))).map
        (·.bind Settlement.ofResult)) mid := by
  have hguarded := config.run_guarded (start args) (st.discard h)
  rw [hstart] at hguarded
  have hdiscard : (Program.discard h : Direct υ Unit).run st = (.ok (), st.discard h) := rfl
  unfold Config.guardedResult at hguarded ⊢
  cases hcatch : config.catchPanics with
  | true =>
      rw [hcatch] at hguarded
      have hrun : (step.call args h config).run st =
          (.ok (some (.done (.error (.panicked payload.message)))), mid) := by
        unfold call
        rw [hinvoker]
        simp only [Program.bind_eq]
        rw [Program.run_bind_ok hdiscard, Program.run_bind, hguarded]
        rfl
      exact drives_callAndAwait config args hrun (drives_outcome_error config _ _)
  | false =>
      rw [hcatch] at hguarded
      have hrun : (step.call args h config).run st = (.error payload, mid) := by
        unfold call
        rw [hinvoker]
        simp only [Program.bind_eq]
        rw [Program.run_bind_ok hdiscard, Program.run_bind, hguarded]
        rfl
      exact drives_callAndAwait_error config args hrun

/-- In every style a step comes to the verdict of the work it performs. -/
theorem Performs.drives_callAndAwait (performs : step.Performs work) (scheduled : st.Scheduled)
    (hheld : st.channel? h = some ⟨.held, true⟩) (hdue : h ∉ Store.named st.due)
    (hdeferred : h ∉ Store.named st.deferred) :
    ∃ last, (step.callAndAwait args h config).Drives st ((work args st.user).1.verdict config) last ∧
      st.Follows (work args st.user).2 last := by
  obtain ⟨style, body, hbody, hinvoker⟩ := performs
  have hdropped := (Store.Follows.refl scheduled).discard h
  have htask (hfuture : step.invoker = (Style.toStep body .future).invoker) :
      ∃ last, (step.callAndAwait args h config).Drives st
        ((work args st.user).1.verdict config) last ∧ st.Follows (work args st.user).2 last := by
    obtain ⟨last, hdrives, hlast⟩ := hbody.drives_alone args hdropped.scheduled
    rw [hdropped.user] at hdrives hlast
    exact ⟨last, drives_future config args hfuture rfl hdrives, hdropped.trans hlast⟩
  cases style with
  | sync => exact drives_sync config args hbody scheduled hinvoker hheld
  | callback =>
      exact drives_callback config args hbody scheduled hinvoker (exists_settled scheduled hheld)
  | spawn =>
      exact drives_callback config args hbody scheduled hinvoker
        (exists_deferred scheduled hheld hdue hdeferred)
  | future => exact htask hinvoker
  | named name => exact htask hinvoker
  | eager =>
      have hstart : ((Style.alone body .direct args).bind fun result =>
          (.done (.done result) : Direct υ (Suspending υ (Except Cause Values)))).run (st.discard h) =
            match (work args st.user).1.result with
            | .ok result => (.ok (.done result), { st.discard h with user := (work args st.user).2 })
            | .error payload => (.error payload, { st.discard h with user := (work args st.user).2 }) := by
        rw [Program.run_bind, hbody.run_alone, hdropped.user]
        cases (work args st.user).1.result <;> rfl
      refine ⟨_, ?_, hdropped.assign (work args st.user).2⟩
      unfold Ending.verdict
      cases hresult : (work args st.user).1.result with
      | ok result =>
          rw [hresult] at hstart
          exact drives_future config args hinvoker hstart ⟨rfl, rfl⟩
      | error payload =>
          rw [hresult] at hstart
          exact drives_future_panic config args hinvoker hstart

end Styles

/-- An invocation opens a channel, and its waiting end is gone afterwards. -/
structure Invoked (u : υ) (st last : Store υ) : Prop where
  user : last.user = u
  ears : last.ears = st.ears.push false
  reports : last.reports = st.reports
  scheduled : last.Scheduled

theorem invoked_of_follows {u : υ} {st last : Store υ} (follows : st.openChannel.2.Follows u last) :
    Invoked u st (last.deafen st.openChannel.1) := by
  have hears : (last.deafen st.openChannel.1).ears = st.ears.push false := by
    have hid : st.openChannel.1.id = st.ears.size := st.size_ears.symm
    rw [Store.ears_deafen, follows.ears, Store.ears_openChannel, hid]
    apply Array.ext_getElem?
    intro i
    rw [Array.getElem?_modify, Array.getElem?_push, Array.getElem?_push]
    by_cases hi : i = st.ears.size
    · simp [hi]
    · rw [if_neg hi, if_neg hi, if_neg fun h => hi h.symm]
  refine ⟨follows.user, hears, follows.reports, fun c hc => ?_⟩
  have := follows.scheduled c hc
  rw [follows.ears, Store.ears_openChannel] at this
  rw [hears]
  simpa using this

/-- An invocation comes to the verdict of the work that the step performs, whatever its style. -/
theorem Performs.drives_invoke {work : Values → υ → Ending × υ} {step : Step υ}
    (performs : step.Performs work) (config : Config) (args : Values) {st : Store υ}
    (scheduled : st.Scheduled) :
    ∃ last, (step.invoke args config).Drives st ((work args st.user).1.verdict config) last ∧
      Invoked (work args st.user).2 st last := by
  have hheld := st.channel?_openChannel st.openChannel.1
  rw [if_pos rfl] at hheld
  obtain ⟨last, hdrives, hfollows⟩ := performs.drives_callAndAwait config args
    scheduled.openChannel hheld (scheduled.opened_not_named (List.subset_append_left _ _))
    (scheduled.opened_not_named (List.subset_append_right _ _))
  exact ⟨_, hdrives.closing _, invoked_of_follows hfollows⟩

/-- As a part of a run, too. -/
theorem Performs.drives_invoke_inside {ρ : Type} {work : Values → υ → Ending × υ} {step : Step υ}
    (performs : step.Performs work) (config : Config) (args : Values) (spans : List Span)
    {st : Store (υ × ρ)} (scheduled : st.Scheduled) :
    ∃ last, ((step.invoke args config).inside spans).Drives st
        ((work args st.user.1).1.verdict config) last ∧
      Invoked ((work args st.user.1).2, st.user.2) st last := by
  have hscheduled : st.detach.2.Scheduled := scheduled
  obtain ⟨own, hdrives, hown⟩ := performs.drives_invoke config args hscheduled
  have hbeside : st.detach.2.Beside spans st.user.2 st.detach.2.reports st.reports st :=
    .start st.detach.2 st rfl rfl rfl rfl
  obtain ⟨last, hinside, hlast⟩ := hdrives.inside hbeside
  have hears : last.ears = own.ears := by
    unfold Store.ears
    rw [hlast.channels]
  refine ⟨last, hinside, ?_, hears.trans hown.ears, ?_, ?_⟩
  · rw [hlast.user, hown.user]
    rfl
  · obtain ⟨events, hevents, houter⟩ := hlast.reports
    have hnone : events = [] := by
      rw [hown.reports] at hevents
      exact List.append_cancel_left (hevents.symm.trans (List.append_nil _).symm)
    rw [houter, hnone]
    simp
  · intro c hc
    rw [hears]
    rw [hlast.due, hlast.deferred] at hc
    exact hown.scheduled c hc

end Step

end Stepwise
