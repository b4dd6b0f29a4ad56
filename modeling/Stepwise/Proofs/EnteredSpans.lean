import Stepwise.Proofs.Emissions
import Stepwise.Proofs.Retained
/-!
# Spans that are entered and left

A part of a run that has a span enters it at the beginning of each of its polls and leaves it where
the poll is over, so that what is reported in between is reported under all spans that are entered.
Run in this way, with the entered spans in the state, a flow reports the same under the same spans
and comes to the same.  Whenever a poll is over, also the last one, none of its spans is entered.
-/

namespace Stepwise

variable {m : Mode} {υ ρ α β : Type}

/-! ## Programs that enter spans -/

namespace Program

/-- Makes its requests under the spans that are entered, which the second component of the state
holds, outermost first. -/
def tracing : Program m υ α → Program m (υ × List Span) α
  | done value => done value
  | panic payload => panic payload
  | exhausted may => exhausted may
  | user update next =>
      user (fun (u, entered) => (update u, entered)) fun (u, _) => (next u).tracing
  | request spans q next =>
      user id fun (_, entered) => request (entered ++ spans) q fun x => (next x).tracing
  | pause may onDrop next => pause may onDrop fun x => (next x).tracing
  | await may onDrop h next => await may onDrop h fun s => (next s).tracing

def enter (span : Span) (p : Program m (υ × List Span) α) : Program m (υ × List Span) α :=
  user (fun (u, entered) => (u, entered ++ [span])) fun _ => p

/-- Leaves the span that was entered last. -/
def leave (p : Program m (υ × List Span) α) : Program m (υ × List Span) α :=
  user (fun (u, entered) => (u, entered.dropLast)) fun _ => p

/-- Leaves a span that it finds entered: where it ends or unwinds, and where it is suspended until it
goes on. -/
def leaving (span : Span) : Program m (υ × List Span) α → Program m (υ × List Span) α
  | done value => leave (done value)
  | panic payload => leave (panic payload)
  | exhausted may => leave (exhausted may)
  | user update next => user update fun u => (next u).leaving span
  | request spans q next => request spans q fun x => (next x).leaving span
  | pause may onDrop next => leave (pause may onDrop fun x => enter span ((next x).leaving span))
  | await may onDrop h next =>
      leave (await may onDrop h fun s => enter span ((next s).leaving span))

/-- Enters a span for every poll, and leaves it when the poll is over. -/
def entering (span : Span) (p : Program m (υ × List Span) α) : Program m (υ × List Span) α :=
  enter span (p.leaving span)

end Program

open Program

/-- Runs items of which the first has the given index, each with its span. -/
def runItemsEntering (limit : Nat) (config : Config) (index : Nat) :
    List (Item υ) → Suspending ((υ × ResultSet) × List Span) (Except FlowError Unit)
  | [] => return .ok ()
  | item :: rest => do
    match ← (item.run limit config).beside.tracing.entering (.item index item.kind) with
    | .ok output =>
      if let some values := output then
        tracing (Program.modify fun (u, results) => (u, results.pushFirst values))
      runItemsEntering limit config (index + 1) rest
    | .error e =>
      tracing (report (.itemFailed index item.kind e))
      return .error e

namespace Flow

/-- Runs the items of a flow from an empty result set, unless its declaration was refused. -/
def driveEntering (limit : Nat) (flow : Flow υ) :
    Suspending ((υ × ResultSet) × List Span) Completion := do
  tracing (Program.modify fun (u, _) => (u, .empty))
  match flow.buildError with
  | some error =>
    tracing (report (.refused error))
    return .error (.build error)
  | none =>
    tracing (report (.flowStarted flow.sequence.length))
    match ← runItemsEntering limit flow.config 0 flow.sequence.items with
    | .ok () =>
      let (_, results) ← tracing Program.get
      tracing (report (.flowCompleted results.length))
      return .ok results
    | .error error =>
      tracing (report (.flowFailed error))
      return .error error

/-- Runs a flow with its span, and then, outside of it, its resolvers. -/
def execEntering (limit : Nat) (flow : Flow υ) :
    Suspending ((υ × ResultSet) × List Span) Completion := do
  let completion ← (flow.driveEntering limit).entering (.flow flow.config.spanLabel)
  tracing (notify completion flow.resolvers).relax.beside
  return completion

end Flow

/-! ## Programs under the spans that they enter -/

/-- With the given spans entered, the first program does what the other one does, which names its
spans itself.  Where the first one is suspended, and where it ends, the base spans are entered. -/
inductive Program.Tracks (base : List Span) :
    List Span → Program m (υ × List Span) α → Program m υ α → Prop
  | done (value : α) : Tracks base base (done value) (done value)
  | panic (payload : Panic) : Tracks base base (panic payload) (panic payload)
  | exhausted (may : m = .suspending) : Tracks base base (exhausted may) (exhausted may)
  /-- Spans are entered or left. -/
  | shift {entered entered' : List Span} {update : υ × List Span → υ × List Span}
      {next : υ × List Span → Program m (υ × List Span) α} {p : Program m υ α}
      (shifts : ∀ u, update (u, entered) = (u, entered'))
      (rest : ∀ u, Tracks base entered' (next (u, entered)) p) :
      Tracks base entered (user update next) p
  | user {entered : List Span} {update : υ × List Span → υ × List Span} {inner : υ → υ}
      {next : υ × List Span → Program m (υ × List Span) α} {next' : υ → Program m υ α}
      (keeps : ∀ u, update (u, entered) = (inner u, entered))
      (rest : ∀ u, Tracks base entered (next (u, entered)) (next' u)) :
      Tracks base entered (user update next) (user inner next')
  | request {entered : List Span} (spans : List Span) (q : Request)
      {next : q.Reply → Program m (υ × List Span) α} {next' : q.Reply → Program m υ α}
      (rest : ∀ x, Tracks base entered (next x) (next' x)) :
      Tracks base entered (request spans q next) (request spans q next')
  | pause (may : m = .suspending) (onDrop : List Handle)
      {next : Unit → Program m (υ × List Span) α} {next' : Unit → Program m υ α}
      (rest : ∀ x, Tracks base base (next x) (next' x)) :
      Tracks base base (pause may onDrop next) (pause may onDrop next')
  | await (may : m = .suspending) (onDrop : List Handle) (h : Handle)
      {next : Settlement → Program m (υ × List Span) α} {next' : Settlement → Program m υ α}
      (rest : ∀ s, Tracks base base (next s) (next' s)) :
      Tracks base base (await may onDrop h next) (await may onDrop h next')

namespace Program

/-- What a program asks for is asked under the spans that are entered. -/
theorem tracks_tracing (p : Program m υ α) (spans : List Span) :
    p.tracing.Tracks spans spans (p.under spans) := by
  induction p with
  | done value => exact .done value
  | panic payload => exact .panic payload
  | exhausted may => exact .exhausted may
  | user update next ih => exact .user (fun _ => rfl) ih
  | request inner q next ih => exact .shift (fun _ => rfl) fun _ => .request _ q ih
  | pause may onDrop next ih => exact .pause may onDrop ih
  | await may onDrop h next ih => exact .await may onDrop h ih

variable {base entered : List Span} {q : Program m (υ × List Span) α} {p : Program m υ α}

theorem Tracks.bind (tracks : q.Tracks base entered p) {g : α → Program m (υ × List Span) β}
    {f : α → Program m υ β} (rest : ∀ a, (g a).Tracks base base (f a)) :
    (q.bind g).Tracks base entered (p.bind f) := by
  induction tracks with
  | done value => exact rest value
  | panic payload => exact .panic payload
  | exhausted may => exact .exhausted may
  | shift shifts _ ih => exact .shift shifts ih
  | user keeps _ ih => exact .user keeps ih
  | request spans r _ ih => exact .request spans r ih
  | pause may onDrop _ ih => exact .pause may onDrop ih
  | await may onDrop h _ ih => exact .await may onDrop h ih

theorem Tracks.enter {span : Span} (tracks : q.Tracks base (entered ++ [span]) p) :
    (q.enter span).Tracks base entered p :=
  .shift (fun _ => rfl) fun _ => tracks

theorem Tracks.leave {span : Span} (tracks : q.Tracks base entered p) :
    q.leave.Tracks base (entered ++ [span]) p := by
  refine .shift (fun u => ?_) fun _ => tracks
  exact congrArg (Prod.mk u) List.dropLast_concat

theorem Tracks.leaving {span : Span} (tracks : q.Tracks (base ++ [span]) entered p) :
    (q.leaving span).Tracks base entered p := by
  induction tracks with
  | done value => exact (Tracks.done value).leave
  | panic payload => exact (Tracks.panic payload).leave
  | exhausted may => exact (Tracks.exhausted may).leave
  | shift shifts _ ih => exact .shift shifts ih
  | user keeps _ ih => exact .user keeps ih
  | request spans r _ ih => exact .request spans r ih
  -- The span is left before the poll is over, and the next poll finds the base and enters it again.
  | pause may onDrop _ ih => exact (Tracks.pause may onDrop fun x => (ih x).enter).leave
  | await may onDrop h _ ih => exact (Tracks.await may onDrop h fun s => (ih s).enter).leave

/-- A program that enters a span does what another one does under it. -/
theorem Tracks.entering {span : Span} (tracks : q.Tracks (base ++ [span]) (base ++ [span]) p) :
    (q.entering span).Tracks base base p :=
  tracks.leaving.enter

/-- Polled again and again, both come to the same and report the same, and the base spans are
entered then. -/
theorem Tracks.course {base entered : List Span} {q : Suspending (υ × List Span) α}
    {p : Suspending υ α} (tracks : q.Tracks base entered p) (acts : List (Act υ)) (st : Store υ) :
    (q.course (acts.map Act.aside) (st.attach entered)).halt =
        (p.course acts st).halt.beside base ∧
      q.emitted (acts.map Act.aside) (st.attach entered) = p.emitted acts st := by
  induction tracks generalizing acts st with
  | done value => exact ⟨rfl, (emitted_done ..).trans (emitted_done ..).symm⟩
  | panic payload => exact ⟨rfl, (emitted_panic ..).trans (emitted_panic ..).symm⟩
  | exhausted may => exact ⟨rfl, (emitted_exhausted ..).trans (emitted_exhausted ..).symm⟩
  | @shift entered entered' update next p shifts rest ih =>
      have hstore : { st.attach entered with user := update (st.user, entered) } =
          st.attach entered' := by
        rw [shifts]
        rfl
      obtain ⟨hhalt, hemitted⟩ := ih st.user acts st
      rw [← hstore] at hhalt hemitted
      exact ⟨hhalt, (emitted_user ..).trans hemitted⟩
  | @user entered update inner next next' keeps rest ih =>
      have hstore : { st.attach entered with user := update (st.user, entered) } =
          Store.attach { st with user := inner st.user } entered := by
        rw [keeps]
        rfl
      obtain ⟨hhalt, hemitted⟩ := ih st.user acts { st with user := inner st.user }
      rw [← hstore] at hhalt hemitted
      exact ⟨hhalt, (emitted_user ..).trans (hemitted.trans (emitted_user ..).symm)⟩
  | @request entered spans r next next' rest ih =>
      have hanswer : (st.attach entered).answer spans r =
          ((st.answer spans r).1, (st.answer spans r).2.attach entered) :=
        Prod.ext_iff.2 ((st.attach entered).answer_attach spans r)
      obtain ⟨hhalt, hemitted⟩ := ih (st.answer spans r).1 acts (st.answer spans r).2
      constructor
      · simp only [Program.course, hanswer]
        exact hhalt
      · rw [emitted_request, emitted_request, Store.noted_attach]
        simp only [hanswer]
        exact congrArg (_ ++ ·) hemitted
  | pause may onDrop rest ih =>
      rw [emitted_pause, emitted_pause]
      cases acts with
      | nil =>
          rw [List.map_nil, Program.course, Store.turn_attach]
          exact ⟨rfl, rfl⟩
      | cons act acts =>
          simp only [List.map_cons, Program.course, Store.turn_attach]
          exact ih () acts (act st.turn)
  | await may onDrop h rest ih =>
      rw [emitted_await, emitted_await]
      simp only [Program.course, Store.waitAmid_attach]
      rcases st.waitAmid h acts with ⟨_ | ⟨s, left⟩, mid⟩
      · exact ⟨rfl, rfl⟩
      · exact ih s left mid

end Program

/-! ## Runs that enter their spans -/

/-- An item of a run, which has the results of the run beside it, enters its span. -/
theorem Item.tracks_run (limit : Nat) (config : Config) (item : Item υ) (span : Span)
    (spans : List Span) :
    Tracks spans spans
      ((item.run limit config).beside.tracing.entering span :
        Suspending ((υ × ResultSet) × List Span) _)
      (((item.run limit config).within span).beside.under spans) := by
  have hwithin : (((item.run limit config).within span).beside :
      Suspending (υ × ResultSet) _).under spans =
        (item.run limit config).beside.under (spans ++ [span]) := by
    rw [beside_eq_inside, inside_within, under_within, beside_eq_inside]
  rw [hwithin]
  exact (tracks_tracing _ (spans ++ [span])).entering

theorem tracks_runItems (limit : Nat) (config : Config) (index : Nat) (items : List (Item υ))
    (spans : List Span) :
    (runItemsEntering limit config index items).Tracks spans spans
      ((runItemsFrom limit config index items).under spans) := by
  induction items generalizing index with
  | nil => exact .done _
  | cons item rest ih =>
      simp only [runItemsEntering, runItemsFrom, Program.bind_eq, Program.under_bind]
      refine (item.tracks_run limit config (.item index item.kind) spans).bind fun outcome => ?_
      rcases outcome with e | _ | values
      · exact (tracks_tracing _ spans).bind fun _ => .done _
      · exact ih (index + 1)
      · exact (tracks_tracing _ spans).bind fun _ => ih (index + 1)

namespace Flow

theorem tracks_drive (limit : Nat) (flow : Flow υ) (spans : List Span) :
    (flow.driveEntering limit).Tracks spans spans ((flow.drive limit).under spans) := by
  simp only [driveEntering, drive, Program.bind_eq, Program.under_bind]
  refine (tracks_tracing _ spans).bind fun _ => ?_
  cases flow.buildError with
  | some error =>
      simp only [Program.under_bind]
      exact (tracks_tracing _ spans).bind fun _ => .done _
  | none =>
      simp only [Program.under_bind]
      refine (tracks_tracing _ spans).bind fun _ => ?_
      refine (tracks_runItems limit flow.config 0 flow.sequence.items spans).bind fun outcome => ?_
      cases outcome with
      | error e => exact (tracks_tracing _ spans).bind fun _ => .done _
      | ok =>
          simp only [Program.under_bind]
          refine (tracks_tracing _ spans).bind fun state => ?_
          exact (tracks_tracing _ spans).bind fun _ => .done _

/-- A run that enters its spans does what it does under them. -/
theorem tracks_exec (limit : Nat) (flow : Flow υ) (spans : List Span) :
    (flow.execEntering limit).Tracks spans spans ((flow.exec limit).under spans) := by
  simp only [execEntering, exec, Program.bind_eq, Program.under_bind, Program.under_within]
  refine (flow.tracks_drive limit _).entering.bind fun completion => ?_
  exact (tracks_tracing _ spans).bind fun _ => .done completion

end Flow

/-- The entered spans are in the state where a course ends or is over. -/
theorem Course.entered_of_halt {c : Course (υ × List Span) α} {halt : Halt υ α}
    {entered : List Span} (hhalt : c.halt = halt.beside entered) : c.store.user.2 = entered := by
  cases c <;> cases halt <;> cases hhalt <;> rfl

namespace Scene

/-- What becomes of the run if it enters its spans and leaves them, where those that it is under are
entered already. -/
def entering (S : Scene υ) (acts : List (Act υ)) :
    Course ((υ × ResultSet) × List Span) Completion :=
  (S.flow.execEntering S.limit).course ((acts.map Act.aside).map Act.aside)
    ((S.store.attach S.flow.results).attach S.spans)

/-- What the run reports then. -/
def emittedEntering (S : Scene υ) : List Event :=
  (S.flow.execEntering S.limit).emitted ((S.acts.map Act.aside).map Act.aside)
    ((S.store.attach S.flow.results).attach S.spans)

/-- If it enters its spans at every poll and leaves them when the poll is over, the run comes to the
same and reports the same. -/
structure LeavesSpans (S : Scene υ) : Prop where
  same : (S.entering S.acts).halt = S.course.halt.beside S.spans
  reports : S.emittedEntering = S.emitted
  /-- After any number of polls, also after the last one, only the spans around it are entered. -/
  left : ∀ acts, acts <+: S.acts → (S.entering acts).store.user.2 = S.spans

theorem leavesSpans (S : Scene υ) : S.LeavesSpans := by
  have htracks := S.flow.tracks_exec S.limit S.spans
  obtain ⟨hsame, hreports⟩ := htracks.course (S.acts.map Act.aside) (S.store.attach S.flow.results)
  refine ⟨hsame, hreports, fun acts _ => ?_⟩
  exact Course.entered_of_halt (htracks.course (acts.map Act.aside) _).1

end Scene

end Stepwise
