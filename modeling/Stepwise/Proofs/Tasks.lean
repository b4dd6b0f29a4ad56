import Stepwise.Proofs.Account
import Stepwise.Proofs.Direct
/-!
# Invocations of steps that end

What becomes of the invocation of a future step is what becomes of its task, and what becomes of
that of a sync step is what its body returns, whatever the configuration, as long as they end by
themselves.
-/

namespace Stepwise

variable {m : Mode} {υ ρ α : Type}

/-- How far a program comes that lets go of a waiting end. -/
def Halt.closing (h : Handle) : Halt υ α → Halt υ α
  | ended st value left => .ended (st.deafen h) value left
  | unwound st payload => .unwound (st.deafen h) payload
  | pending st onDrop => .pending st (onDrop ++ [h])
  | exhausted st => .exhausted st

namespace Program

theorem under_caught (spans : List Span) (p : Program m υ α) :
    p.caught.under spans = (p.under spans).caught := by
  induction p with
  | done => rfl
  | panic => rfl
  | exhausted => rfl
  | user update next ih => exact congrArg (user update) (funext ih)
  | request inner r next ih => exact congrArg (request (spans ++ inner) r) (funext ih)
  | pause may onDrop next ih => exact congrArg (pause may onDrop) (funext ih)
  | await may onDrop handle next ih => exact congrArg (await may onDrop handle) (funext ih)

theorem under_withLocal (spans : List Span) (p : Program m (υ × ρ) α) (r : ρ) :
    (p.withLocal r).under spans = (p.under spans).withLocal r := by
  induction p generalizing r with
  | done => rfl
  | panic => rfl
  | exhausted => rfl
  | user update next ih => exact congrArg (user _) (funext fun u => ih (u, r) _)
  | request inner q next ih =>
      exact congrArg (request (spans ++ inner) q) (funext fun x => ih x r)
  | pause may onDrop next ih => exact congrArg (pause may onDrop) (funext fun x => ih x r)
  | await may onDrop handle next ih =>
      exact congrArg (await may onDrop handle) (funext fun s => ih s r)

/-- A plain function ends, or unwinds, within the poll. -/
theorem course_relax_eq (p : Direct υ α) (acts : List (Act υ)) (st : Store υ) :
    (p.relax : Suspending υ α).course acts st =
      match p.run st with
      | (.ok value, last) => .ended last value acts
      | (.error payload, last) => .unwound last payload := by
  induction p generalizing st with
  | done value => rfl
  | panic payload => rfl
  | exhausted may => cases may
  | user update next ih => exact ih _ _
  | request spans q next ih => exact ih _ _
  | pause may => cases may
  | await may => cases may

/-- A plain function that returns ends within the poll. -/
theorem course_relax {p : Direct υ α} {st last : Store υ} {value : α}
    (hrun : p.run st = (.ok value, last)) (acts : List (Act υ)) :
    (p.relax : Suspending υ α).course acts st = .ended last value acts := by
  rw [course_relax_eq, hrun]

theorem run_under_onPanic_eq (q : Request) (p : Direct υ α) (spans : List Span) (st : Store υ) :
    ((p.onPanic q).under spans).run st =
      match (p.under spans).run st with
      | (.ok value, last) => (.ok value, last)
      | (.error payload, last) => (.error payload, (last.answer (spans ++ []) q).2) := by
  induction p generalizing st with
  | done value => rfl
  | panic payload => rfl
  | exhausted may => cases may
  | user update next ih => exact ih _ _
  | request inner r next ih => exact ih _ _
  | pause may => cases may
  | await may => cases may

/-- To catch panics makes no difference where none is raised. -/
theorem halt_course_caught (p : Suspending υ α) (acts : List (Act υ)) (st : Store υ) :
    match p.course acts st with
    | .ended last value left => p.caught.course acts st = .ended last (.ok value) left
    | .unwound last payload => ∃ left, p.caught.course acts st = .ended last (.error payload) left
    | .pending last rest =>
        ∃ program, p.caught.course acts st = .pending last ⟨program, rest.onDrop⟩
    | .exhausted last => p.caught.course acts st = .exhausted last := by
  induction p generalizing acts st with
  | done value => rfl
  | panic payload => exact ⟨acts, rfl⟩
  | exhausted may => rfl
  | user update next ih => exact ih _ _ _
  | request spans q next ih => exact ih _ _ _
  | pause may onDrop next ih =>
      cases acts with
      | nil => exact ⟨_, rfl⟩
      | cons act acts => exact ih () acts _
  | await may onDrop k next ih =>
      simp only [caught, course]
      rcases st.waitAmid k acts with ⟨_ | ⟨s, left⟩, last⟩
      · exact ⟨_, rfl⟩
      · exact ih s left last

theorem halt_course_closing (h : Handle) (p : Suspending υ α) (spans : List Span)
    (acts : List (Act υ)) (st : Store υ) :
    (((p.closing h).under spans).course acts st).halt =
      ((p.under spans).course acts st).halt.closing h := by
  induction p generalizing acts st with
  | done value => rfl
  | panic payload => rfl
  | exhausted may => rfl
  | user update next ih => exact ih _ _ _
  | request inner q next ih => exact ih _ _ _
  | pause may onDrop next ih =>
      cases acts with
      | nil => rfl
      | cons act acts => exact ih () acts _
  | await may onDrop k next ih =>
      simp only [closing, under, course]
      rcases st.waitAmid k acts with ⟨_ | ⟨s, left⟩, last⟩
      · rfl
      · exact ih s left last

section Ended

variable {acts left : List (Act υ)} {st last : Store υ} {value : α}

/-- To catch panics makes no difference to a program that ends. -/
theorem course_caught {p : Suspending υ α} (hended : p.course acts st = .ended last value left) :
    p.caught.course acts st = .ended last (.ok value) left := by
  have hcaught := p.halt_course_caught acts st
  rw [hended] at hcaught
  exact hcaught

/-- A program that ends lets go of the waiting end then. -/
theorem course_closing {spans : List Span} {p : Suspending υ α} (k : Handle)
    (hended : (p.under spans).course acts st = .ended last value left) :
    ((p.closing k).under spans).course acts st = .ended (last.deafen k) value left := by
  have hclosing := halt_course_closing k p spans acts st
  rw [hended] at hclosing
  exact Course.ended_of_halt hclosing

/-- A program with a component of state of its own ends as it does beside that component. -/
theorem course_withLocal {p : Suspending (υ × ρ) α} {r r' : ρ}
    (hended : p.course (acts.map Act.aside) (st.attach r) =
      .ended (last.attach r') value (left.map Act.aside)) :
    (p.withLocal r).course acts st = .ended last (value, r') left := by
  induction p generalizing acts st r with
  | done a =>
      injection hended with hstore hvalue hleft
      have hsame : left = acts := (List.map_inj_right fun _ _ => Act.aside_inj r).1 hleft.symm
      have hdetach : (r, st) = (r', last) := congrArg Store.detach hstore
      cases hdetach
      rw [hsame, ← hvalue]
      rfl
  | panic payload => cases hended
  | exhausted may => cases hended
  | user update next ih => exact ih _ hended
  | request spans q next ih =>
      obtain ⟨hreply, hstore⟩ := (st.attach r).answer_attach spans q
      simp only [course] at hended
      rw [hreply, hstore] at hended
      exact ih _ hended
  | pause may onDrop next ih =>
      cases acts with
      | nil => cases hended
      | cons act acts =>
          simp only [List.map_cons, course, Store.turn_attach] at hended
          exact ih () hended
  | await may onDrop h next ih =>
      simp only [withLocal, course, Store.waitAmid_attach] at hended ⊢
      rcases hwait : st.waitAmid h acts with ⟨_ | ⟨s, rest⟩, mid⟩
      · rw [hwait] at hended
        cases hended
      · rw [hwait] at hended
        exact ih s hended

end Ended

end Program

namespace Config

theorem under_guarded (config : Config) (spans : List Span) (p : Program m υ α) :
    (config.guarded p).under spans = config.guarded (p.under spans) := by
  cases hcatch : config.catchPanics with
  | true =>
      rw [guarded_of_catching hcatch, guarded_of_catching hcatch, Program.under_bind,
        Program.under_caught]
      rfl
  | false =>
      rw [guarded_of_not_catching hcatch, guarded_of_not_catching hcatch, Program.under_bind]
      rfl

/-- To guard a program makes no difference to one that ends. -/
theorem course_guarded (config : Config) {p : Suspending υ α} {acts left : List (Act υ)}
    {st last : Store υ} {value : α} (hended : p.course acts st = .ended last value left) :
    (config.guarded p).course acts st = .ended last (.ok value) left := by
  cases hcatch : config.catchPanics with
  | true =>
      rw [guarded_of_catching hcatch, Program.course_bind, Program.course_caught hended]
      rfl
  | false =>
      rw [guarded_of_not_catching hcatch, Program.course_bind, hended]
      rfl

end Config

/-- A call of a future step hands over what its start returns, with its result as a settlement. -/
theorem Step.run_call_future {start : Values → Direct υ (Suspending υ (Except Cause Values))}
    {args : Values} {spans : List Span} {k : Handle} {st mid : Store υ}
    {task : Suspending υ (Except Cause Values)}
    (hstart : ((start args).under spans).run (st.discard k) = (.ok task, mid))
    (label : Option String) (config : Config) :
    (((Step.mk (.future start) label).call args k config).under spans).run st =
      (.ok (some (task.bind fun r => .done (Settlement.ofResult r))), mid) := by
  have hguarded : ((config.guarded (start args)).under spans).run (st.discard k) =
      (.ok (.ok task), mid) := by
    rw [Config.under_guarded, Config.run_guarded, hstart]
    rfl
  change ((Program.bind (config.guarded (start args)) _).under spans).run _ = _
  rw [Program.under_bind]
  exact Program.run_bind_ok hguarded _

/-- An invocation of a future step comes to what its task ends with. -/
theorem Entry.course_of_task {e : Entry υ}
    {start : Values → Direct υ (Suspending υ (Except Cause Values))}
    (hstep : e.step.invoker = .future start) {task : Suspending υ (Except Cause Values)}
    {mid last : Store υ}
    (hstart : ((start e.args).under e.spans).run
      (e.store.openChannel.2.discard e.store.openChannel.1) = (.ok task, mid))
    {r : Except Cause Values} {left : List (Act υ)}
    (htask : (task.under e.spans).course e.acts mid = .ended last r left) (config : Config) :
    e.course config =
      .ended (last.deafen e.store.openChannel.1) (Settlement.ofResult r) left := by
  obtain ⟨⟨⟨invoker, label⟩, args⟩, spans, acts, st⟩ := e
  obtain rfl : invoker = .future start := hstep
  let call := (Step.mk (.future start) label).call args st.openChannel.1 config
  have hcall : (call.under spans).run st.openChannel.2 =
      (.ok (some (task.bind fun r => .done (Settlement.ofResult r))), mid) :=
    Step.run_call_future hstart label config
  have htold : ((task.bind fun r => .done (Settlement.ofResult r)).under spans).course acts mid =
      .ended last (Settlement.ofResult r) left := by
    rw [Program.under_bind, Program.course_bind, htask]
    rfl
  have hawaited : ((call.relax.bind (Step.outcome st.openChannel.1 config)).under spans).course acts
      st.openChannel.2 = .ended last (Settlement.ofResult r) left := by
    rw [Program.under_bind, Program.course_bind, Program.relax_under, Program.course_relax hcall]
    change (((config.guarded _).bind _).under spans).course acts mid = _
    rw [Program.under_bind, Program.course_bind, Config.under_guarded, config.course_guarded htold]
    cases r <;> rfl
  exact Program.course_closing st.openChannel.1 hawaited

/-- An invocation of a sync step comes to what its body returns, if that leaves the continuation
alone. -/
theorem Entry.course_of_sync {e : Entry υ} {body : Values → Direct υ (Except Cause Values)}
    (hstep : e.step.invoker = .sync body) {r : Except Cause Values} {mid : Store υ}
    (hbody : ((body e.args).under e.spans).run e.store.openChannel.2 = (.ok r, mid))
    (hheld : mid.channel? e.store.openChannel.1 = some ⟨.held, true⟩) (config : Config) :
    e.course config = .ended ((mid.settle e.spans e.store.openChannel.1
      (Settlement.ofResult r)).deafen e.store.openChannel.1) (Settlement.ofResult r) e.acts := by
  obtain ⟨⟨⟨invoker, label⟩, args⟩, spans, acts, st⟩ := e
  obtain rfl : invoker = .sync body := hstep
  let h := st.openChannel.1
  let call := (Step.mk (.sync body) label).call args h config
  have hguarded : ((config.guarded (body args)).under spans).run st.openChannel.2 =
      (.ok (.ok r), mid) := by
    rw [Config.under_guarded, Config.run_guarded, hbody]
    rfl
  have hcall : (call.under spans).run st.openChannel.2 =
      (.ok none, mid.settle (spans ++ []) h (Settlement.ofResult r)) := by
    change ((Program.bind ((config.guarded (body args)).onPanic (.discard h)) _).under spans).run _ =
      _
    rw [Program.under_bind]
    have honPanic := Program.run_under_onPanic_eq (.discard h) (config.guarded (body args)) spans
      st.openChannel.2
    rw [hguarded] at honPanic
    exact Program.run_bind_ok honPanic _
  have hsettled := Store.settlement?_settle_held (Settlement.ofResult r) (spans ++ []) hheld
  have hawaited : ((call.relax.bind (Step.outcome h config)).under spans).course acts
      st.openChannel.2 = .ended (mid.settle (spans ++ []) h (Settlement.ofResult r))
        (Settlement.ofResult r) acts := by
    rw [Program.under_bind, Program.course_bind, Program.relax_under, Program.course_relax hcall]
    exact Program.course_await_of_settled hsettled acts
  rw [List.append_nil] at hawaited
  exact Program.course_closing h hawaited

end Stepwise
