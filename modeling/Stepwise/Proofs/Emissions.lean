import Stepwise.Proofs.Passages
/-!
# What the polls of a program report

A poll only adds to the trace.  What a program reports is what its polls add, one poll after the
other, without what happens between them.  It follows the tree of the program: whatever a program is
made of reports in turn, and under spans everything is reported under them.
-/

namespace Stepwise

variable {m : Mode} {υ ρ α β : Type}

namespace Store

/-- The events that were added to the trace since an earlier moment. -/
def since (st earlier : Store υ) : List Event := st.trace.toList.drop earlier.trace.size

/-- The events that a request adds. -/
def noted (st : Store υ) (spans : List Span) : Request → List Event
  | .report notice => [⟨notice, spans⟩]
  | .settle h _ =>
      match st.channel? h with
      | some ⟨.held, false⟩ => [⟨.waiterGone, spans⟩]
      | _ => []
  | _ => []

/-- Nothing is taken out of the trace. -/
def Adds (st later : Store υ) (events : List Event) : Prop :=
  later.trace.toList = st.trace.toList ++ events

theorem Adds.refl (st : Store υ) : st.Adds st [] := (List.append_nil _).symm

theorem Adds.trans {st mid last : Store υ} {events more : List Event} (first : st.Adds mid events)
    (second : mid.Adds last more) : st.Adds last (events ++ more) := by
  rw [Adds, second, first, List.append_assoc]

theorem Adds.since {st later : Store υ} {events : List Event} (adds : st.Adds later events) :
    later.since st = events := by
  rw [Store.since, adds, ← Array.length_toList, List.drop_left]

theorem adds_answer (st : Store υ) (spans : List Span) (q : Request) :
    st.Adds (st.answer spans q).2 (st.noted spans q) := by
  have hreport (st : Store υ) (notice : Notice) :
      st.Adds (st.report spans notice) [⟨notice, spans⟩] := Array.toList_push
  cases q with
  | settle h s =>
      simp only [answer, settle, noted]
      rcases st.channel? h with _ | ⟨_ | s' | _, _ | _⟩
      · exact .refl st
      · exact hreport (st.updateChannel h _) .waiterGone
      all_goals exact .refl st
  | discard h =>
      simp only [answer, discard, noted]
      rcases st.channel? h with _ | ⟨_ | s' | _, waiting⟩ <;> exact .refl st
  | report notice => exact hreport st notice
  | openChannel => exact .refl st
  | deafen h => exact .refl st
  | isWaiting h => exact .refl st
  | defer h s => exact .refl st

/-- What is added under spans is reported under them. -/
theorem mem_noted {st : Store υ} {spans : List Span} {q : Request} {e : Event}
    (hmem : e ∈ st.noted spans q) : e.spans = spans := by
  cases q with
  | report notice =>
      obtain rfl := List.mem_singleton.1 hmem
      rfl
  | settle h s =>
      simp only [noted] at hmem
      split at hmem
      · obtain rfl := List.mem_singleton.1 hmem
        rfl
      · cases hmem
  | _ => cases hmem

/-- The same is added beside a second component of the state. -/
theorem noted_attach (st : Store υ) (r : ρ) (spans : List Span) (q : Request) :
    (st.attach r).noted spans q = st.noted spans q := by
  cases q <;> rfl

end Store

/-- The store that a poll leaves. -/
def Progress.store : Progress υ α → Store υ
  | done st _ | panicked st _ | pending st _ | exhausted st => st

namespace Program

/-- What the polls of a program report that is polled, and once more after every act until it
ends. -/
def emitted (p : Suspending υ α) : List (Act υ) → Store υ → List Event
  | [], st => (p.poll st).store.since st
  | act :: acts, st => (p.poll st).store.since st ++
      match p.poll st with
      | .pending mid rest => rest.program.emitted acts (act mid.turn)
      | _ => []

/-- A poll adds to the trace. -/
theorem adds_poll (p : Suspending υ α) (st : Store υ) :
    ∃ events, st.Adds (p.poll st).store events := by
  induction p generalizing st with
  | done value => exact ⟨[], .refl st⟩
  | panic payload => exact ⟨[], .refl st⟩
  | exhausted may => exact ⟨[], .refl st⟩
  | user update next ih => exact ih st.user { st with user := update st.user }
  | request spans q next ih =>
      obtain ⟨events, hevents⟩ := ih (st.answer spans q).1 (st.answer spans q).2
      exact ⟨_, (st.adds_answer spans q).trans hevents⟩
  | pause may onDrop next => exact ⟨[], .refl st⟩
  | await may onDrop h next ih =>
      rw [poll_await]
      cases st.settlement? h with
      | some s => exact ih s st
      | none => exact ⟨[], .refl st⟩

variable (acts : List (Act υ)) (st : Store υ)

theorem emitted_of_idle {p : Suspending υ α} (hidle : (p.poll st).store = st)
    (hends : ∀ mid rest, p.poll st ≠ .pending mid rest) : p.emitted acts st = [] := by
  have hsince : st.since st = [] := (Store.Adds.refl st).since
  cases acts with
  | nil => rw [emitted, hidle, hsince]
  | cons act acts =>
      rw [emitted, hidle, hsince]
      split
      · exact absurd ‹_› (hends _ _)
      · rfl

@[simp] theorem emitted_done (value : α) : (done value : Suspending υ α).emitted acts st = [] :=
  emitted_of_idle acts st rfl nofun

@[simp] theorem emitted_panic (payload : Panic) :
    (panic payload : Suspending υ α).emitted acts st = [] :=
  emitted_of_idle acts st rfl nofun

@[simp] theorem emitted_exhausted (may : Mode.suspending = .suspending) :
    (exhausted may : Suspending υ α).emitted acts st = [] :=
  emitted_of_idle acts st rfl nofun

theorem emitted_user (update : υ → υ) (next : υ → Suspending υ α) :
    (user update next).emitted acts st =
      (next st.user).emitted acts { st with user := update st.user } := by
  cases acts <;> rfl

theorem emitted_request (spans : List Span) (q : Request) (next : q.Reply → Suspending υ α) :
    (request spans q next).emitted acts st =
      st.noted spans q ++ (next (st.answer spans q).1).emitted acts (st.answer spans q).2 := by
  obtain ⟨events, hevents⟩ := (next (st.answer spans q).1).adds_poll (st.answer spans q).2
  have hsince : ((request spans q next).poll st).store.since st = st.noted spans q ++
      ((next (st.answer spans q).1).poll (st.answer spans q).2).store.since
        (st.answer spans q).2 := by
    rw [hevents.since]
    exact ((st.adds_answer spans q).trans hevents).since
  cases acts with
  | nil => exact hsince
  | cons act acts =>
      rw [emitted, hsince, List.append_assoc]
      rfl

theorem emitted_pause (may : Mode.suspending = .suspending) (onDrop : List Handle)
    (next : Unit → Suspending υ α) :
    (pause may onDrop next).emitted acts st =
      match acts with
      | [] => []
      | act :: acts => (next ()).emitted acts (act st.turn) := by
  have hsince : st.since st = [] := (Store.Adds.refl st).since
  cases acts with
  | nil => exact hsince
  | cons act acts => exact congrArg (· ++ _) hsince

theorem emitted_await (may : Mode.suspending = .suspending) (onDrop : List Handle) (h : Handle)
    (next : Settlement → Suspending υ α) :
    (await may onDrop h next).emitted acts st =
      match st.waitAmid h acts with
      | (some (s, left), mid) => (next s).emitted left mid
      | (none, _) => [] := by
  have hsince (st : Store υ) : st.since st = [] := (Store.Adds.refl st).since
  fun_induction Store.waitAmid h acts st with
  | case1 st s acts settled =>
      cases acts <;> simp only [emitted, poll_await_of_settled settled]
  | case2 st unsettled =>
      simp only [emitted, poll_await_of_unsettled unsettled, Progress.store, hsince]
  | case3 st act acts unsettled ih =>
      rw [← ih]
      simp only [emitted, poll_await_of_unsettled unsettled, Progress.store, hsince,
        List.nil_append]

/-! ## Programs made of programs -/

/-- A program that goes on where another one ended reports what that one did first. -/
theorem emitted_bind (p : Suspending υ α) (f : α → Suspending υ β) :
    (p.bind f).emitted acts st = p.emitted acts st ++
      match p.course acts st with
      | .ended mid value left => (f value).emitted left mid
      | _ => [] := by
  induction p generalizing acts st with
  | done value => rw [emitted_done]; rfl
  | panic payload => simp [bind, course]
  | exhausted may => simp [bind, course]
  | user update next ih =>
      rw [emitted_user]
      exact (emitted_user ..).trans (ih _ acts _)
  | request spans q next ih =>
      rw [emitted_request, List.append_assoc]
      exact (emitted_request ..).trans (congrArg (_ ++ ·) (ih _ acts _))
  | pause may onDrop next ih =>
      rw [emitted_pause]
      refine (emitted_pause ..).trans ?_
      cases acts with
      | nil => rfl
      | cons act acts => exact ih () acts _
  | await may onDrop h next ih =>
      rw [emitted_await]
      refine (emitted_await ..).trans ?_
      simp only [course]
      rcases st.waitAmid h acts with ⟨_ | ⟨s, left⟩, mid⟩
      · rfl
      · exact ih s left mid

/-- To change the value of a program reports nothing. -/
theorem emitted_map (p : Suspending υ α) (f : α → β) :
    (p.bind fun a => done (f a)).emitted acts st = p.emitted acts st := by
  rw [emitted_bind]
  cases p.course acts st with
  | ended mid value left => simp only [emitted_done, List.append_nil]
  | unwound mid payload => exact List.append_nil _
  | pending mid rest => exact List.append_nil _
  | exhausted mid => exact List.append_nil _

/-- Under spans everything is reported under them. -/
theorem prefix_of_mem_emitted_under {spans : List Span} {p : Suspending υ α} {e : Event}
    (hmem : e ∈ (p.under spans).emitted acts st) : spans <+: e.spans := by
  induction p generalizing acts st with
  | done value => simp [under] at hmem
  | panic payload => simp [under] at hmem
  | exhausted may => simp [under] at hmem
  | user update next ih =>
      rw [under, emitted_user] at hmem
      exact ih _ _ _ hmem
  | request inner q next ih =>
      rw [under, emitted_request] at hmem
      rcases List.mem_append.1 hmem with hmem | hmem
      · rw [Store.mem_noted hmem]
        exact List.prefix_append _ _
      · exact ih _ _ _ hmem
  | pause may onDrop next ih =>
      rw [under, emitted_pause] at hmem
      cases acts with
      | nil => cases hmem
      | cons act acts => exact ih _ _ _ hmem
  | await may onDrop h next ih =>
      rw [under, emitted_await] at hmem
      rcases hwait : st.waitAmid h acts with ⟨_ | ⟨s, left⟩, mid⟩
      · rw [hwait] at hmem
        cases hmem
      · rw [hwait] at hmem
        exact ih _ _ _ hmem

/-- To catch panics reports nothing. -/
theorem emitted_caught (p : Suspending υ α) : p.caught.emitted acts st = p.emitted acts st := by
  induction p generalizing acts st with
  | done value => exact (emitted_done ..).trans (emitted_done ..).symm
  | panic payload => exact (emitted_done ..).trans (emitted_panic ..).symm
  | exhausted may => exact (emitted_exhausted ..).trans (emitted_exhausted ..).symm
  | user update next ih =>
      rw [emitted_user, ← ih]
      exact emitted_user ..
  | request spans q next ih =>
      rw [emitted_request, ← ih]
      exact emitted_request ..
  | pause may onDrop next ih =>
      rw [emitted_pause]
      refine (emitted_pause ..).trans ?_
      cases acts with
      | nil => rfl
      | cons act acts => exact ih () acts _
  | await may onDrop h next ih =>
      rw [emitted_await]
      refine (emitted_await ..).trans ?_
      rcases st.waitAmid h acts with ⟨_ | ⟨s, left⟩, mid⟩
      · rfl
      · exact ih s left mid

/-- To let go of a waiting end reports nothing. -/
theorem emitted_closing (k : Handle) (spans : List Span) (p : Suspending υ α) :
    ((p.closing k).under spans).emitted acts st = (p.under spans).emitted acts st := by
  induction p generalizing acts st with
  | done value =>
      refine (emitted_request ..).trans ?_
      simp [under, Store.noted]
  | panic payload =>
      refine (emitted_request ..).trans ?_
      simp [under, Store.noted]
  | exhausted may => rfl
  | user update next ih =>
      simp only [closing, under, emitted_user]
      exact ih ..
  | request inner q next ih =>
      simp only [closing, under, emitted_request]
      exact congrArg (_ ++ ·) (ih ..)
  | pause may onDrop next ih =>
      refine (emitted_pause ..).trans (Eq.trans ?_ (emitted_pause ..).symm)
      cases acts with
      | nil => rfl
      | cons act acts => exact ih () acts _
  | await may onDrop h next ih =>
      refine (emitted_await ..).trans (Eq.trans ?_ (emitted_await ..).symm)
      rcases st.waitAmid h acts with ⟨_ | ⟨s, left⟩, mid⟩
      · rfl
      · exact ih s left mid

/-- A program with a component of state of its own reports what it does beside that component. -/
theorem emitted_withLocal (p : Suspending (υ × ρ) α) (r : ρ) :
    (p.withLocal r).emitted acts st = p.emitted (acts.map Act.aside) (st.attach r) := by
  induction p generalizing acts st r with
  | done value => exact (emitted_done ..).trans (emitted_done ..).symm
  | panic payload => exact (emitted_panic ..).trans (emitted_panic ..).symm
  | exhausted may => exact (emitted_exhausted ..).trans (emitted_exhausted ..).symm
  | user update next ih =>
      rw [emitted_user]
      exact (emitted_user ..).trans (ih _ acts _ _)
  | request spans q next ih =>
      obtain ⟨hreply, hstore⟩ := (st.attach r).answer_attach spans q
      rw [emitted_request, Store.noted_attach, hreply, hstore]
      exact (emitted_request ..).trans (congrArg (_ ++ ·) (ih _ acts _ _))
  | pause may onDrop next ih =>
      rw [emitted_pause]
      refine (emitted_pause ..).trans ?_
      cases acts with
      | nil => rfl
      | cons act acts =>
          simp only [List.map_cons, Store.turn_attach]
          exact ih () acts _ r
  | await may onDrop h next ih =>
      rw [emitted_await]
      refine (emitted_await ..).trans ?_
      rw [Store.waitAmid_attach]
      rcases st.waitAmid h acts with ⟨_ | ⟨s, left⟩, mid⟩
      · rfl
      · exact ih s left mid r

/-- What runs beside a component of state of its own leaves it as it is. -/
theorem withLocal_beside (p : Program m υ α) (r : ρ) :
    (p.beside : Program m (υ × ρ) α).withLocal r = p.bind fun value => done (value, r) := by
  induction p with
  | done => rfl
  | panic => rfl
  | exhausted => rfl
  | user update next ih => exact congrArg (user update) (funext ih)
  | request spans q next ih => exact congrArg (request spans q) (funext ih)
  | pause may onDrop next ih => exact congrArg (pause may onDrop) (funext ih)
  | await may onDrop h next ih => exact congrArg (await may onDrop h) (funext ih)

/-- Beside a second component of the state a program reports what it reports alone. -/
theorem emitted_attach (p : Suspending υ α) (r : ρ) :
    (p.beside : Suspending (υ × ρ) α).emitted (acts.map Act.aside) (st.attach r) =
      p.emitted acts st := by
  rw [← emitted_withLocal, withLocal_beside]
  exact emitted_map ..

/-- A plain function adds to the trace. -/
theorem adds_run (p : Direct υ α) (st : Store υ) : ∃ events, st.Adds (p.run st).2 events := by
  induction p generalizing st with
  | done value => exact ⟨[], .refl st⟩
  | panic payload => exact ⟨[], .refl st⟩
  | exhausted may => cases may
  | user update next ih => exact ih st.user { st with user := update st.user }
  | request spans q next ih =>
      obtain ⟨events, hevents⟩ := ih (st.answer spans q).1 (st.answer spans q).2
      exact ⟨_, (st.adds_answer spans q).trans hevents⟩
  | pause may => cases may
  | await may => cases may

/-- A plain function reports within the first poll. -/
theorem emitted_relax (p : Direct υ α) :
    (p.relax : Suspending υ α).emitted acts st = (p.run st).2.since st := by
  have hsince (st : Store υ) : st.since st = [] := (Store.Adds.refl st).since
  induction p generalizing st with
  | done value => exact (emitted_done ..).trans (hsince st).symm
  | panic payload => exact (emitted_panic ..).trans (hsince st).symm
  | exhausted may => cases may
  | user update next ih => exact (emitted_user ..).trans (ih _ _)
  | request spans q next ih =>
      obtain ⟨events, hevents⟩ := (next (st.answer spans q).1).adds_run (st.answer spans q).2
      refine (emitted_request ..).trans ((congrArg (_ ++ ·) (ih _ _)).trans ?_)
      rw [hevents.since]
      exact ((st.adds_answer spans q).trans hevents).since.symm
  | pause may => cases may
  | await may => cases may

end Program

/-! ## Runs -/

/-- What the polls of the run report. -/
def Scene.emitted (S : Scene υ) : List Event :=
  ((S.flow.exec S.limit).under S.spans).emitted (S.acts.map Act.aside)
    (S.store.attach S.flow.results)

namespace Host

/-- What a poll of the run in progress reports. -/
def pollReports (h : Host υ) : List Event :=
  h.run.elim [] fun run => (run.poll h.inner).store.since h.inner

/-- What the polls of the run in progress report, with one more poll after every act until it
ends. -/
def reports : List (Act υ) → Host υ → List Event
  | [], h => h.pollReports
  | f :: acts, h => h.pollReports ++
      match h.resume 1 with
      | (some .pending, h) => reports acts (h.act f)
      | _ => []

theorem reports_of_idle {h : Host υ} (hrun : h.run = none) (acts : List (Act υ)) :
    h.reports acts = [] := by
  cases acts <;> simp [reports, pollReports, resume, hrun]

theorem reports_eq_emitted {h : Host υ} {run : Parked (υ × ResultSet) Completion}
    (hrun : h.run = some run) (acts : List (Act υ)) :
    h.reports acts = run.program.emitted (acts.map Act.aside) h.inner := by
  induction acts generalizing h run with
  | nil =>
      rw [reports, pollReports, hrun]
      rfl
  | cons f acts ih =>
      rw [reports, pollReports, hrun]
      refine congrArg (_ ++ ·) ?_
      unfold resume
      simp only [hrun, Parked.advance, Parked.poll]
      cases run.program.poll h.inner with
      | done st completion => rfl
      | panicked st payload => rfl
      | exhausted st => exact reports_of_idle rfl acts
      | pending st rest => exact ih rfl

/-- The polls of a host report what its run reports. -/
theorem reports_start (limit : Nat) (h : Host υ) (acts : List (Act υ)) :
    (h.start limit).reports acts = (h.scene limit acts).emitted := by
  have hrun : (h.start limit).run = some (.fresh (h.flow.exec limit)) := rfl
  rw [reports_eq_emitted hrun, Scene.emitted, scene, Program.under_nil]
  rfl

end Host

end Stepwise
