import Stepwise.Proofs.Containment
import Stepwise.Proofs.MirroredRuns
/-!
# A logbook beside a run

A flow can be run with a logbook, which notes whatever its steps do and every call of a resolver.
Steps and resolvers do not see it, so the run comes to the same.  What the steps do is noted before
the resolvers are told: one after the other, each once, and each with what the run returns.  A run
that does not return tells none.
-/

namespace Stepwise

variable {m : Mode} {υ α : Type}

inductive Note where
  /-- A step did something. -/
  | worked
  /-- The resolver of that number was told how the run ended. -/
  | told (number : Nat) (completion : Completion)

/-! ## Steps with a logbook -/

namespace Program

/-- Notes that a step does something. -/
def logging (next : Program m (υ × List Note) α) : Program m (υ × List Note) α :=
  .user (fun (u, log) => (u, log ++ [.worked])) fun _ => next

/-- Notes whatever the program does before it returns. -/
def logged : Program m υ α → Program m (υ × List Note) α
  | done value => done value
  | panic payload => logging (panic payload)
  | exhausted may => exhausted may
  | user update next =>
      user (fun (u, log) => (update u, log ++ [.worked])) fun (u, _) => (next u).logged
  | request spans r next => logging (request spans r fun x => (next x).logged)
  | pause may onDrop next => logging (pause may onDrop fun x => (next x).logged)
  | await may onDrop handle next => logging (await may onDrop handle fun s => (next s).logged)

end Program

def Step.logged (step : Step υ) : Step (υ × List Note) where
  label := step.label
  invoker :=
    match step.invoker with
    | .sync body => .sync fun args => (body args).logged
    | .callback body => .callback fun args done => (body args done).logged
    | .future start => .future fun args => (start args).logged.bind fun task => .done task.logged

/-- The steps of the engine do nothing but return. -/
def loggedSteps : StepMap υ (υ × List Note) where
  map := Step.logged
  label _ := rfl
  shape step := by
    obtain ⟨_ | _ | _, label⟩ := step <;> rfl
  always := rfl
  constant _ := rfl

/-- The logbook went on from the given one with what steps did. -/
def Likeness.logged (log : List Note) : Likeness υ (υ × List Note) where
  Alike _ u v := v.1 = u ∧ ∃ k, v.2 = log ++ List.replicate k .worked
  mono _ alike := alike

variable {log : List Note} {R : Pairing}

theorem Likeness.logged_worked {u : υ} {v : υ × List Note}
    (alike : (Likeness.logged log).Alike R u v) (u' : υ) :
    (Likeness.logged log).Alike R u' (u', v.2 ++ [Note.worked]) := by
  obtain ⟨-, k, hlog⟩ := alike
  refine ⟨rfl, k + 1, ?_⟩
  rw [hlog, List.append_assoc, ← List.replicate_succ']

theorem Program.Mirrors.logging {p : Program m υ α} {p' : Program m (υ × List Note) α}
    (mirrors : p.Mirrors (.logged log) agreeing p' R) :
    p.Mirrors (.logged log) agreeing (logging p') R := by
  refine .note (fun u v alike => ?_) fun _ => mirrors
  obtain rfl : v.1 = u := alike.1
  exact Likeness.logged_worked alike v.1

theorem Program.mirrors_logged (hsame : Pairing.same ≤ R) (p : Program m υ α) :
    p.Mirrors (.logged log) agreeing p.logged R := by
  induction p generalizing R with
  | done value => exact .done rfl
  | panic payload => exact Mirrors.logging (.panic payload)
  | exhausted may => exact .exhausted may
  | user update next ih =>
      refine .user (fun u v alike => ?_) fun u v alike => ?_
      · obtain rfl : v.1 = u := alike.1
        exact Likeness.logged_worked alike _
      · obtain rfl : v.1 = u := alike.1
        exact ih v.1 hsame
  | request spans r next ih =>
      exact Mirrors.logging (.request_self hsame fun x more hmore => ih x hmore)
  | pause may onDrop next ih =>
      exact Mirrors.logging (.pause_self hsame fun more hmore => ih () hmore)
  | await may onDrop h next ih =>
      exact Mirrors.logging (.await_self hsame fun s more hmore => ih s hmore)

theorem Step.mirrors_logged (step : Step υ) : step.Mirrors (.logged log) .same step.logged := by
  obtain ⟨invoker, label⟩ := step
  cases invoker with
  | sync body => exact .sync fun R args hsame => Program.mirrors_logged hsame _
  | callback body =>
      refine .callback fun R args h k hsame pairs => ?_
      obtain rfl := Pairing.eq_of_same_le hsame pairs
      exact Program.mirrors_logged hsame _
  | future start =>
      refine .future fun R args hsame => ?_
      have hstart : ((start args).bind .done).Mirrors (.logged log)
          (fun task task' more => task.Mirrors (.logged log) agreeing task' more)
          ((start args).logged.bind fun task => .done task.logged) R :=
        (Program.mirrors_logged hsame (start args)).bind fun task task' more hmore htask => by
          obtain rfl : task = task' := htask
          exact .done (Program.mirrors_logged (hsame.trans hmore) task)
      rwa [Program.bind_done] at hstart

/-! ## Stores with a logbook -/

theorem Store.mirrors_logged (hsame : Pairing.same ≤ R) (st : Store υ) (k : Nat) :
    st.Mirrors (.logged log) #[] #[] R (st.attach (log ++ List.replicate k Note.worked)) where
  user := ⟨rfl, k, rfl⟩
  channels h h' pairs := by
    obtain rfl := Pairing.eq_of_same_le hsame pairs
    rfl
  unopened h h' pairs _ := by
    obtain rfl := Pairing.eq_of_same_le hsame pairs
    rfl
  due := List.forall₂_same.2 fun c _ => ⟨hsame _ _ rfl, rfl⟩
  deferred := List.forall₂_same.2 fun c _ => ⟨hsame _ _ rfl, rfl⟩
  trace := ⟨st.trace, Array.empty_append.symm, Array.empty_append.symm⟩

theorem Pairing.eq_of_completions (hsame : Pairing.same ≤ R)
    {completions completions' : List (Handle × Settlement)}
    (same : List.Forall₂ R.Completions completions completions') : completions = completions' := by
  rw [← List.forall₂_eq_eq_eq]
  exact same.imp fun _ _ hc => Prod.ext (Pairing.eq_of_same_le hsame hc.1) hc.2

/-- Up to the logbook, the stores are the same. -/
theorem Store.Mirrors.eq_attach {st : Store υ} {st' : Store (υ × List Note)}
    (mirrors : st.Mirrors (.logged log) #[] #[] R st') (hsame : Pairing.same ≤ R) :
    ∃ k, st' = st.attach (log ++ List.replicate k Note.worked) := by
  obtain ⟨⟨u, log'⟩, channels, due, deferred, trace⟩ := st'
  obtain ⟨⟨huser, k, hlog⟩, hchannels, -, hdue, hdeferred, news, htrace, htrace'⟩ := mirrors
  have hsameChannels : channels = st.channels :=
    Array.ext_getElem? fun i => (hchannels ⟨i⟩ ⟨i⟩ (hsame _ _ rfl)).symm
  have hsameTrace : trace = st.trace := htrace'.trans htrace.symm
  refine ⟨k, ?_⟩
  simp only at huser hlog hdue hdeferred
  rw [huser, hlog, hsameChannels, hsameTrace, ← Pairing.eq_of_completions hsame hdue,
    ← Pairing.eq_of_completions hsame hdeferred]
  rfl

theorem Act.mirrors_logged (act : Act υ) : act.Mirrors (.logged log) #[] #[] .same act.aside := by
  intro R st st' hsame stores
  obtain ⟨k, rfl⟩ := stores.eq_attach hsame
  exact ⟨R, le_rfl, Store.mirrors_logged hsame (act st) k⟩

/-! ## Resolvers with a logbook -/

/-- Notes that the resolver is told. -/
def Resolver.logged (number : Nat) (resolver : Resolver υ) : Resolver (υ × List Note) :=
  fun completion =>
    .user (fun (u, log) => (u, log ++ [.told number completion])) fun _ =>
      (resolver completion).beside

/-- Resolvers of which the first has the given number. -/
def Resolver.loggedFrom (number : Nat) : List (Resolver υ) → List (Resolver (υ × List Note))
  | [] => []
  | resolver :: rest => Resolver.logged number resolver :: loggedFrom (number + 1) rest

theorem Resolver.loggedFrom_append (number : Nat) (resolvers : List (Resolver υ))
    (resolver : Resolver υ) :
    loggedFrom number (resolvers ++ [resolver]) =
      loggedFrom number resolvers ++ [Resolver.logged (number + resolvers.length) resolver] := by
  induction resolvers generalizing number with
  | nil => rfl
  | cons head rest ih =>
      simp only [List.cons_append, loggedFrom, ih, List.length_cons]
      rw [Nat.add_right_comm, Nat.add_assoc]

theorem Program.run_beside {ρ : Type} (p : Direct υ α) (st : Store υ) (r : ρ) :
    (p.beside : Direct (υ × ρ) α).run (st.attach r) = ((p.run st).1, (p.run st).2.attach r) := by
  induction p generalizing st with
  | done value => rfl
  | panic payload => rfl
  | exhausted may => cases may
  | user update next ih => exact ih _ { st with user := update st.user }
  | request spans q next ih =>
      obtain ⟨hreply, hstore⟩ := (st.attach r).answer_attach spans q
      simp only [beside, run]
      rw [hreply, hstore]
      exact ih _ _
  | pause may => cases may
  | await may => cases may

theorem Resolver.run_logged (number : Nat) (resolver : Resolver υ) (completion : Completion)
    (st : Store υ) (log : List Note) :
    (Resolver.logged number resolver completion).run (st.attach log) =
      (((resolver completion).run st).1,
        ((resolver completion).run st).2.attach (log ++ [Note.told number completion])) :=
  Program.run_beside (resolver completion) st _

theorem Resolver.quiet_loggedFrom {resolvers : List (Resolver υ)}
    (quiet : ∀ resolver ∈ resolvers, Resolver.Quiet resolver) (number : Nat) :
    ∀ resolver ∈ loggedFrom number resolvers, Resolver.Quiet resolver := by
  induction resolvers generalizing number with
  | nil => exact nofun
  | cons head rest ih =>
      refine List.forall_mem_cons.2 ⟨fun completion st => ?_, ?_⟩
      · have hrun := Resolver.run_logged number head completion st.detach.2 st.detach.1
        exact (congrArg Prod.fst hrun).trans (quiet head List.mem_cons_self completion _)
      · exact ih (fun other hother => quiet other (List.mem_cons_of_mem _ hother)) (number + 1)

/-- Resolvers that never panic are told once each, in order. -/
theorem Flow.run_notify_logged {resolvers : List (Resolver υ)}
    (quiet : ∀ resolver ∈ resolvers, Resolver.Quiet resolver) (completion : Completion)
    (number : Nat) (st : Store υ) (log : List Note) :
    ((notify completion (Resolver.loggedFrom number resolvers)).run (st.attach log)).2 =
      ((notify completion resolvers).run st).2.attach
        (log ++ (List.range' number resolvers.length).map (Note.told · completion)) := by
  induction resolvers generalizing number st log with
  | nil => simp [notify, Resolver.loggedFrom, Program.run, pure]
  | cons head rest ih =>
      have hfirst : (head completion).run st = (.ok (), ((head completion).run st).2) :=
        Prod.ext (quiet head List.mem_cons_self completion st) rfl
      have hlogged := Resolver.run_logged number head completion st log
      rw [hfirst] at hlogged
      have hplain : (notify completion (head :: rest)).run st =
          (notify completion rest).run ((head completion).run st).2 :=
        Program.run_bind_ok hfirst _
      have hrest : (notify completion (Resolver.loggedFrom number (head :: rest))).run
          (st.attach log) = (notify completion (Resolver.loggedFrom (number + 1) rest)).run
            (((head completion).run st).2.attach (log ++ [Note.told number completion])) :=
        Program.run_bind_ok hlogged _
      rw [hrest, ih (fun other hother => quiet other (List.mem_cons_of_mem _ hother)), hplain,
        List.length_cons, List.range'_succ, List.map_cons, List.append_assoc]
      rfl

/-! ## Runs with a logbook -/

/-- The flow with steps and resolvers that are noted. -/
def Flow.logged (flow : Flow υ) : Flow (υ × List Note) where
  config := flow.config
  sequence := flow.sequence.mapSteps Step.logged
  resolvers := Resolver.loggedFrom 0 flow.resolvers
  results := flow.results
  buildError := flow.buildError

/-- The host with a logbook beside the state of user code, and no run in progress. -/
def Host.logged (log : List Note) (h : Host υ) : Host (υ × List Note) where
  store := h.store.attach log
  flow := h.flow.logged

/-- What is noted at the end of a run with so many resolvers: if it returns, that every one of them
is told what it returns, in order. -/
def Outcome.notes (registered : Nat) : Outcome Completion → List Note
  | ended completion => (List.range registered).map (.told · completion)
  | unwound _ | pending => []

namespace Host

/-- With a logbook the plan of a run comes to the same. -/
theorem mirrors_logged (limit : Nat) (h : Host υ) (acts : List (Act υ)) (log : List Note) :
    Course.Mirrors (Likeness.beside ResultSet (.logged log)) #[] #[] .same agreeing .same
      (((h.flow.plan limit).toProgram h.flow.config).course (acts.map Act.aside) h.inner)
      ((((h.logged log).flow.plan limit).toProgram (h.logged log).flow.config).course
        ((acts.map Act.aside).map Act.aside) (h.logged log).inner) := by
  have hinvokes : (h.flow.plan limit).Invokes fun step =>
      step.Mirrors (.logged log) .same step.logged :=
    (h.flow.plan_invokes limit).mono fun step _ => step.mirrors_logged
  have hplan : (h.logged log).flow.plan limit = (h.flow.plan limit).mapSteps Step.logged :=
    Flow.mapSteps_plan loggedSteps limit h.flow rfl rfl rfl
  have hacts : List.Forall₂ (Act.Mirrors (Likeness.beside ResultSet (.logged log)) #[] #[] .same)
      (acts.map Act.aside) ((acts.map Act.aside).map Act.aside) := by
    rw [List.forall₂_map_left_iff, List.forall₂_map_right_iff, List.forall₂_map_right_iff]
    exact List.forall₂_same.2 fun act _ => act.mirrors_logged.aside
  have hstart : h.store.Mirrors (.logged log) #[] #[] .same (h.store.attach (log ++ [])) :=
    Store.mirrors_logged le_rfl h.store 0
  rw [List.append_nil] at hstart
  have hstore := hstart.attach h.flow.results
  rw [hplan]
  exact (hinvokes.mirrors h.flow.config le_rfl).course le_rfl hacts hstore

theorem leave_logged (limit : Nat) (h : Host υ) {log last : List Note} {st : Store (υ × ResultSet)}
    {st' : Store ((υ × List Note) × ResultSet)} (hstore : st'.detach.2 = st.detach.2.attach last)
    (hresults : st.detach.1 = st'.detach.1) :
    ((h.logged log).start limit).leave st' = ((h.start limit).leave st).logged last := by
  simp only [leave, logged, hstore, hresults]
  rfl

/-- A run with a logbook comes to the same.  What its steps do is noted before any resolver is told.
-/
theorem watch_logged (limit : Nat) (h : Host υ) (acts : List (Act υ))
    (quiet : ∀ resolver ∈ h.flow.resolvers, Resolver.Quiet resolver) (log : List Note) :
    ∃ k, ((h.logged log).start limit).watch (acts.map Act.aside) =
      (((h.start limit).watch acts).1, ((h.start limit).watch acts).2.logged
        (log ++ (List.replicate k Note.worked ++
          ((h.start limit).watch acts).1.notes h.flow.resolvers.length))) := by
  have hlogged := Resolver.quiet_loggedFrom quiet 0
  have hmirrors := h.mirrors_logged limit acts log
  rw [watch_start, watch_start, Flow.course_exec limit _ fun completion resolver hresolver =>
      quiet resolver hresolver completion,
    Flow.course_exec limit _ fun completion resolver hresolver =>
      hlogged resolver hresolver completion]
  generalize ((h.flow.plan limit).toProgram h.flow.config).course (acts.map Act.aside) h.inner = c
    at hmirrors ⊢
  generalize (((h.logged log).flow.plan limit).toProgram (h.logged log).flow.config).course
    ((acts.map Act.aside).map Act.aside) (h.logged log).inner = c' at hmirrors ⊢
  cases hmirrors with
  | @ended st st' completion completion' left left' more le hstores hpost hacts =>
      obtain ⟨hst, hsame⟩ := hstores.detach
      obtain ⟨k, hattach⟩ := hst.eq_attach le
      obtain rfl : completion = completion' := hpost
      refine ⟨k, Prod.ext rfl (h.leave_logged limit ?_ hsame)⟩
      have htold := Flow.run_notify_logged quiet completion 0 st.detach.2
        (log ++ List.replicate k Note.worked)
      rw [← hattach, ← List.range_eq_range', List.append_assoc] at htold
      exact htold
  | unwound le hstores payload =>
      obtain ⟨hst, hsame⟩ := hstores.detach
      obtain ⟨k, hattach⟩ := hst.eq_attach le
      rw [← List.append_nil (List.replicate k Note.worked)] at hattach
      exact ⟨k, Prod.ext rfl (h.leave_logged limit hattach hsame)⟩
  | pending le hstores drops =>
      obtain ⟨hst, hsame⟩ := (hstores.drop drops).detach
      obtain ⟨k, hattach⟩ := hst.eq_attach le
      rw [← List.append_nil (List.replicate k Note.worked)] at hattach
      exact ⟨k, Prod.ext rfl (h.leave_logged limit hattach hsame)⟩
  | exhausted le hstores =>
      obtain ⟨hst, hsame⟩ := hstores.detach
      obtain ⟨k, hattach⟩ := hst.eq_attach le
      rw [← List.append_nil (List.replicate k Note.worked)] at hattach
      exact ⟨k, Prod.ext rfl (h.leave_logged limit hattach hsame)⟩

end Host

end Stepwise
