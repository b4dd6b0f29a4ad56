import Stepwise.Proofs.Course
import Stepwise.Proofs.Settlements
import Stepwise.Proofs.Spans
/-!
# Genuine settlements

User code completes a continuation with an output or with a cause of its own, never with an error
that only the engine makes.  So what is scheduled at any time is genuine, and what is found where
user code was handed a continuation is genuine too, unless the continuation was lost.
-/

namespace Stepwise

variable {m : Mode} {υ ρ α β : Type}

/-- The settlement that some result of user code amounts to. -/
def Settlement.Genuine (s : Settlement) : Prop := ∃ r, s = Settlement.ofResult r

namespace Request

/-- Completes with genuine settlements only. -/
def Genuine : Request → Prop
  | settle _ s | defer _ s => Settlement.Genuine s
  | _ => True

/-- Schedules genuine settlements only. -/
def Deferring : Request → Prop
  | defer _ s => Settlement.Genuine s
  | _ => True

theorem Genuine.deferring {r : Request} (genuine : r.Genuine) : r.Deferring := by
  cases r <;> first | exact genuine | trivial

theorem Genuine.sends {r : Request} (genuine : r.Genuine) : r.Sends Settlement.Genuine := by
  cases r <;> exact genuine

end Request

/-! ## What programs ask for -/

namespace Program

/-- All that the program asks for is allowed, and what it returns satisfies `post`. -/
def Asks (allowed : Request → Prop) (post : α → Prop) : Program m υ α → Prop
  | done value => post value
  | panic _ => True
  | exhausted _ => True
  | user _ next => ∀ u, (next u).Asks allowed post
  | request _ r next => allowed r ∧ ∀ x, (next x).Asks allowed post
  | pause _ _ next => (next ()).Asks allowed post
  | await _ _ _ next => ∀ s, (next s).Asks allowed post

variable {allowed : Request → Prop} {post : α → Prop} {after : β → Prop}

theorem Asks.bind {p : Program m υ α} {f : α → Program m υ β} (asks : p.Asks allowed post)
    (rest : ∀ a, post a → (f a).Asks allowed after) : (p.bind f).Asks allowed after := by
  induction p with
  | done value => exact rest value asks
  | panic payload => trivial
  | exhausted may => trivial
  | user update next ih => exact fun u => ih u (asks u)
  | request spans r next ih => exact ⟨asks.1, fun x => ih x (asks.2 x)⟩
  | pause may onDrop next ih => exact ih () asks
  | await may onDrop h next ih => exact fun s => ih s (asks s)

theorem Asks.mono {wider : Request → Prop} {weaker : α → Prop} {p : Program m υ α}
    (asks : p.Asks allowed post) (request : ∀ r, allowed r → wider r)
    (value : ∀ a, post a → weaker a) : p.Asks wider weaker := by
  induction p with
  | done a => exact value a asks
  | panic payload => trivial
  | exhausted may => trivial
  | user update next ih => exact fun u => ih u (asks u)
  | request spans r next ih => exact ⟨request r asks.1, fun x => ih x (asks.2 x)⟩
  | pause may onDrop next ih => exact ih () asks
  | await may onDrop h next ih => exact fun s => ih s (asks s)

theorem Asks.caught {p : Program m υ α} (asks : p.Asks allowed post) :
    p.caught.Asks allowed fun r => ∀ a, r = .ok a → post a := by
  induction p with
  | done value =>
      intro a ha
      cases ha
      exact asks
  | panic payload => exact nofun
  | exhausted may => trivial
  | user update next ih => exact fun u => ih u (asks u)
  | request spans r next ih => exact ⟨asks.1, fun x => ih x (asks.2 x)⟩
  | pause may onDrop next ih => exact ih () asks
  | await may onDrop h next ih => exact fun s => ih s (asks s)

theorem Asks.onPanic {r : Request} (hallowed : allowed r) {p : Program m υ α}
    (asks : p.Asks allowed post) : (p.onPanic r).Asks allowed post := by
  induction p with
  | done value => exact asks
  | panic payload => exact ⟨hallowed, fun _ => trivial⟩
  | exhausted may => trivial
  | user update next ih => exact fun u => ih u (asks u)
  | request spans q next ih => exact ⟨asks.1, fun x => ih x (asks.2 x)⟩
  | pause may onDrop next ih => exact ih () asks
  | await may onDrop h next ih => exact fun s => ih s (asks s)

theorem Asks.closing {h : Handle} (hallowed : allowed (.deafen h)) {p : Program m υ α}
    (asks : p.Asks allowed post) : (p.closing h).Asks allowed post := by
  induction p with
  | done value => exact ⟨hallowed, fun _ => asks⟩
  | panic payload => exact ⟨hallowed, fun _ => trivial⟩
  | exhausted may => trivial
  | user update next ih => exact fun u => ih u (asks u)
  | request spans q next ih => exact ⟨asks.1, fun x => ih x (asks.2 x)⟩
  | pause may onDrop next ih => exact ih () asks
  | await may onDrop k next ih => exact fun s => ih s (asks s)

theorem Asks.inside {p : Program m υ α} (spans : List Span) (asks : p.Asks allowed post) :
    (p.inside spans : Program m (υ × ρ) α).Asks allowed post := by
  induction p with
  | done value => exact asks
  | panic payload => trivial
  | exhausted may => trivial
  | user update next ih => exact fun u => ih u.1 (asks u.1)
  | request inner r next ih => exact ⟨asks.1, fun x => ih x (asks.2 x)⟩
  | pause may onDrop next ih => exact ih () asks
  | await may onDrop h next ih => exact fun s => ih s (asks s)

theorem Asks.under {p : Program m υ α} (spans : List Span) (asks : p.Asks allowed post) :
    (p.under spans).Asks allowed post := by
  induction p with
  | done value => exact asks
  | panic payload => trivial
  | exhausted may => trivial
  | user update next ih => exact fun u => ih u (asks u)
  | request inner r next ih => exact ⟨asks.1, fun x => ih x (asks.2 x)⟩
  | pause may onDrop next ih => exact ih () asks
  | await may onDrop h next ih => exact fun s => ih s (asks s)

theorem Asks.relax {p : Direct υ α} (asks : p.Asks allowed post) :
    (p.relax : Program m υ α).Asks allowed post := by
  induction p with
  | done value => exact asks
  | panic payload => trivial
  | exhausted may => cases may
  | user update next ih => exact fun u => ih u (asks u)
  | request spans r next ih => exact ⟨asks.1, fun x => ih x (asks.2 x)⟩
  | pause may => cases may
  | await may => cases may

theorem Asks.withLocal {p : Program m (υ × ρ) α} (asks : p.Asks allowed post) (r : ρ) :
    (p.withLocal r).Asks allowed fun x => post x.1 := by
  induction p generalizing r with
  | done value => exact asks
  | panic payload => trivial
  | exhausted may => trivial
  | user update next ih => exact fun u => ih (u, r) (asks (u, r)) _
  | request spans q next ih => exact ⟨asks.1, fun x => ih x (asks.2 x) r⟩
  | pause may onDrop next ih => exact ih () asks r
  | await may onDrop h next ih => exact fun s => ih s (asks s) r

end Program

/-! ## Genuine steps and flows -/

/-- A step is genuine if its code completes with genuine settlements only, also where it hands a
continuation on to a step that it calls itself.  A task may run another flow, whose engine settles
its own channels; all that matters of it is what it schedules. -/
def Step.Genuine (step : Step υ) : Prop :=
  match step.invoker with
  | .sync body => ∀ args, (body args).Asks Request.Deferring fun _ => True
  | .callback body => ∀ args done, (body args done).Asks Request.Genuine fun _ => True
  | .future start => ∀ args, (start args).Asks Request.Deferring fun task =>
      task.Asks Request.Deferring fun _ => True

variable {allowed : Request → Prop} {post : α → Prop}

theorem Config.asks_guarded (config : Config) {p : Program m υ α} (asks : p.Asks allowed post) :
    (config.guarded p).Asks allowed fun r => ∀ a, r = .ok a → post a := by
  have hok (a : α) (hpost : post a) :
      (Program.done (.ok a) : Program m υ (Except FlowError α)).Asks allowed
        fun r => ∀ a, r = .ok a → post a := by
    intro b hb
    cases hb
    exact hpost
  unfold Config.guarded
  split
  · refine asks.caught.bind fun r hr => ?_
    cases r with
    | ok a => exact hok a (hr a rfl)
    | error payload => exact nofun
  · exact asks.bind hok

namespace Step

/-- All that the step's own code asks for is allowed, where it is called so. -/
def Asks (allowed : Request → Prop) (step : Step υ) (args : Values) (done : Handle) : Prop :=
  match step.invoker with
  | .sync body => (body args).Asks allowed fun _ => True
  | .callback body => (body args done).Asks allowed fun _ => True
  | .future start => (start args).Asks allowed fun task => task.Asks allowed fun _ => True

/-- Then so is all that the call asks for, and the task that it hands over. -/
theorem Asks.call {step : Step υ} {args : Values} {done : Handle}
    (asks : step.Asks allowed args done) (discards : allowed (.discard done))
    (settles : ∀ s, allowed (.settle done s)) (config : Config) :
    (step.call args done config).Asks allowed fun task =>
      ∀ p, task = some p → p.Asks allowed fun _ => True := by
  obtain ⟨invoker, label⟩ := step
  cases invoker with
  | sync body =>
      refine ((config.asks_guarded asks).onPanic discards).bind ?_
      exact fun result _ => ⟨settles _, fun _ _ hp => nomatch hp⟩
  | callback body =>
      refine (config.asks_guarded asks).bind fun result _ => ?_
      cases result with
      | ok value => exact fun p hp => nomatch hp
      | error e =>
          intro p hp
          cases hp
          trivial
  | future start =>
      refine ⟨discards, fun _ => (config.asks_guarded asks).bind fun result hresult => ?_⟩
      cases result with
      | ok task =>
          intro p hp
          cases hp
          exact (hresult task rfl).bind fun _ _ => trivial
      | error e =>
          intro p hp
          cases hp
          trivial

theorem Genuine.asks {step : Step υ} (genuine : step.Genuine) (args : Values) (done : Handle) :
    step.Asks Request.Deferring args done := by
  obtain ⟨invoker, label⟩ := step
  cases invoker with
  | sync body => exact genuine args
  | callback body =>
      exact (genuine args done).mono (fun _ => Request.Genuine.deferring) fun _ => id
  | future start => exact genuine args

/-- An invocation of a genuine step schedules genuine settlements only. -/
theorem Genuine.invoke {step : Step υ} (genuine : step.Genuine) (args : Values) (config : Config) :
    (step.invoke args config).Asks Request.Deferring fun _ => True := by
  refine ⟨trivial, fun done => Program.Asks.closing trivial ?_⟩
  have hcall := (genuine.asks args done).call trivial (fun _ => trivial) config
  refine hcall.relax.bind fun task htask => ?_
  cases task with
  | none => exact fun _ => trivial
  | some p => exact (config.asks_guarded (htask p rfl)).bind fun _ _ => trivial

end Step

theorem Plan.Invokes.asks {p : Plan υ α} (invokes : p.Invokes Step.Genuine) (config : Config) :
    (p.toProgram config).Asks Request.Deferring fun _ => True := by
  induction p with
  | done value => trivial
  | exhausted => trivial
  | report spans notice next ih => exact ⟨trivial, fun _ => ih invokes⟩
  | results update next ih => exact fun u => ih u.2 (invokes u.2)
  | invoke spans step args next ih =>
      exact ((invokes.1.invoke args config).inside spans).bind fun s _ => ih s (invokes.2 s)

/-- The steps and the resolvers of a flow are genuine. -/
structure Flow.Genuine (flow : Flow υ) : Prop where
  steps : ∀ step ∈ flow.sequence.steps, step.Genuine
  resolvers : ∀ resolver ∈ flow.resolvers, ∀ completion,
    (resolver completion).Asks Request.Deferring fun _ => True

namespace Flow

theorem asks_notify {resolvers : List (Resolver υ)} (completion : Completion)
    (genuine : ∀ resolver ∈ resolvers, (resolver completion).Asks Request.Deferring fun _ => True) :
    (notify completion resolvers).Asks Request.Deferring fun _ => True := by
  induction resolvers with
  | nil => trivial
  | cons resolver rest ih =>
      refine (genuine resolver List.mem_cons_self).bind fun _ _ => ?_
      exact ih fun other hother => genuine other (List.mem_cons_of_mem _ hother)

/-- So a task may run a genuine flow. -/
theorem Genuine.exec {flow : Flow υ} (genuine : flow.Genuine) (limit : Nat) :
    (flow.exec limit).Asks Request.Deferring fun _ => True := by
  rw [exec_eq_plan]
  have hplan := ((flow.plan_invokes limit).mono genuine.steps).asks flow.config
  refine hplan.bind fun completion _ => ?_
  rw [Program.beside_eq_inside]
  have hnotify := asks_notify completion fun resolver hresolver =>
    genuine.resolvers resolver hresolver completion
  exact (hnotify.relax.inside []).bind fun _ _ => trivial

end Flow

/-! ## Genuine stores -/

namespace Store

/-- What is scheduled is genuine. -/
def SchedulesGenuine (st : Store υ) : Prop := ∀ c ∈ st.due ++ st.deferred, Settlement.Genuine c.2

/-- What is scheduled is genuine, and so is what was sent through the handle, if anything was. -/
structure Genuine (h : Handle) (st : Store υ) : Prop where
  scheduled : st.SchedulesGenuine
  sent : ∀ s waiting, st.channel? h = some ⟨.sent s, waiting⟩ → Settlement.Genuine s

variable {h : Handle} {st : Store υ}

theorem Genuine.iff_carries : st.Genuine h ↔ st.Carries Settlement.Genuine {h} where
  mp genuine := by
    refine ⟨genuine.scheduled, fun k hk => ?_⟩
    obtain rfl := Set.mem_singleton_iff.1 hk
    exact genuine.sent
  mpr carries := ⟨carries.scheduled, carries.sent h rfl⟩

theorem Genuine.turn (genuine : st.Genuine h) : st.turn.Genuine h :=
  iff_carries.2 (iff_carries.1 genuine).turn

theorem Genuine.answer (genuine : st.Genuine h) (spans : List Span) {r : Request}
    (hr : r.Genuine) : (st.answer spans r).2.Genuine h :=
  iff_carries.2 ((iff_carries.1 genuine).answer spans hr.sends)

/-- Nothing was sent through a handle that was not opened yet. -/
theorem SchedulesGenuine.genuine (scheduled : st.SchedulesGenuine) :
    st.Genuine st.openChannel.1 where
  scheduled := scheduled
  sent s waiting hchannel := by
    have hnone : st.channel? st.openChannel.1 = none := Array.getElem?_eq_none le_rfl
    rw [hnone] at hchannel
    cases hchannel

theorem SchedulesGenuine.defer (scheduled : st.SchedulesGenuine) (k : Handle) {s : Settlement}
    (hs : Settlement.Genuine s) : (st.defer k s).SchedulesGenuine :=
  ((Genuine.iff_carries.1 scheduled.genuine).defer k hs).scheduled

theorem SchedulesGenuine.answer (scheduled : st.SchedulesGenuine) (spans : List Span) {r : Request}
    (hr : r.Deferring) : (st.answer spans r).2.SchedulesGenuine := by
  have hsame {later : Store υ} (hdue : later.due = st.due)
      (hdeferred : later.deferred = st.deferred) : later.SchedulesGenuine := by
    unfold SchedulesGenuine
    rwa [hdue, hdeferred]
  cases r with
  | settle k s => exact hsame (due_settle st spans k s) (deferred_settle st spans k s)
  | discard k => exact hsame (due_discard st k) (deferred_discard st k)
  | defer k s => exact scheduled.defer k hr
  | openChannel => exact hsame rfl rfl
  | deafen k => exact hsame rfl rfl
  | isWaiting k => exact scheduled
  | report notice => exact hsame rfl rfl

theorem SchedulesGenuine.turn (scheduled : st.SchedulesGenuine) : st.turn.SchedulesGenuine :=
  scheduled.genuine.turn.scheduled

end Store

/-- The outside world completes and schedules with genuine settlements only. -/
def Act.Genuine (act : Act υ) : Prop := ∀ st h, Store.Genuine h st → (act st).Genuine h

/-- A program that schedules genuine settlements only leaves no others. -/
theorem Program.Asks.schedulesGenuine {p : Suspending υ α} (asks : p.Asks Request.Deferring post)
    {acts left : List (Act υ)} (genuine : ∀ act ∈ acts, act.Genuine) {st last : Store υ}
    (scheduled : st.SchedulesGenuine) {value : α}
    (hended : p.course acts st = .ended last value left) : last.SchedulesGenuine := by
  have hact {act : Act υ} (hgenuine : act.Genuine) {st : Store υ}
      (scheduled : st.SchedulesGenuine) : (act st.turn).SchedulesGenuine :=
    (hgenuine _ _ scheduled.turn.genuine).scheduled
  induction p generalizing acts st with
  | done value =>
      cases hended
      exact scheduled
  | panic payload => cases hended
  | exhausted may => cases hended
  | user update next ih =>
      have hscheduled : Store.SchedulesGenuine { st with user := update st.user } := scheduled
      exact ih _ (asks _) genuine hscheduled hended
  | request spans r next ih =>
      exact ih _ (asks.2 _) genuine (scheduled.answer spans asks.1) hended
  | pause may onDrop next ih =>
      cases acts with
      | nil => cases hended
      | cons act acts =>
          obtain ⟨hfirst, hrest⟩ := List.forall_mem_cons.1 genuine
          exact ih () asks hrest (hact hfirst scheduled) hended
  | await may onDrop h next ih =>
      induction acts generalizing st with
      | nil =>
          cases hsettled : st.settlement? h with
          | some s =>
              rw [course_await_of_settled hsettled] at hended
              exact ih s (asks s) genuine scheduled hended
          | none =>
              rw [course_await_nil hsettled] at hended
              cases hended
      | cons act acts later =>
          cases hsettled : st.settlement? h with
          | some s =>
              rw [course_await_of_settled hsettled] at hended
              exact ih s (asks s) genuine scheduled hended
          | none =>
              rw [course_await_cons hsettled] at hended
              obtain ⟨hfirst, hrest⟩ := List.forall_mem_cons.1 genuine
              exact later hrest (hact hfirst scheduled) hended

end Stepwise
