import Stepwise.Proofs.Course
import Stepwise.Proofs.Direct
import Stepwise.Proofs.Failing
/-!
# Panics are contained

A flow that catches panics never unwinds.  Compared with the same flow where panics go on, it takes
the same course up to the first panic in a step, and there it ends with that panic as its error.
-/

namespace Stepwise

variable {υ ρ α β : Type}

def Config.catching (config : Config) (catchPanics : Bool) : Config := { config with catchPanics }

/-- The error under which a panic is caught. -/
def Panic.asError (payload : Panic) : FlowError := .panicked payload.message

/-! ## Courses where panics are contained -/

/-- The second course is the first one, except that it ends with an error where that one unwinds. -/
def Course.Contained : Course υ (Except FlowError α) → Course υ (Except FlowError α) → Prop
  | ended st r left, other => other = ended st r left
  | pending st rest, other => ∃ program, other = pending st ⟨program, rest.onDrop⟩
  | exhausted st, other => other = exhausted st
  | unwound st payload, other =>
      ∃ st' left, other = ended st' (.error payload.asError) left ∧ st'.user = st.user

/-- A contained course goes on contained, if an error in its first part is passed on. -/
theorem Course.Contained.andThen {c c' : Course υ (Except FlowError α)}
    {f f' : Except FlowError α → Suspending υ (Except FlowError β)} (contained : c.Contained c')
    (rest : ∀ st r left, c = .ended st r left →
      ((f r).course left st).Contained ((f' r).course left st))
    (passes : ∀ st e left, ∃ st', (f' (.error e)).course left st = .ended st' (.error e) left ∧
      st'.user = st.user) : (c.andThen f).Contained (c'.andThen f') := by
  cases c with
  | ended st r left =>
      obtain rfl := contained
      exact rest st r left rfl
  | pending st rest =>
      obtain ⟨program, rfl⟩ := contained
      exact ⟨program.bind f', rfl⟩
  | exhausted st =>
      obtain rfl := contained
      rfl
  | unwound st payload =>
      obtain ⟨st', left, rfl, huser⟩ := contained
      obtain ⟨last, hlast, huser'⟩ := passes st' payload.asError left
      exact ⟨last, left, hlast, huser'.trans huser⟩

theorem Course.contained_await {may : Mode.suspending = .suspending} {onDrop : List Handle}
    {h : Handle} {next next' : Settlement → Suspending υ (Except FlowError α)}
    (rest : ∀ s acts st, ((next s).course acts st).Contained ((next' s).course acts st))
    (acts : List (Act υ)) (st : Store υ) :
    ((Program.await may onDrop h next).course acts st).Contained
      ((Program.await may onDrop h next').course acts st) := by
  simp only [Program.course]
  rcases st.waitAmid h acts with ⟨_ | ⟨s, left⟩, mid⟩
  · exact ⟨_, rfl⟩
  · exact rest s left mid

/-! ## Invocations -/

namespace Step

/-- The rest of an invocation in a run after its channel was opened: the given call, and what it
comes to. -/
def afterOpening (config : Config) (spans : List Span) (h : Handle)
    (call : Direct υ (Option (Suspending υ Settlement))) : Suspending (υ × ρ) Settlement :=
  ((call.relax.bind (outcome h config)).closing h).inside spans

/-- Whether, of two calls under a configuration without and with catching, the second contains the
panics of the first. -/
def ContainsPanics (config : Config) (spans : List Span) (h : Handle)
    (call : Config → Direct υ (Option (Suspending υ Settlement))) (acts : List (Act (υ × ρ)))
    (st : Store (υ × ρ)) : Prop :=
  ((afterOpening (config.catching false) spans h (call (config.catching false))).course acts
    st).Contained
  ((afterOpening (config.catching true) spans h (call (config.catching true))).course acts st)

variable (config : Config) (spans : List Span) (h : Handle) (args : Values)

theorem containsPanics_none (acts : List (Act (υ × ρ))) (st : Store (υ × ρ)) :
    ContainsPanics config spans h (fun _ => .done none) acts st :=
  Course.contained_await (fun s acts st => by rfl) acts st

/-- A panic in a callback, at whatever point, is its error. -/
theorem containsPanics_callback (p : Direct υ Unit) (acts : List (Act (υ × ρ)))
    (st : Store (υ × ρ)) :
    ContainsPanics config spans h ((Step.callback fun _ _ => p).call args h) acts st := by
  induction p generalizing st with
  | done value => exact containsPanics_none config spans h acts st
  | panic payload => exact ⟨st.deafen h, acts, rfl, rfl⟩
  | exhausted may => cases may
  | user update next ih => exact ih _ _
  | request inner q next ih => exact ih _ _
  | pause may => cases may
  | await may => cases may

/-- So is a panic at any poll of a task. -/
theorem containsPanics_task (task : Suspending υ (Except Cause Values)) (acts : List (Act (υ × ρ)))
    (st : Store (υ × ρ)) :
    ContainsPanics config spans h
      (fun _ => .done (some (task.bind fun r => .done (Settlement.ofResult r)))) acts st := by
  induction task generalizing acts st with
  | done value => rfl
  | panic payload => exact ⟨st.deafen h, acts, rfl, rfl⟩
  | exhausted may => rfl
  | user update next ih => exact ih _ _ _
  | request inner q next ih => exact ih _ _ _
  | pause may onDrop next ih =>
      cases acts with
      | nil => exact ⟨_, rfl⟩
      | cons act acts => exact ih _ _ _
  | await may onDrop other next ih => exact Course.contained_await ih acts st

/-- What a call does with the start of a future, once the continuation is dropped. -/
def launch (start : Direct υ (Suspending υ (Except Cause Values))) (config : Config) :
    Direct υ (Option (Suspending υ Settlement)) :=
  (config.guarded start).bind fun
    | .ok body => .done (some (body.bind fun r => .done (.ofResult r)))
    | .error e => .done (some (.done (.error e)))

/-- And a panic while a future is made. -/
theorem containsPanics_launch (start : Direct υ (Suspending υ (Except Cause Values)))
    (acts : List (Act (υ × ρ))) (st : Store (υ × ρ)) :
    ContainsPanics config spans h (launch start) acts st := by
  induction start generalizing st with
  | done task => exact containsPanics_task config spans h task acts st
  | panic payload => exact ⟨st.deafen h, acts, rfl, rfl⟩
  | exhausted may => cases may
  | user update next ih => exact ih _ _
  | request inner q next ih => exact ih _ _
  | pause may => cases may
  | await may => cases may

theorem containsPanics_future (start : Direct υ (Suspending υ (Except Cause Values)))
    (acts : List (Act (υ × ρ))) (st : Store (υ × ρ)) :
    ContainsPanics config spans h ((Step.future fun _ => start).call args h) acts st :=
  containsPanics_launch config spans h start acts (st.discard h)

/-- A plain function settles the continuation with its panic, for the channel is its own: an honest
body does not know it. -/
theorem containsPanics_sync {keeps : υ → Set Handle} {older known held : Set Handle}
    {p : Direct υ (Except Cause Values)} (honest : p.Honest keeps ∅ anything known held)
    (acts : List (Act (υ × ρ))) {st : Store (υ × ρ)}
    (serves : st.Serves (fun u => keeps u.1) older known held) (hknown : h ∉ known) (hheld : h ∉ held)
    (hchannel : st.channel? h = some ⟨.held, true⟩) :
    ContainsPanics config spans h ((Step.sync fun _ => p).call args h) acts st := by
  induction p generalizing st known held with
  | done value =>
      apply Course.contained_await
      intro s acts st
      rfl
  | panic payload =>
      have hsettled := Store.settlement?_settle_held (.error payload.asError) (spans ++ []) hchannel
      refine ⟨_, acts, Program.course_await_of_settled hsettled acts, ?_⟩
      exact (st.completes_settle _ h _).user.trans (st.completes_discard h).user.symm
  | exhausted may => cases may
  | user update next ih =>
      obtain ⟨hkeeps, hnext⟩ := honest st.user.1 serves.user
      exact ih _ hnext { serves with user := hkeeps } hknown hheld hchannel
  | request inner q next ih =>
      have hopen : h ∈ st.opened := (st.channel?_isSome h).1 (hchannel ▸ rfl)
      obtain ⟨hfresh, hserves⟩ := serves.answer (spans ++ inner) honest.1
      obtain ⟨hsame, hknown', hheld'⟩ := Store.channel?_answer hopen hknown hheld (spans ++ inner)
        honest.1
      exact ih _ (honest.2 _ hfresh) hserves hknown' hheld' (hsame.trans hchannel)
  | pause may => cases may
  | await may => cases may

variable {keeps : υ → Set Handle}

/-- An invocation contains the panics of its step, wherever they happen. -/
theorem contained_invoke {step : Step υ} (honest : step.Honest keeps)
    (acts : List (Act (υ × ρ))) {st : Store (υ × ρ)} (sound : st.Sound fun u => keeps u.1) :
    (((step.invoke args (config.catching false)).inside spans).course acts st).Contained
      (((step.invoke args (config.catching true)).inside spans).course acts st) := by
  have hcontains : ContainsPanics config spans st.openChannel.1 (step.call args st.openChannel.1)
      acts st.openChannel.2 := by
    obtain ⟨invoker, label⟩ := step
    cases invoker with
    | sync body =>
        have hserves := sound.serves (Set.empty_subset st.opened)
        obtain ⟨_, hopened⟩ := hserves.answer [] (q := .openChannel) trivial
        have hserves' : st.openChannel.2.Serves (fun u => keeps u.1) ∅ st.opened ∅ :=
          { hopened with
            user := sound
            known := (Set.subset_insert _ _).trans hopened.known
            waiting := fun _ hin => hin.elim
            apart := fun _ hin => hin.elim }
        have hchannel := st.channel?_openChannel st.openChannel.1
        rw [if_pos rfl] at hchannel
        exact containsPanics_sync config spans _ args (honest args st.opened) acts hserves'
          (Nat.lt_irrefl _) (Set.notMem_empty _) hchannel
    | callback body => exact containsPanics_callback config spans _ args (body args _) acts _
    | future start => exact containsPanics_future config spans _ args (start args) acts _
  exact hcontains

end Step

/-! ## Plans pass errors on -/

namespace Plan

theorem Fails.course {p : Plan υ (Except FlowError α)} {e : FlowError} (fails : p.Fails e)
    (config : Config) (acts : List (Act (υ × ResultSet))) (st : Store (υ × ResultSet)) :
    ∃ st', (p.toProgram config).course acts st = .ended st' (.error e) acts ∧
      st'.user = st.user := by
  induction p generalizing st with
  | done r =>
      obtain rfl : r = .error e := fails
      exact ⟨st, rfl, rfl⟩
  | report spans notice next ih => exact ih fails _
  | exhausted => exact fails.elim
  | results update next ih => exact fails.elim
  | invoke spans step args next ih => exact fails.elim

/-- A plan whose steps are honest contains their panics. -/
theorem contained {keeps : υ → Set Handle} (config : Config) {p : Plan υ (Except FlowError α)}
    (failFast : p.FailFast) (invokes : p.Invokes (·.Honest keeps))
    {acts : List (Act (υ × ResultSet))}
    (lawful : ∀ act ∈ acts, Store.Lawful (fun u => keeps u.1) act) {st : Store (υ × ResultSet)}
    (sound : st.Sound fun u => keeps u.1) :
    ((p.toProgram (config.catching false)).course acts st).Contained
      ((p.toProgram (config.catching true)).course acts st) := by
  induction p generalizing acts st with
  | done r => rfl
  | exhausted => rfl
  | report spans notice next ih => exact ih failFast invokes lawful sound
  | results update next ih => exact ih _ (failFast _) (invokes _) lawful sound
  | invoke spans step args next ih =>
      have hserves := sound.serves (Set.empty_subset st.opened)
      have habides := ((Step.honest_invoke invokes.1 args (config.catching false)
        st.opened).inside spans).course lawful hserves
      simp only [toProgram, Program.course_bind]
      apply (Step.contained_invoke config spans args invokes.1 acts sound).andThen
      · intro mid s left hended
        rw [hended] at habides
        obtain ⟨hleft, known, hmid, -⟩ := habides
        exact ih s (failFast.2 s) (invokes.2 s) (fun act hact => lawful act (hleft hact))
          (hmid.user.trans hmid.known)
      · exact fun mid e left => (failFast.1 e).course _ left mid

end Plan

/-! ## Flows -/

theorem repeatPlan_catching (catchPanics : Bool) (config : Config) (slot : Slot υ) (passes : Nat)
    (last : Option Values) (limit : Nat) :
    Item.repeatPlan (config.catching catchPanics) slot passes last limit =
      Item.repeatPlan config slot passes last limit := by
  induction limit generalizing passes last with
  | zero => rfl
  | succ limit ih =>
      simp only [Item.repeatPlan, ih]
      rfl

theorem itemsPlan_catching (catchPanics : Bool) (limit : Nat) (config : Config) (index : Nat)
    (items : List (Item υ)) :
    itemsPlan limit (config.catching catchPanics) index items =
      itemsPlan limit config index items := by
  induction items generalizing index with
  | nil => rfl
  | cons item rest ih =>
      simp only [itemsPlan, ih, Item.plan, repeatPlan_catching]

/-- The resolver never panics. -/
def Resolver.Quiet (resolver : Resolver υ) : Prop :=
  ∀ completion st, ((resolver completion).run st).1 = .ok ()

namespace Flow

def catching (catchPanics : Bool) (flow : Flow υ) : Flow υ :=
  { flow with config := flow.config.catching catchPanics }

/-- Whether panics are caught makes no difference to the plan of a run. -/
theorem plan_catching (catchPanics : Bool) (limit : Nat) (flow : Flow υ) :
    (flow.catching catchPanics).plan limit = flow.plan limit := by
  unfold Flow.plan catching
  simp only [itemsPlan_catching]
  rfl

/-- Resolvers that never panic are told to the end. -/
theorem run_notify {resolvers : List (Resolver υ)} (completion : Completion)
    (quiet : ∀ resolver ∈ resolvers, ∀ st, ((resolver completion).run st).1 = .ok ())
    (st : Store υ) : ((notify completion resolvers).run st).1 = .ok () := by
  induction resolvers generalizing st with
  | nil => rfl
  | cons resolver rest ih =>
      have hfirst : (resolver completion).run st =
          (.ok (), ((resolver completion).run st).2) :=
        Prod.ext (quiet resolver List.mem_cons_self st) rfl
      have hnotify : (notify completion (resolver :: rest)).run st =
          (notify completion rest).run ((resolver completion).run st).2 :=
        Program.run_bind_ok hfirst _
      rw [hnotify]
      exact ih (fun other hother => quiet other (List.mem_cons_of_mem _ hother)) _

/-- What the course of a run comes to from the course of its plan, where no resolver panics. -/
theorem course_exec {flow : Flow υ} (limit : Nat) (acts : List (Act (υ × ResultSet)))
    (quiet : ∀ completion, ∀ resolver ∈ flow.resolvers, ∀ st,
      ((resolver completion).run st).1 = .ok ()) (st : Store (υ × ResultSet)) :
    (flow.exec limit).course acts st =
      match ((flow.plan limit).toProgram flow.config).course acts st with
      | .ended st c left =>
          .ended (((notify c flow.resolvers).run st.detach.2).2.attach st.detach.1) c left
      | .unwound st payload => .unwound st payload
      | .pending st rest => .pending st ⟨rest.program.bind fun c =>
          ((notify c flow.resolvers).relax.beside).bind fun _ => .done c, rest.onDrop⟩
      | .exhausted st => .exhausted st := by
  rw [exec_eq_plan, Program.course_bind]
  cases ((flow.plan limit).toProgram flow.config).course acts st with
  | ended st c left =>
      have htold := run_notify c (quiet c) st.detach.2
      simp only [Course.andThen, Program.course_bind, Program.course_beside]
      rcases hrun : (notify c flow.resolvers).run st.detach.2 with ⟨r, last⟩
      rw [hrun] at htold
      obtain rfl : r = .ok () := htold
      rfl
  | unwound st payload => rfl
  | pending st rest => rfl
  | exhausted st => rfl

end Flow

namespace Host

def catching (catchPanics : Bool) (h : Host υ) : Host υ :=
  { h with flow := h.flow.catching catchPanics }

/-- Panics are contained.  The same flow is run twice, the outside world acting on both runs alike
between their polls; where it does nothing, both are just run to their end (`exec_eq_watch`).  Where
panics are caught the run never unwinds.  If the other one does not unwind either, they cannot be
told apart.  If it does, the first one ends with the panic as its error, having come to the same
state of user code, in which bodies note how they were invoked, and to the same results; after that
it only tells its resolvers. -/
theorem panics_contained {keeps : υ → Set Handle} (limit : Nat) (h : Host υ)
    (honest : h.flow.Honest keeps) (sound : h.store.Sound keeps) (acts : List (Act υ))
    (lawful : ∀ act ∈ acts, Store.Lawful keeps act)
    (quiet : ∀ completion, ∀ resolver ∈ h.flow.resolvers, ∀ st,
      ((resolver completion).run st).1 = .ok ()) :
    let free := ((h.catching false).start limit).watch acts
    let caught := ((h.catching true).start limit).watch acts
    (∀ payload, caught.1 ≠ .unwound payload) ∧
    ((∀ payload, free.1 ≠ .unwound payload) →
      caught.1 = free.1 ∧ caught.2.store = free.2.store ∧
        caught.2.flow.results = free.2.flow.results) ∧
    ∀ payload, free.1 = .unwound payload →
      caught.1 = .ended (.error (.panicked payload.message)) ∧
      caught.2.flow.results = free.2.flow.results ∧
      ∃ st : Store υ, st.user = free.2.store.user ∧ caught.2.store.user =
        ((Flow.notify (.error (.panicked payload.message)) h.flow.resolvers).run st).2.user := by
  intro free caught
  have hlawful : ∀ act ∈ acts.map Act.aside,
      Store.Lawful (fun u : υ × ResultSet => keeps u.1) act := by
    intro act hact
    obtain ⟨outer, houter, rfl⟩ := List.mem_map.1 hact
    exact (lawful outer houter).aside
  have hsound : h.inner.Sound fun u => keeps u.1 := sound
  have hcontained : (((h.flow.plan limit).toProgram (h.flow.catching false).config).course
      (acts.map Act.aside) h.inner).Contained
      (((h.flow.plan limit).toProgram (h.flow.catching true).config).course
        (acts.map Act.aside) h.inner) :=
    Plan.contained h.flow.config (h.flow.plan_failFast limit)
      ((h.flow.plan_invokes limit).mono honest.steps) hlawful hsound
  have hfree : free = ((h.catching false).start limit).conclude
      (((h.flow.catching false).exec limit).course (acts.map Act.aside) h.inner) :=
    watch_start limit (h.catching false) acts
  have hcaught : caught = ((h.catching true).start limit).conclude
      (((h.flow.catching true).exec limit).course (acts.map Act.aside) h.inner) :=
    watch_start limit (h.catching true) acts
  have hquiet (catchPanics : Bool) (completion : Completion) :
      ∀ resolver ∈ (h.flow.catching catchPanics).resolvers, ∀ st,
        ((resolver completion).run st).1 = .ok () := quiet completion
  rw [Flow.course_exec limit _ (hquiet false), Flow.plan_catching] at hfree
  rw [Flow.course_exec limit _ (hquiet true), Flow.plan_catching] at hcaught
  generalize ((h.flow.plan limit).toProgram (h.flow.catching false).config).course
    (acts.map Act.aside) h.inner = c at hcontained hfree
  generalize ((h.flow.plan limit).toProgram (h.flow.catching true).config).course
    (acts.map Act.aside) h.inner = c' at hcontained hcaught
  rw [hfree, hcaught]
  cases c with
  | ended st r left =>
      obtain rfl := hcontained
      exact ⟨fun payload => by simp [conclude], fun _ => ⟨rfl, rfl, rfl⟩,
        fun payload hpayload => by simp [conclude] at hpayload⟩
  | pending st rest =>
      obtain ⟨program, rfl⟩ := hcontained
      exact ⟨fun payload => by simp [conclude], fun _ => ⟨rfl, rfl, rfl⟩,
        fun payload hpayload => by simp [conclude] at hpayload⟩
  | exhausted st =>
      obtain rfl := hcontained
      exact ⟨fun payload => by simp [conclude], fun _ => ⟨rfl, rfl, rfl⟩,
        fun payload hpayload => by simp [conclude] at hpayload⟩
  | unwound st payload =>
      obtain ⟨st', left, rfl, huser⟩ := hcontained
      have hnotes : st'.user.1 = st.user.1 := congrArg Prod.fst huser
      have hresults : st'.user.2 = st.user.2 := congrArg Prod.snd huser
      refine ⟨fun last => by simp [conclude], fun calm => absurd rfl (calm payload), ?_⟩
      intro last hlast
      obtain rfl : payload = last := by simpa [conclude] using hlast
      exact ⟨rfl, hresults, st'.detach.2, hnotes, rfl⟩

end Host

/-- A chain whose action notes its arguments and panics, after a chain that yields a result. -/
def brokenSequence : Sequence (List Values) :=
  { items := [.chain (.single (.int 1)),
      ⟨.chain, [⟨.always, [.constant (.single (.int 7)),
        .sync fun args => .user (fun log => log ++ [args]) fun _ => .panic (.text "broken")]⟩],
        true⟩] }

def brokenHost : Host (List Values) :=
  { store := { user := [] }
    flow := { sequence := brokenSequence, resolvers := [fun _ => .user (fun log => log ++ [.empty])
      fun _ => .done ()] } }

/-- A panic of a plain function, in a flow that has a resolver. -/
theorem panics_contained_broken :
    let caught := ((brokenHost.catching true).start 1).watch []
    caught.1 = .ended (.error (.panicked "broken")) ∧ caught.2.flow.results = ⟨[.int 1]⟩ := by
  intro caught
  have hsteps : ∀ step ∈ brokenHost.flow.sequence.steps, step.Honest fun _ => ∅ := by
    intro step hstep
    have hcases : step = .always ∨ step = .constant (.single (.int 1)) ∨ step = .always ∨
        step = .constant (.single (.int 7)) ∨ step =
          .sync fun args => .user (fun log => log ++ [args]) fun _ => .panic (.text "broken") := by
      simpa [brokenHost, brokenSequence, Sequence.steps, Item.steps, Slot.steps, Item.chain,
        Slot.otherwise] using hstep
    rcases hcases with rfl | rfl | rfl | rfl | rfl
    · exact fun _ _ => ⟨rfl, trivial⟩
    · exact fun _ _ => ⟨rfl, trivial⟩
    · exact fun _ _ => ⟨rfl, trivial⟩
    · exact fun _ _ => ⟨rfl, trivial⟩
    · exact fun _ _ _ hu => ⟨hu, rfl⟩
  have hresolvers : ∀ resolver ∈ brokenHost.flow.resolvers, ∀ completion known,
      (resolver completion).Honest (fun _ => ∅) ∅ anything known ∅ := by
    intro resolver hresolver completion known
    obtain rfl := List.mem_singleton.1 hresolver
    exact fun _ hu => ⟨hu, rfl, trivial⟩
  have hquiet : ∀ completion, ∀ resolver ∈ brokenHost.flow.resolvers, ∀ st,
      ((resolver completion).run st).1 = .ok () := by
    intro completion resolver hresolver st
    obtain rfl := List.mem_singleton.1 hresolver
    rfl
  have hpanic : (((brokenHost.catching false).start 1).watch []).1 = .unwound (.text "broken") := rfl
  have hresults : (((brokenHost.catching false).start 1).watch []).2.flow.results = ⟨[.int 1]⟩ := rfl
  have hcontained := (Host.panics_contained 1 brokenHost ⟨hsteps, hresolvers⟩
    (Set.empty_subset _) [] (fun _ hact => by cases hact) hquiet).2.2 (.text "broken") hpanic
  exact ⟨hcontained.1, hcontained.2.1.trans hresults⟩

end Stepwise
