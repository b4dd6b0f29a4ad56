import Stepwise.Proofs.Watching
import Stepwise.Proofs.Workshops
import Stepwise.Script.Memory
import Stepwise.Step.Stub
/-!
# Counters count bodies that ran to their end

A counter hands out steps of every shape.  With a tally of their bodies they may be used in any
flow, invoked, called, and used by other code in any way, as long as nothing else touches the
counter.  Then the counter is right whenever no body of its steps has control.
-/

namespace Stepwise

variable {υ : Type}

/-- A counter in the state of user code. -/
structure Counter (υ : Type) where
  count : υ → Nat
  bump : υ → υ
  count_bump : ∀ u, count (bump u) = count u + 1

namespace Counter

def wasCalled (c : Counter υ) (u : υ) : Bool := decide (0 < c.count u)

/-- The steps of a counter, under any label. -/
inductive HandsOut (c : Counter υ) : Step υ → Prop where
  | sync : HandsOut c (Step.Stub.countedSync c.bump)
  | callback : HandsOut c (Step.Stub.countedCallback c.bump)
  | future : HandsOut c (Step.Stub.countedFuture c.bump)
  | returning (output : Values) : HandsOut c (Step.Stub.countedReturning c.bump output)
  | withLabel {step : Step υ} (handsOut : HandsOut c step) (label : String) :
      HandsOut c (step.withLabel label)

/-- Neither the counter nor the tally changes. -/
def Spared (c : Counter υ) (before after : υ × Tally) : Prop :=
  c.count after.1 = c.count before.1 ∧ after.2 = before.2

end Counter

/-! ## Code that uses a counter -/

/-- A piece of code: a program of either mode, or a step. -/
inductive Code (υ : Type) : Type 1 where
  | program {m : Mode} {α : Type} (p : Program m υ α)
  | step (step : Step υ)

/-- Code that changes the counter and the tally through steps of the counter only.  It may invoke
steps, call them and await or forget what they hand over, and run flows of its own. -/
inductive Counter.Uses (c : Counter υ) : Code (υ × Tally) → Prop where
  | taken {step : Step υ} (handsOut : c.HandsOut step) : Uses c (.step step.watched)
  | sync {body : Values → Direct (υ × Tally) (Except Cause Values)} {label : Option String}
      (uses : ∀ args, Uses c (.program (body args))) : Uses c (.step ⟨.sync body, label⟩)
  | callback {body : Values → Handle → Direct (υ × Tally) Unit} {label : Option String}
      (uses : ∀ args done, Uses c (.program (body args done))) :
      Uses c (.step ⟨.callback body, label⟩)
  /-- A future sets up what its task needs while it is called. -/
  | future {β : Type} {setUp : Values → Direct (υ × Tally) β}
      {task : Values → β → Suspending (υ × Tally) (Except Cause Values)} {label : Option String}
      (setUps : ∀ args, Uses c (.program (setUp args)))
      (tasks : ∀ args b, Uses c (.program (task args b))) :
      Uses c (.step ⟨.future fun args => (setUp args).bind fun b => .done (task args b), label⟩)
  | done {m : Mode} {α : Type} (value : α) :
      Uses c (.program (.done value : Program m (υ × Tally) α))
  | panic {m : Mode} {α : Type} (payload : Panic) :
      Uses c (.program (.panic payload : Program m (υ × Tally) α))
  | exhausted {m : Mode} {α : Type} (may : m = .suspending) :
      Uses c (.program (.exhausted may : Program m (υ × Tally) α))
  | user {m : Mode} {α : Type} {update : υ × Tally → υ × Tally}
      {next : υ × Tally → Program m (υ × Tally) α} (spares : ∀ v, c.Spared v (update v))
      (rest : ∀ v, Uses c (.program (next v))) :
      Uses c (.program (.user update next))
  | request {m : Mode} {α : Type} {spans : List Span} {r : Request}
      {next : r.Reply → Program m (υ × Tally) α} (rest : ∀ x, Uses c (.program (next x))) :
      Uses c (.program (.request spans r next))
  | pause {m : Mode} {α : Type} {may : m = .suspending} {onDrop : List Handle}
      {next : Unit → Program m (υ × Tally) α} (rest : Uses c (.program (next ()))) :
      Uses c (.program (.pause may onDrop next))
  | await {m : Mode} {α : Type} {may : m = .suspending} {onDrop : List Handle} {h : Handle}
      {next : Settlement → Program m (υ × Tally) α} (rest : ∀ s, Uses c (.program (next s))) :
      Uses c (.program (.await may onDrop h next))
  | bind {m : Mode} {α β : Type} {p : Program m (υ × Tally) α}
      {f : α → Program m (υ × Tally) β} (first : Uses c (.program p))
      (rest : ∀ a, Uses c (.program (f a))) :
      Uses c (.program (p.bind f))
  | caught {m : Mode} {α : Type} {p : Program m (υ × Tally) α} (uses : Uses c (.program p)) :
      Uses c (.program p.caught)
  | relax {m : Mode} {α : Type} {p : Direct (υ × Tally) α} (uses : Uses c (.program p)) :
      Uses c (.program (p.relax : Program m (υ × Tally) α))
  | invoke {step : Step (υ × Tally)} (uses : Uses c (.step step)) (args : Values)
      (config : Config) : Uses c (.program (step.invoke args config))
  /-- A call whose task, if one comes back, is awaited. -/
  | callAwaiting {α : Type} {step : Step (υ × Tally)} {without : Suspending (υ × Tally) α}
      {next : Except FlowError Settlement → Suspending (υ × Tally) α} (uses : Uses c (.step step))
      (args : Values) (done : Handle) (config awaiting : Config)
      (alone : Uses c (.program without)) (rest : ∀ r, Uses c (.program (next r))) :
      Uses c (.program ((step.call args done config).relax.bind fun
        | none => without
        | some task => (awaiting.guarded task).bind next))
  /-- A call whose task, if one comes back, is dropped at once. -/
  | callForgetting {m : Mode} {α : Type} {step : Step (υ × Tally)}
      {next : Bool → Program m (υ × Tally) α} (uses : Uses c (.step step)) (args : Values)
      (done : Handle) (config : Config) (rest : ∀ b, Uses c (.program (next b))) :
      Uses c (.program ((step.call args done config).relax.bind fun task? => next task?.isSome))
  /-- A run of a flow inside, which starts from the given results. -/
  | exec {flow : Flow (υ × Tally)} (steps : ∀ step ∈ flow.sequence.steps, Uses c (.step step))
      (resolvers : ∀ resolver ∈ flow.resolvers, ∀ completion,
        Uses c (.program (resolver completion)))
      (limit : Nat) (results : ResultSet) :
      Uses c (.program ((flow.exec limit).withLocal results))

namespace Counter

variable {c : Counter υ}

end Counter

/-- The terms that code uses the counter, and that the outside world does not touch it. -/
def Counter.terms (c : Counter υ) : Terms (υ × Tally) where
  step step := c.Uses (.step step)
  resolver resolver := ∀ completion, c.Uses (.program (resolver completion))
  act f := ∀ st, c.Spared st.user (f st).user

/-! ## The regime of a counter -/

namespace Counter

/-- While no body has control, the count is right. -/
def regime (c : Counter υ) : Regime (υ × Tally) where
  idle v := v.2.inside = false ∧ c.count v.1 = v.2.ended
  always v := v.2.inside = false → c.count v.1 = v.2.ended
  always_of_idle _ idle _ := idle.2

variable {c : Counter υ}

theorem idle_finish {v : υ × Tally} (idle : c.regime.idle v) :
    c.regime.idle (c.bump v.1, v.2.enter.finish) :=
  ⟨rfl, (c.count_bump v.1).trans (congrArg Nat.succ idle.2)⟩

theorem Spared.idle {before after : υ × Tally} (spared : c.Spared before after)
    (idle : c.regime.idle before) : c.regime.idle after := by
  obtain ⟨hcount, htally⟩ := spared
  refine ⟨?_, ?_⟩
  · rw [htally]
    exact idle.1
  · rw [htally, hcount]
    exact idle.2

theorem HandsOut.keepsTo {step : Step υ} (handsOut : c.HandsOut step) :
    step.watched.KeepsTo c.regime := by
  -- Between the bump and the end of the body the count is one ahead.
  have hcounting {m : Mode} (r : Except Cause Values) :
      (Program.watched (.user c.bump fun _ => .done r) :
        Program m (υ × Tally) (Except Cause Values)).KeepsTo c.regime fun _ => True :=
    fun v idle => ⟨fun _ => idle.2, nofun, nofun, idle_finish idle, trivial⟩
  induction handsOut with
  | sync => exact fun args => hcounting (.ok .empty)
  | callback =>
      exact fun args done v idle =>
        ⟨fun _ => idle.2, nofun, nofun, fun _ => ⟨nofun, idle_finish idle, trivial⟩⟩
  | future =>
      -- At the pause nothing is counted yet, and the body lets control go.
      have htask : (Program.watched (.pause rfl [] fun _ => .user c.bump fun _ =>
          .done (.ok .empty)) : Suspending (υ × Tally) (Except Cause Values)).KeepsTo c.regime
            fun _ => True :=
        fun v idle => ⟨fun _ => idle.2, nofun, ⟨rfl, idle.2⟩, hcounting (.ok .empty)⟩
      exact fun args v idle => ⟨idle, htask⟩
  | returning output => exact fun args => hcounting (.ok output)
  | withLabel _ label ih => exact ih

end Counter

def Code.KeepsTo (R : Regime υ) : Code υ → Prop
  | .program p => p.KeepsTo R fun _ => True
  | .step taken => taken.KeepsTo R

/-- Code that uses the counter keeps to its regime. -/
theorem Counter.Uses.keepsTo {c : Counter υ} {code : Code (υ × Tally)} (uses : c.Uses code) :
    code.KeepsTo c.regime := by
  induction uses with
  | taken handsOut => exact handsOut.keepsTo
  | sync _ ih => exact ih
  | callback _ ih => exact ih
  | future _ _ setUps tasks =>
      exact fun args => (setUps args).bind fun b _ => Program.keepsTo_done (tasks args b)
  | done value => exact Program.keepsTo_done trivial
  | panic payload => exact fun v idle => idle
  | exhausted may => exact fun v idle => idle
  | user spares _ ih => exact fun v idle => ⟨fun _ => idle.2, ih v _ ((spares v).idle idle)⟩
  | request _ ih => exact fun v idle => ⟨fun _ => idle.2, fun x => ih x v idle⟩
  | pause _ ih => exact fun v idle => ⟨idle, ih⟩
  | await _ ih => exact fun v idle => ⟨idle, ih⟩
  | bind _ _ first rest => exact Program.KeepsTo.bind first fun a _ => rest a
  | @caught _ _ p _ ih =>
      intro v idle
      rw [← Program.bind_done p.caught]
      exact (ih v idle).caught.bind fun _ _ => Program.keepsTo_done trivial
  | relax _ ih => exact fun v idle => (ih v idle).relax
  | invoke _ args config ih => exact ih.invoke args config
  | callAwaiting _ args done config awaiting _ _ ih alone rest =>
      refine fun v idle => (ih.call args done config v idle).relax.bind fun task? htask => ?_
      cases task? with
      | none => exact alone
      | some task =>
          exact (awaiting.keepsTo_guarded (htask task rfl)).bind fun r _ => rest r
  | callForgetting _ args done config _ ih rest =>
      exact fun v idle => (ih.call args done config v idle).relax.bind fun task? _ => rest _
  | exec _ _ limit results steps resolvers =>
      have hmeets : Flow.Meets c.regime.terms _ := ⟨steps, resolvers⟩
      exact fun v idle => (hmeets.exec limit (v, results) idle).withLocal

/-! ## The count over a history -/

namespace Counter

variable {c : Counter υ}

end Counter

/-! ## Named counters -/

namespace Script

theorem lookup?_cons {α : Type} (key name : String) (value : α) (rest : List (String × α)) :
    lookup? ((key, value) :: rest) name = if key = name then some value else lookup? rest name := by
  unfold lookup?
  by_cases hname : key = name <;> simp [hname]

theorem lookup?_assign {α : Type} (key name : String) (value : α) (entries : List (String × α)) :
    lookup? (assign key value entries) name =
      if key = name then some value else lookup? entries name := by
  induction entries with
  | nil => exact lookup?_cons key name value []
  | cons entry rest ih =>
      obtain ⟨k, v⟩ := entry
      unfold assign
      by_cases hkey : k = key
      · rw [if_pos hkey, lookup?_cons, lookup?_cons, hkey]
        split <;> rfl
      · rw [if_neg hkey, lookup?_cons, lookup?_cons, ih]
        by_cases hname : k = name
        · rw [if_pos hname, if_pos hname, if_neg fun h => hkey (hname.trans h.symm)]
        · rw [if_neg hname, if_neg hname]

namespace Memory

/-- The counter of a name. -/
def counter (name : String) : Counter Memory where
  count memory := memory.count name
  bump := bump name
  count_bump memory := by
    simp only [count, bump, lookup?_assign, if_true, Option.getD_some]

end Memory

end Script

section

open Script

end

end Stepwise
