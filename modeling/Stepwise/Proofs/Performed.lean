import Stepwise.Proofs.Turns
import Stepwise.Proofs.Untraced
/-!
# What invocations come to

An invocation that comes to an end has an output or a fault: an error, or a panic that nothing
caught.  A call of a part of the engine makes its invocations one after the other, each where the
one before ended, and comes to an end exactly if they do.  The actions of a slot are performed in
order, each on the output of the one before, until one has a fault.
-/

namespace Stepwise

variable {υ α β : Type}

/-- What ends a call that has no value. -/
inductive Fault where
  | error (e : FlowError)
  | panic (payload : Panic)

/-- What a call came to, if it came to an end. -/
def Halt.outcome? : Halt υ (Except FlowError α) → Option (Except Fault α)
  | ended _ (.ok value) _ => some (.ok value)
  | ended _ (.error e) _ => some (.error (.error e))
  | unwound _ payload => some (.error (.panic payload))
  | pending _ _ => none
  | exhausted _ => none

/-- A function of values alone changes nothing else about an outcome. -/
theorem Halt.outcome?_map (f : α → β) (halt : Halt υ (Except FlowError α)) :
    (halt.map (·.map f)).outcome? = halt.outcome?.map (·.map f) := by
  rcases halt with ⟨st, _ | value, left⟩ | _ | _ | _ <;> rfl

/-- Nothing follows a call that stops, where errors are passed on. -/
theorem Account.andThen_stops {a : Account υ (Except FlowError α)}
    {f : Except FlowError α → List (Act υ) → Store υ → ResultSet → Account υ (Except FlowError β)}
    {fault : Option Fault} (stops : a.halt.outcome? = fault.map .error)
    (passes : ∀ e left st, f (.error e) left st a.results =
      ⟨[], a.results, .ended st (.error e) left⟩) :
    (a.andThen f).entries = a.entries ∧ (a.andThen f).halt.outcome? = fault.map .error := by
  obtain ⟨entries, results, halt⟩ := a
  rcases halt with ⟨st, e | value, left⟩ | ⟨st, payload⟩ | ⟨st, onDrop⟩ | st <;>
    cases fault <;> cases stops
  · simp [andThen, passes, Halt.outcome?]
  · exact ⟨rfl, rfl⟩
  · exact ⟨rfl, rfl⟩
  · exact ⟨rfl, rfl⟩

theorem Halt.ended_of_outcome? {halt : Halt υ (Except FlowError α)} {value : α}
    (hok : halt.outcome? = some (.ok value)) : ∃ st left, halt = .ended st (.ok value) left := by
  rcases halt with ⟨st, _ | value', left⟩ | _ | _ | _ <;> cases hok
  exact ⟨st, left, rfl⟩

/-- A call that has no value stops: it has a fault, or has not come to an end. -/
theorem Fault.value_or_stop (outcome : Option (Except Fault α)) :
    (∃ value, outcome = some (.ok value)) ∨ ∃ fault : Option Fault, outcome = fault.map .error := by
  rcases outcome with _ | fault | value
  · exact .inr ⟨none, rfl⟩
  · exact .inr ⟨some fault, rfl⟩
  · exact .inl ⟨value, rfl⟩

theorem Halt.has_value_or_stops (halt : Halt υ (Except FlowError α)) :
    (∃ st value left, halt = .ended st (.ok value) left) ∨
      ∃ fault : Option Fault, halt.outcome? = fault.map .error := by
  refine (Fault.value_or_stop halt.outcome?).imp_left fun ⟨value, hok⟩ => ?_
  obtain ⟨st, left, hended⟩ := ended_of_outcome? hok
  exact ⟨st, value, left, hended⟩

namespace Entry

variable (config : Config) (e : Entry υ)

/-- What the invocation came to, if it came to an end. -/
def outcome? : Option (Except Fault Values) := (e.course config).halt.outcome?

/-- It came to no output: it has a fault, or has not come to an end. -/
def Stops (fault : Option Fault) : Prop := e.outcome? config = fault.map .error

/-- It came to an output with this verdict. -/
def Judges (verdict : Bool) : Prop :=
  ∃ output, e.outcome? config = some (.ok output) ∧ output.isTruthy = verdict

end Entry

theorem Entry.Stops.outcome_eq_none {config : Config} {e : Entry υ} {fault : Option Fault}
    (stops : e.Stops config fault) : e.outcome? config = none ↔ fault = none := by
  rw [Stops] at stops
  rw [stops, Option.map_eq_none_iff]

theorem Entry.Judges.outcome_ne_none {config : Config} {e : Entry υ} {verdict : Bool}
    (judges : e.Judges config verdict) : e.outcome? config ≠ none := by
  obtain ⟨output, houtput, -⟩ := judges
  rw [houtput]
  exact Option.some_ne_none _

theorem Entry.judges_of_course {config : Config} {e : Entry υ} {mid : Store υ} {verdict : Values}
    {left : List (Act υ)} (ended : e.course config = .ended mid (.ok verdict) left) :
    e.Judges config verdict.isTruthy := by
  refine ⟨verdict, ?_, rfl⟩
  rw [outcome?, ended]
  rfl

/-- The invocation of a predicate. -/
def Slot.check (slot : Slot υ) : Invocation υ := ⟨slot.predicate, .empty⟩

/-! ## One invocation after the other -/

/-- The invocations are made one after the other, the first one at the given moment, and the next one
at the moment at which the one before came to a settlement; at the last of these moments it halts.
Nothing but the trace changes between them. -/
def Halt.Follows (config : Config) (halt : Halt υ α) :
    List (Entry υ) → List (Act υ) → Store υ → Prop
  | [], acts, st =>
      match halt with
      | ended last _ left => last.untraced = st.untraced ∧ left = acts
      | exhausted last => last.untraced = st.untraced
      | _ => False
  | e :: rest, acts, st => e.acts = acts ∧ e.store.untraced = st.untraced ∧
      match e.course config with
      | .ended mid _ left => halt.Follows config rest left mid
      | .unwound mid payload => rest = [] ∧ halt = .unwound mid payload
      | .pending mid part => rest = [] ∧ halt = .pending mid part.onDrop
      | .exhausted mid => rest = [] ∧ halt = .exhausted mid

theorem Halt.Follows.of_untraced {config : Config} {halt : Halt υ α} {entries : List (Entry υ)}
    {acts : List (Act υ)} {st st' : Store υ} (follows : halt.Follows config entries acts st)
    (hst : st.untraced = st'.untraced) : halt.Follows config entries acts st' := by
  cases entries with
  | nil =>
      cases halt with
      | ended last value left => exact ⟨follows.1.trans hst, follows.2⟩
      | exhausted last => exact follows.trans hst
      | unwound last payload => exact follows
      | pending last onDrop => exact follows
  | cons e rest => exact ⟨follows.1, follows.2.1.trans hst, follows.2.2⟩

/-- Whatever a plan is, its invocations are made one after the other. -/
theorem Plan.account_follows (config : Config) (p : Plan υ α) (acts : List (Act υ)) (st : Store υ)
    (r : ResultSet) :
    let a := p.account config acts st r
    a.halt.Follows config a.entries acts st := by
  induction p generalizing acts st r with
  | done value => exact ⟨rfl, rfl⟩
  | exhausted => exact rfl
  | report spans notice next ih => exact (ih acts (st.report spans notice) r).of_untraced rfl
  | results update next ih => exact ih r acts st (update r)
  | invoke spans step args next ih =>
      simp only [account, Account.ofEntry, Account.andThen]
      cases hcourse : Entry.course config ⟨⟨step, args⟩, spans, acts, st⟩ with
      | ended mid s left =>
          simp only [Course.halt, List.singleton_append, Halt.Follows, hcourse]
          exact ⟨trivial, trivial, ih s left mid r⟩
      | unwound mid payload => simp only [Course.halt, Halt.Follows, hcourse, and_self]
      | pending mid part => simp only [Course.halt, Halt.Follows, hcourse, and_self]
      | exhausted mid => simp only [Course.halt, Halt.Follows, hcourse, and_self]

/-! ## Actions -/

/-- Actions that were performed on what was carried in, with these invocations and this outcome. -/
inductive Performed (config : Config) :
    List (Step υ) → Values → List (Entry υ) → Option (Except Fault Values) → Prop
  /-- The output of the last action is that of all of them. -/
  | finished {carried : Values} : Performed config [] carried [] (some (.ok carried))
  /-- No action follows one that stops. -/
  | stopped {action : Step υ} {rest : List (Step υ)} {carried : Values} {e : Entry υ}
      {fault : Option Fault} (step : e.toInvocation = ⟨action, carried⟩)
      (stops : e.Stops config fault) :
      Performed config (action :: rest) carried [e] (fault.map .error)
  /-- The next action is performed on the whole output. -/
  | next {action : Step υ} {rest : List (Step υ)} {carried output : Values} {e : Entry υ}
      {entries : List (Entry υ)} {outcome : Option (Except Fault Values)}
      (step : e.toInvocation = ⟨action, carried⟩) (succeeds : e.outcome? config = some (.ok output))
      (others : Performed config rest output entries outcome) :
      Performed config (action :: rest) carried (e :: entries) outcome

/-- The actions are performed in order, and all of them if they come to an output. -/
theorem Performed.steps {config : Config} {actions : List (Step υ)} {carried : Values}
    {entries : List (Entry υ)} {outcome : Option (Except Fault Values)}
    (performed : Performed config actions carried entries outcome) :
    entries.map (·.step) <+: actions ∧
      ∀ output, outcome = some (.ok output) → entries.map (·.step) = actions := by
  induction performed with
  | finished => exact ⟨List.prefix_rfl, fun _ _ => rfl⟩
  | @stopped _ _ _ _ fault step stops =>
      rw [List.map_singleton, step]
      refine ⟨⟨_, rfl⟩, fun output hok => ?_⟩
      cases fault <;> cases hok
  | next step succeeds others ih =>
      rw [List.map_cons, step]
      exact ⟨(List.prefix_cons_inj _).2 ih.1, fun output hok => congrArg _ (ih.2 output hok)⟩

/-- Actions that come to an output have one each. -/
theorem Performed.succeeds {config : Config} {actions : List (Step υ)} {carried output : Values}
    {entries : List (Entry υ)}
    (performed : Performed config actions carried entries (some (.ok output))) :
    ∀ e ∈ entries, ∃ output, e.outcome? config = some (.ok output) := by
  generalize houtcome : some (Except.ok output) = outcome at performed
  induction performed with
  | finished => exact List.forall_mem_nil _
  | @stopped _ _ _ _ fault step stops => cases fault <;> cases houtcome
  | next step succeeds others ih => exact List.forall_mem_cons.2 ⟨⟨_, succeeds⟩, ih houtcome⟩

/-- Actions that stop do so with the last invocation. -/
theorem Performed.stops {config : Config} {actions : List (Step υ)} {carried : Values}
    {entries : List (Entry υ)} {fault : Option Fault}
    (performed : Performed config actions carried entries (fault.map .error)) :
    ∃ (before : List (Entry υ)) (last : Entry υ), entries = before ++ [last] ∧
      last.Stops config fault ∧
      ∀ e ∈ before, ∃ output, e.outcome? config = some (.ok output) := by
  generalize houtcome : fault.map Except.error = outcome at performed
  induction performed with
  | finished => cases fault <;> cases houtcome
  | @stopped _ _ _ last fault' step stops =>
      have hfault : fault = fault' := by cases fault <;> cases fault' <;> cases houtcome <;> rfl
      exact ⟨[], last, rfl, hfault ▸ stops, List.forall_mem_nil _⟩
  | next step succeeds others ih =>
      obtain ⟨before, last, rfl, hlast, hbefore⟩ := ih houtcome
      exact ⟨_ :: before, last, rfl, hlast, List.forall_mem_cons.2 ⟨⟨_, succeeds⟩, hbefore⟩⟩

/-- Actions come to an end if all of their invocations do. -/
theorem Performed.outcome_eq_none {config : Config} {actions : List (Step υ)} {carried : Values}
    {entries : List (Entry υ)} {outcome : Option (Except Fault Values)}
    (performed : Performed config actions carried entries outcome) :
    outcome = none ↔ ∃ e ∈ entries, e.outcome? config = none := by
  induction performed with
  | finished => simp
  | stopped step stops => simp [stops.outcome_eq_none]
  | next step succeeds others ih => simp [ih, succeeds]

theorem performed_actionsPlan (config : Config) (position : Nat) (actions : List (Step υ))
    (carried : Values) (spans : List Span) (acts : List (Act υ)) (st : Store υ) (r : ResultSet) :
    let a := ((actionsPlan position actions carried).under spans).account config acts st r
    Performed config actions carried a.entries a.halt.outcome? := by
  induction actions generalizing position carried acts st with
  | nil => exact .finished
  | cons action rest ih =>
      intro a
      obtain ⟨e, next, ha, hstep, hok, herror⟩ : ∃ (e : Entry υ) (next : _),
          a = (Account.ofEntry config e r).andThen next ∧ e.toInvocation = ⟨action, carried⟩ ∧
            (∀ output left st, next (.ok output) left st r =
              ((actionsPlan (position + 1) rest output).under spans).account config left st r) ∧
            ∀ error left st, next (.error error) left st r =
              ⟨[], r, .ended st (.error error) left⟩ :=
        ⟨_, _, rfl, rfl, fun _ _ _ => rfl, fun _ _ _ => rfl⟩
      rw [ha]
      rcases (e.course config).halt.has_value_or_stops with
        ⟨mid, output, left, hhalt⟩ | ⟨fault, hstops⟩
      · simp only [Account.ofEntry, Account.andThen, hhalt, hok]
        exact .next hstep (congrArg Halt.outcome? hhalt) (ih (position + 1) output left mid)
      · have hstop : (Account.ofEntry config e r).halt.outcome? = fault.map .error := hstops
        obtain ⟨hentries, houtcome⟩ := Account.andThen_stops hstop herror
        rw [hentries, houtcome]
        exact .stopped hstep hstops

/-- Without actions nothing is carried on: the output is empty. -/
theorem performed_slotPlan (config : Config) (actions : List (Step υ)) (spans : List Span)
    (acts : List (Act υ)) (st : Store υ) (r : ResultSet) :
    let a := ((slotPlan actions .empty).under spans).account config acts st r
    Performed config actions .empty a.entries a.halt.outcome? := by
  cases actions with
  | nil => exact .finished
  | cons action rest => exact performed_actionsPlan config 0 (action :: rest) .empty spans acts st r

/-! ## Turns -/

/-- How a turn at a slot goes. -/
inductive Turn.Taken (config : Config) (slot : Slot υ) (t : Turn υ) : Prop
  /-- The predicate stops, and nothing follows. -/
  | stopped {fault : Option Fault} (step : t.check.toInvocation = slot.check)
      (stops : t.check.Stops config fault) (nothing : t.actions = [])
      (outcome : t.halt.outcome? = fault.map .error)
  /-- The predicate does not hold, and nothing follows. -/
  | unmatched {mid : Store υ} {verdict : Values} {left : List (Act υ)}
      (step : t.check.toInvocation = slot.check)
      (ended : t.check.course config = .ended mid (.ok verdict) left)
      (falsy : verdict.isTruthy = false) (nothing : t.actions = [])
      (halt : t.halt = .ended mid (.ok none) left)
  /-- The predicate holds, and the actions follow. -/
  | matched {outcome : Option (Except Fault Values)} (step : t.check.toInvocation = slot.check)
      (truthy : t.check.Judges config true)
      (performed : Performed config slot.actions .empty t.actions outcome)
      (outcome : t.halt.outcome? = outcome.map (·.map some))

namespace Slot

variable (config : Config) (notices : List Notice) (branch : Nat) (spans : List Span)
  (slot : Slot υ) (acts : List (Act υ)) (st : Store υ)

theorem turn_of_truthy {mid : Store υ} {verdict : Values} {left : List (Act υ)}
    (ended : Entry.course config ⟨slot.check, spans, acts, st⟩ = .ended mid (.ok verdict) left)
    (truthy : verdict.isTruthy = true) :
    let pass := slot.pass config spans left (notices.foldl (·.report spans) mid)
    slot.turn config notices branch spans acts st =
      ⟨branch, ⟨slot.check, spans, acts, st⟩, pass.entries, pass.halt.map (·.map some)⟩ := by
  have hcourse : Entry.course config ⟨⟨slot.predicate, .empty⟩, spans, acts, st⟩ =
      .ended mid (.ok verdict) left := ended
  rw [turn_eq]
  simp only [hcourse, if_pos truthy]
  rfl

theorem turn_of_falsy {mid : Store υ} {verdict : Values} {left : List (Act υ)}
    (ended : Entry.course config ⟨slot.check, spans, acts, st⟩ = .ended mid (.ok verdict) left)
    (falsy : verdict.isTruthy = false) : slot.turn config notices branch spans acts st =
      ⟨branch, ⟨slot.check, spans, acts, st⟩, [], .ended mid (.ok none) left⟩ := by
  have hcourse : Entry.course config ⟨⟨slot.predicate, .empty⟩, spans, acts, st⟩ =
      .ended mid (.ok verdict) left := ended
  rw [turn_eq]
  simp only [hcourse, falsy, Bool.false_eq_true, if_false]
  rfl

theorem turn_of_stops {fault : Option Fault}
    (stops : Entry.Stops config ⟨slot.check, spans, acts, st⟩ fault) :
    (slot.turn config notices branch spans acts st).actions = [] ∧
      (slot.turn config notices branch spans acts st).halt.outcome? = fault.map .error := by
  have hstops : (Entry.course config
      ⟨⟨slot.predicate, .empty⟩, spans, acts, st⟩).halt.outcome? = fault.map .error := stops
  rw [turn_eq]
  dsimp only
  generalize Entry.course config ⟨⟨slot.predicate, .empty⟩, spans, acts, st⟩ = course at hstops ⊢
  rcases course with
    ⟨mid, e | verdict, left⟩ | ⟨mid, payload⟩ | ⟨mid, part⟩ | mid <;>
      cases fault <;> cases hstops <;> exact ⟨rfl, rfl⟩

theorem taken_turn : (slot.turn config notices branch spans acts st).Taken config slot := by
  rcases (Entry.course config ⟨slot.check, spans, acts, st⟩).halt.has_value_or_stops with
    ⟨mid, verdict, left, hhalt⟩ | ⟨fault, hstops⟩
  · have ended := Course.ended_of_halt hhalt
    cases hverdict : verdict.isTruthy with
    | true =>
        rw [turn_of_truthy config notices branch spans slot acts st ended hverdict]
        exact .matched rfl ⟨verdict, congrArg Halt.outcome? hhalt, hverdict⟩
          (performed_slotPlan config ..) (Halt.outcome?_map some _)
    | false =>
        rw [turn_of_falsy config notices branch spans slot acts st ended hverdict]
        exact .unmatched rfl ended hverdict rfl rfl
  · obtain ⟨nothing, houtcome⟩ := turn_of_stops config notices branch spans slot acts st hstops
    exact .stopped rfl hstops nothing houtcome

end Slot

end Stepwise
