import Stepwise.Proofs.Performed
import Stepwise.Proofs.Tasks
/-!
# Which slot is dispatched

An evaluation asks the predicates of the slots one after the other, until one holds or has a fault.
Then it performs the actions of the slot whose predicate holds, and nothing else.
-/

namespace Stepwise

variable {υ : Type}

/-- How slots were evaluated: the invocations that were made, and what they came to. -/
inductive Dispatched (config : Config) (slots : List (Slot υ)) (entries : List (Entry υ)) :
    Option (Except Fault (Option Values)) → Prop
  /-- All predicates were asked, and none of them holds. -/
  | unmatched (checks : entries.map (·.toInvocation) = slots.map Slot.check)
      (falsy : ∀ e ∈ entries, e.Judges config false) :
      Dispatched config slots entries (some (.ok none))
  /-- The predicate of a slot stops, and those of the slots before do not hold. -/
  | stopped {firsts rest : List (Slot υ)} {slot : Slot υ} {before : List (Entry υ)} {check : Entry υ}
      {fault : Option Fault} (split : slots = firsts ++ slot :: rest)
      (made : entries = before ++ [check])
      (checks : before.map (·.toInvocation) = firsts.map Slot.check)
      (falsy : ∀ e ∈ before, e.Judges config false) (step : check.toInvocation = slot.check)
      (stops : check.Stops config fault) :
      Dispatched config slots entries (fault.map .error)
  /-- The predicate of a slot holds, and those of the slots before do not. -/
  | matched {firsts rest : List (Slot υ)} {slot : Slot υ} {before actions : List (Entry υ)}
      {check : Entry υ} {outcome : Option (Except Fault Values)}
      (split : slots = firsts ++ slot :: rest) (made : entries = before ++ check :: actions)
      (checks : before.map (·.toInvocation) = firsts.map Slot.check)
      (falsy : ∀ e ∈ before, e.Judges config false) (step : check.toInvocation = slot.check)
      (truthy : check.Judges config true)
      (performed : Performed config slot.actions .empty actions outcome) :
      Dispatched config slots entries (outcome.map (·.map some))

namespace Dispatched

variable {config : Config} {slots : List (Slot υ)} {entries : List (Entry υ)}
  {outcome : Option (Except Fault (Option Values))}

/-- A slot whose predicate does not hold may come first. -/
theorem cons (dispatched : Dispatched config slots entries outcome) {slot : Slot υ}
    {check : Entry υ} (step : check.toInvocation = slot.check) (falsy : check.Judges config false) :
    Dispatched config (slot :: slots) (check :: entries) outcome := by
  cases dispatched with
  | unmatched checks others =>
      refine .unmatched ?_ (List.forall_mem_cons.2 ⟨falsy, others⟩)
      rw [List.map_cons, List.map_cons, step, checks]
  | @stopped firsts rest last before final fault split made checks others hfinal stops =>
      have hsplit : slot :: slots = (slot :: firsts) ++ last :: rest := by rw [split]; rfl
      have hmade : check :: entries = (check :: before) ++ [final] := by rw [made]; rfl
      refine .stopped hsplit hmade ?_ (List.forall_mem_cons.2 ⟨falsy, others⟩) hfinal stops
      rw [List.map_cons, List.map_cons, step, checks]
  | @matched firsts rest last before actions final outcome split made checks others hfinal truthy
      performed =>
      have hsplit : slot :: slots = (slot :: firsts) ++ last :: rest := by rw [split]; rfl
      have hmade : check :: entries = (check :: before) ++ final :: actions := by rw [made]; rfl
      refine .matched hsplit hmade ?_ (List.forall_mem_cons.2 ⟨falsy, others⟩) hfinal truthy
        performed
      rw [List.map_cons, List.map_cons, step, checks]

/-- An evaluation comes to an end if all of its invocations do. -/
theorem outcome_eq_none (dispatched : Dispatched config slots entries outcome) :
    outcome = none ↔ ∃ e ∈ entries, e.outcome? config = none := by
  cases dispatched with
  | unmatched checks falsy =>
      refine ⟨fun hnone => (Option.some_ne_none _ hnone).elim, ?_⟩
      rintro ⟨e, he, hnone⟩
      exact ((falsy e he).outcome_ne_none hnone).elim
  | @stopped firsts rest slot before check fault split made checks falsy step stops =>
      have hbefore : ¬∃ e ∈ before, e.outcome? config = none := by
        rintro ⟨e, he, hnone⟩
        exact (falsy e he).outcome_ne_none hnone
      simp [made, or_and_right, exists_or, hbefore, stops.outcome_eq_none]
  | @matched firsts rest slot before actions check outcome split made checks falsy step truthy
      performed =>
      have hbefore : ¬∃ e ∈ before, e.outcome? config = none := by
        rintro ⟨e, he, hnone⟩
        exact (falsy e he).outcome_ne_none hnone
      simp [made, or_and_right, exists_or, hbefore, truthy.outcome_ne_none,
        performed.outcome_eq_none]

/-- It comes to nothing exactly if all predicates were asked and none of them holds. -/
theorem outcome_eq_ok_none (dispatched : Dispatched config slots entries outcome) :
    outcome = some (.ok none) ↔ entries.map (·.toInvocation) = slots.map Slot.check ∧
      ∀ e ∈ entries, e.Judges config false := by
  cases dispatched with
  | unmatched checks falsy => exact ⟨fun _ => ⟨checks, falsy⟩, fun _ => rfl⟩
  | @stopped firsts rest slot before check fault split made checks falsy step stops =>
      constructor
      · cases fault <;> exact fun h => nomatch h
      · rintro ⟨-, hall⟩
        obtain ⟨output, houtput, -⟩ := hall check (by simp [made])
        rw [stops] at houtput
        cases fault <;> cases houtput
  | @matched firsts rest slot before actions check outcome split made checks falsy step truthy
      performed =>
      constructor
      · rcases outcome with _ | _ | output <;> exact fun h => nomatch h
      · rintro ⟨-, hall⟩
        obtain ⟨output, houtput, hverdict⟩ := truthy
        obtain ⟨output', houtput', hverdict'⟩ := hall check (by simp [made])
        rw [houtput] at houtput'
        cases houtput'
        rw [hverdict] at hverdict'
        cases hverdict'

end Dispatched

/-- A plain function that returns at once comes to what it returns, whatever the configuration. -/
theorem Entry.outcome?_of_return {e : Entry υ} {body : Values → Direct υ (Except Cause Values)}
    (hstep : e.step.invoker = .sync body) {output : Values}
    (hbody : body e.args = .done (.ok output)) (config : Config) :
    e.outcome? config = some (.ok output) := by
  have hheld : e.store.openChannel.2.channel? e.store.openChannel.1 = some ⟨.held, true⟩ := by
    rw [Store.channel?_openChannel, if_pos rfl]
  have hrun : ((body e.args).under e.spans).run e.store.openChannel.2 =
      (.ok (.ok output), e.store.openChannel.2) := by
    rw [hbody]
    rfl
  rw [outcome?, course_of_sync hstep hrun hheld]
  rfl

theorem Entry.judges_always {e : Entry υ} (hstep : e.step = .always) (config : Config) :
    e.Judges config true := by
  have hinvoker : e.step.invoker = Step.always.invoker := congrArg Step.invoker hstep
  exact ⟨_, outcome?_of_return hinvoker rfl config, rfl⟩

theorem Entry.outcome?_constant {e : Entry υ} {values : Values} (hstep : e.step = .constant values)
    (config : Config) : e.outcome? config = some (.ok values) := by
  have hinvoker : e.step.invoker = (Step.constant values).invoker := congrArg Step.invoker hstep
  exact outcome?_of_return hinvoker rfl config

theorem Entry.Judges.unique {config : Config} {e : Entry υ} {verdict verdict' : Bool}
    (judges : e.Judges config verdict) (judges' : e.Judges config verdict') :
    verdict = verdict' := by
  obtain ⟨output, houtput, rfl⟩ := judges
  obtain ⟨output', houtput', rfl⟩ := judges'
  rw [houtput] at houtput'
  cases houtput'
  rfl

theorem Entry.Judges.not_stops {config : Config} {e : Entry υ} {verdict : Bool}
    {fault : Option Fault} (judges : e.Judges config verdict) : ¬e.Stops config fault := by
  intro stops
  obtain ⟨output, houtput, -⟩ := judges
  rw [stops] at houtput
  cases fault <;> cases houtput

/-! ## The slot that is selected -/

/-- All of the slots were asked, and the predicates of none of them hold. -/
def Denied (config : Config) (slots : List (Slot υ)) (entries : List (Entry υ)) : Prop :=
  entries.map (·.toInvocation) = slots.map Slot.check ∧ ∀ e ∈ entries, e.Judges config false

theorem Denied.length_eq {config : Config} {slots : List (Slot υ)} {entries : List (Entry υ)}
    (denied : Denied config slots entries) : entries.length = slots.length := by
  have hlength := congrArg List.length denied.1
  rwa [List.length_map, List.length_map] at hlength

/-- The slot with this number was the one whose actions were performed, with this outcome: those
before it were asked in vain, and once its own predicate held, only the actions were invoked. -/
structure Selected (config : Config) (slots : List (Slot υ)) (branch : Nat)
    (entries : List (Entry υ)) (outcome : Option (Except Fault Values)) : Prop where
  made : ∃ slot before check actions, slots[branch]? = some slot ∧
    entries = before ++ check :: actions ∧ Denied config (slots.take branch) before ∧
      check.toInvocation = slot.check ∧ check.Judges config true ∧
        Performed config slot.actions .empty actions outcome

namespace Selected

variable {config : Config} {slots : List (Slot υ)} {branch branch' : Nat}
  {entries : List (Entry υ)} {outcome outcome' : Option (Except Fault Values)}

/-- The first predicate that holds was asked at the place of the slot. -/
theorem exists_check (selected : Selected config slots branch entries outcome) :
    ∃ check, entries[branch]? = some check ∧ check.Judges config true := by
  obtain ⟨slot, before, check, actions, hslot, rfl, denied, -, truthy, -⟩ := selected.made
  obtain ⟨hlt, -⟩ := List.getElem?_eq_some_iff.1 hslot
  have hlength : before.length = branch := by
    rw [denied.length_eq, List.length_take]
    omega
  refine ⟨check, ?_, truthy⟩
  rw [List.getElem?_append_right hlength.le, hlength, Nat.sub_self, List.getElem?_cons_zero]

/-- Slots that were asked in vain are before the one that was selected. -/
theorem length_le_of_denied (selected : Selected config slots branch entries outcome)
    {firsts : List (Slot υ)} {before : List (Entry υ)} (initial : before <+: entries)
    (denied : Denied config firsts before) : firsts.length ≤ branch := by
  obtain ⟨check, hcheck, truthy⟩ := selected.exists_check
  by_contra hlt
  rw [Nat.not_le, ← denied.length_eq] at hlt
  obtain ⟨rest, rfl⟩ := initial
  rw [List.getElem?_append_left hlt] at hcheck
  have falsy := denied.2 check (List.mem_of_getElem? hcheck)
  exact Bool.noConfusion (truthy.unique falsy)

theorem denied (selected : Selected config slots branch entries outcome) :
    ∃ before, before <+: entries ∧ Denied config (slots.take branch) before := by
  obtain ⟨slot, before, check, actions, -, rfl, denied, -⟩ := selected.made
  exact ⟨before, ⟨_, rfl⟩, denied⟩

theorem lt_length (selected : Selected config slots branch entries outcome) :
    branch < slots.length := by
  obtain ⟨slot, -, -, -, hslot, -⟩ := selected.made
  exact (List.getElem?_eq_some_iff.1 hslot).1

/-- No two slots are selected. -/
theorem unique (selected : Selected config slots branch entries outcome)
    (selected' : Selected config slots branch' entries outcome') : branch = branch' := by
  have hle {b b' : Nat} {o o' : Option (Except Fault Values)}
      (selected : Selected config slots b entries o)
      (selected' : Selected config slots b' entries o') : b ≤ b' := by
    obtain ⟨before, initial, denied⟩ := selected.denied
    have hlength := selected'.length_le_of_denied initial denied
    have hlt := selected.lt_length
    rw [List.length_take] at hlength
    omega
  exact Nat.le_antisymm (hle selected selected') (hle selected' selected)

end Selected

/-- Slots of which the last one always matches: the actions of one of them are performed, unless the
predicate of one of the others stops. -/
theorem Dispatched.selected_or_stopped {config : Config} {firsts : List (Slot υ)}
    {actions : List (Step υ)} {entries : List (Entry υ)}
    {outcome : Option (Except Fault (Option Values))}
    (dispatched : Dispatched config (firsts ++ [⟨.always, actions⟩]) entries outcome) :
    (∃ branch performed,
        Selected config (firsts ++ [⟨.always, actions⟩]) branch entries performed ∧
          outcome = performed.map (·.map some)) ∨
      ∃ (before : List (Entry υ)) (check : Entry υ) (fault : Option Fault),
        entries = before ++ [check] ∧ before.length < firsts.length ∧
        check.Stops config fault ∧ outcome = fault.map .error := by
  have hlast {e : Entry υ} (hcheck : e.toInvocation = Slot.check ⟨.always, actions⟩) :
      e.Judges config true := Entry.judges_always (congrArg Invocation.step hcheck) config
  cases dispatched with
  | unmatched checks falsy =>
      exfalso
      rw [List.map_append, List.map_singleton] at checks
      obtain ⟨before, last, rfl, -, hlasts⟩ := List.map_eq_append_iff.1 checks
      obtain ⟨e, rest, rfl, he, -⟩ := List.map_eq_cons_iff.1 hlasts
      have hfalsy := falsy e (List.mem_append_right before List.mem_cons_self)
      exact Bool.noConfusion ((hlast he).unique hfalsy)
  | @stopped before' rest slot before check fault split made checks falsy step stops =>
      right
      refine ⟨before, check, fault, made, ?_, stops, rfl⟩
      have hlength : before.length = before'.length := Denied.length_eq ⟨checks, falsy⟩
      rcases rest.eq_nil_or_concat' with rfl | ⟨rest, final, rfl⟩
      · obtain ⟨-, hslot⟩ := List.append_inj' split rfl
        obtain rfl : _ = slot := (List.cons.inj hslot).1
        exact absurd stops (hlast step).not_stops
      · have hcount := congrArg List.length split
        simp only [List.length_append, List.length_cons, List.length_nil] at hcount
        omega
  | @matched before' rest slot before performed check o split made checks falsy step truthy
      hperformed =>
      left
      refine ⟨before'.length, o, ⟨slot, before, check, performed, ?_, made, ?_, step, truthy,
        hperformed⟩, rfl⟩
      · rw [split, List.getElem?_append_right le_rfl, Nat.sub_self, List.getElem?_cons_zero]
      · rw [split, List.take_left']
        · exact ⟨checks, falsy⟩
        · rfl

namespace Item

theorem dispatched_evaluatePlan (config : Config) (branch : Nat) (slots : List (Slot υ))
    (spans : List Span) (acts : List (Act υ)) (st : Store υ) (r : ResultSet) :
    let a := ((evaluatePlan branch slots).under spans).account config acts st r
    Dispatched config slots a.entries a.halt.outcome? := by
  induction slots generalizing branch acts st with
  | nil => exact .unmatched rfl (List.forall_mem_nil _)
  | cons slot rest ih =>
      have haccount := account_evaluatePlan_cons config spans branch slot rest acts st r
      have htaken := slot.taken_turn config [.branchMatched branch] branch spans acts st
      generalize slot.turn config [.branchMatched branch] branch spans acts st = t at haccount htaken
      have hsplit : slot :: rest = [] ++ slot :: rest := rfl
      intro a
      have hstop {fault : Option Fault} (stopped : t.halt.outcome? = fault.map .error) :
          a.entries = t.entries ∧ a.halt.outcome? = fault.map .error := by
        simp only [a, haccount]
        exact Account.andThen_stops stopped fun error left st => rfl
      -- Only a turn without a match is followed by anything.
      cases htaken with
      | unmatched step ended falsy nothing halts =>
          have hjudges := Entry.judges_of_course ended
          rw [falsy] at hjudges
          simp only [a, haccount, halts, Account.andThen, Turn.entries, nothing]
          exact (ih (branch + 1) _ _).cons step hjudges
      | stopped step stops nothing outcome =>
          obtain ⟨hentries, houtcome⟩ := hstop outcome
          rw [hentries, houtcome, Turn.entries, nothing]
          exact .stopped hsplit (List.nil_append _).symm rfl (List.forall_mem_nil _) step stops
      | @matched performedTo step truthy performed outcome =>
          have hentries : a.entries = t.entries ∧ a.halt.outcome? = t.halt.outcome? := by
            rcases Fault.value_or_stop performedTo with ⟨output, rfl⟩ | ⟨fault, rfl⟩
            · obtain ⟨last, left, hended⟩ := Halt.ended_of_outcome? outcome
              simp only [a, haccount, hended, Account.andThen, List.append_nil, and_self]
            · have hstopped : t.halt.outcome? = fault.map .error := by
                rw [outcome]
                cases fault <;> rfl
              rw [hstopped]
              exact hstop hstopped
          rw [hentries.1, hentries.2, outcome]
          exact .matched hsplit (List.nil_append _).symm rfl (List.forall_mem_nil _) step truthy
            performed

/-- The account of an evaluation of an item. -/
def evaluation (config : Config) (spans : List Span) (acts : List (Act υ)) (st : Store υ)
    (item : Item υ) : Account υ (Except FlowError (Option Values)) :=
  ((evaluatePlan 0 item.slots).under spans).account config acts st .empty

/--
An evaluation asks the predicates of the slots in order and without arguments, up to the first one
that holds or has a fault, each where the one before it ended.  If that one holds, the actions of its
slot follow, up to the first one that has a fault, and nothing else does.  The evaluation has the
fault of its last invocation, or the output of the actions, or nothing exactly if no predicate
holds.  It comes to an end if all of its invocations do.
-/
theorem evaluate_dispatches (config : Config) (spans : List Span) (acts : List (Act υ))
    (st : Store υ) (item : Item υ) :
    let evaluation := item.evaluation config spans acts st
    (((item.evaluate config).under spans).course acts st).halt = evaluation.halt ∧
      evaluation.halt.Follows config evaluation.entries acts st ∧
      Dispatched config item.slots evaluation.entries evaluation.halt.outcome? ∧
      (evaluation.halt.outcome? = some (.ok none) ↔
        evaluation.entries.map (·.toInvocation) = item.slots.map Slot.check ∧
          ∀ e ∈ evaluation.entries, e.Judges config false) ∧
      (evaluation.halt.outcome? = none ↔
        ∃ e ∈ evaluation.entries, e.outcome? config = none) := by
  intro evaluation
  have hdispatched : Dispatched config item.slots evaluation.entries evaluation.halt.outcome? :=
    dispatched_evaluatePlan config 0 item.slots spans acts st .empty
  refine ⟨?_, Plan.account_follows config _ acts st .empty, hdispatched,
    hdispatched.outcome_eq_ok_none, hdispatched.outcome_eq_none⟩
  exact (Program.halt_of_inside (evaluateFrom_inside config 0 item.slots)
    (evaluatePlan_strict 0 item.slots) spans acts st .empty).symm

end Item

end Stepwise
