import Stepwise.Proofs.Dispatch
/-!
# How a loop is repeated

A loop asks its predicate, makes a pass through its actions where it holds, and asks again.  What it
did is a number of full passes, and then a predicate that does not hold or an invocation that has a
fault.  From pass to pass only the store is carried on, so a loop whose predicate holds is one pass
and the loop from there.  It ends if its predicate does not hold any more after finitely many
passes, or if an invocation has a fault, and not otherwise.
-/

namespace Stepwise

variable {υ : Type}

/-! ## Passes -/

/-- Full passes of a loop: the invocations that were made, and the output of each pass. -/
inductive Rounds (config : Config) (slot : Slot υ) : List (Entry υ) → List Values → Prop
  | none : Rounds config slot [] []
  | pass {check : Entry υ} {actions entries : List (Entry υ)} {output : Values}
      {outputs : List Values} (step : check.toInvocation = slot.check)
      (truthy : check.Judges config true)
      (performed : Performed config slot.actions .empty actions (some (.ok output)))
      (others : Rounds config slot entries outputs) :
      Rounds config slot (check :: actions ++ entries) (output :: outputs)

/-- How a loop was repeated that may make so many passes: the invocations that were made, the outputs
of the full passes, and how far it came. -/
inductive Repeated (config : Config) (spans : List Span) (slot : Slot υ) (limit : Nat)
    (entries : List (Entry υ)) (outputs : List Values) :
    Halt υ (Except FlowError (Option Values)) → Prop
  /-- The predicate does not hold any more. -/
  | finished {before : List (Entry υ)} {check : Entry υ} {mid : Store υ} {verdict : Values}
      {left : List (Act υ)} (made : entries = before ++ [check])
      (rounds : Rounds config slot before outputs) (step : check.toInvocation = slot.check)
      (ended : check.course config = .ended mid (.ok verdict) left)
      (falsy : verdict.isTruthy = false) :
      Repeated config spans slot limit entries outputs
        (.ended (mid.report spans (.loopFinished outputs.length))
          (.ok (if config.recordLoopResults then outputs.getLast? else none)) left)
  /-- The predicate stops. -/
  | unjudged {before : List (Entry υ)} {check : Entry υ} {fault : Option Fault}
      {halt : Halt υ (Except FlowError (Option Values))} (made : entries = before ++ [check])
      (rounds : Rounds config slot before outputs) (step : check.toInvocation = slot.check)
      (stops : check.Stops config fault) (outcome : halt.outcome? = fault.map .error) :
      Repeated config spans slot limit entries outputs halt
  /-- An action stops. -/
  | broken {before actions : List (Entry υ)} {check : Entry υ} {fault : Option Fault}
      {halt : Halt υ (Except FlowError (Option Values))}
      (made : entries = before ++ check :: actions) (rounds : Rounds config slot before outputs)
      (step : check.toInvocation = slot.check) (truthy : check.Judges config true)
      (performed : Performed config slot.actions .empty actions (fault.map .error))
      (outcome : halt.outcome? = fault.map .error) :
      Repeated config spans slot limit entries outputs halt
  /-- There are no more passes to be made. -/
  | spent {last : Store υ} (rounds : Rounds config slot entries outputs)
      (all : outputs.length = limit) :
      Repeated config spans slot limit entries outputs (.exhausted last)

/-- How far a loop comes after one more pass in front that has the given output, where it comes so
far without it. -/
inductive Halt.Prolongs (config : Config) (spans : List Span) (output : Values) :
    Halt υ (Except FlowError (Option Values)) → Halt υ (Except FlowError (Option Values)) → Prop
  /-- The pass is counted, and its output is kept if no other pass was made. -/
  | finished {mid : Store υ} {passes : Nat} {last : Option Values} {left : List (Act υ)}
      (made : last = none ↔ passes = 0) :
      Prolongs config spans output
        (.ended (mid.report spans (.loopFinished passes))
          (.ok (if config.recordLoopResults then last else none)) left)
        (.ended (mid.report spans (.loopFinished (passes + 1)))
          (.ok (if config.recordLoopResults then last.or (some output) else none)) left)
  | same {halt : Halt υ (Except FlowError (Option Values))}
      (unfinished : ∀ value, halt.outcome? ≠ some (.ok value)) :
      Prolongs config spans output halt halt

/-- A loop that stops comes so far with more passes in front as well. -/
theorem Halt.Prolongs.eq_of_stopped {config : Config} {spans : List Span} {output : Values}
    {halt whole : Halt υ (Except FlowError (Option Values))}
    (prolongs : halt.Prolongs config spans output whole) {fault : Option Fault}
    (stopped : halt.outcome? = fault.map .error) : whole = halt := by
  cases prolongs with
  | finished made => cases fault <;> cases stopped
  | same unfinished => rfl

theorem Store.report_inj {st st' : Store υ} {spans spans' : List Span} {notice notice' : Notice}
    (heq : st.report spans notice = st'.report spans' notice') : st = st' ∧ notice = notice' := by
  obtain ⟨user, channels, due, deferred, trace⟩ := st
  obtain ⟨user', channels', due', deferred', trace'⟩ := st'
  simp only [report, mk.injEq, Array.push_eq_push, Event.mk.injEq] at heq
  obtain ⟨rfl, rfl, rfl, rfl, ⟨rfl, -⟩, rfl⟩ := heq
  exact ⟨rfl, rfl⟩

namespace Item

/-- Before the first pass there is no output to be kept. -/
theorem none_made : (none : Option Values) = none ↔ 0 = 0 := iff_of_true rfl rfl

/-- The passes before a loop do not matter to what it does next. -/
theorem prolongs_repeatPlan (config : Config) (spans : List Span) (slot : Slot υ) (output : Values)
    {passes : Nat} {last : Option Values} (made : last = none ↔ passes = 0) (limit : Nat)
    (acts : List (Act υ)) (st : Store υ) (r : ResultSet) :
    (((repeatPlan config slot passes last limit).under spans).account config acts st
      r).halt.Prolongs config spans output
      (((repeatPlan config slot (passes + 1) (last.or (some output)) limit).under spans).account
        config acts st r).halt := by
  induction limit generalizing passes last acts st with
  | zero => exact .same fun value hok => nomatch hok
  | succ limit ih =>
      rw [account_repeatPlan_succ, account_repeatPlan_succ]
      generalize slot.turn config [] 0 spans acts st = t
      obtain ⟨branch, check, actions, halt⟩ := t
      rcases halt with ⟨mid, e | _ | value, left⟩ | ⟨mid, payload⟩ | ⟨mid, onDrop⟩ | mid
      · exact .same fun value hok => nomatch hok
      · exact .finished made
      · have hmade : some value = none ↔ passes + 1 = 0 := by simp
        exact ih hmade left mid
      · exact .same fun value hok => nomatch hok
      · exact .same fun value hok => nomatch hok
      · exact .same fun value hok => nomatch hok

/-- What a loop invokes does not depend on the passes before it. -/
theorem entries_repeatPlan_eq (config : Config) (spans : List Span) (slot : Slot υ) (passes : Nat)
    (last : Option Values) (limit : Nat) (acts : List (Act υ)) (st : Store υ) (r : ResultSet) :
    (((repeatPlan config slot passes last limit).under spans).account config acts st r).entries =
      (((repeatPlan config slot 0 none limit).under spans).account config acts st r).entries := by
  rw [entries_repeatPlan, entries_repeatPlan]

end Item

namespace Slot

/-- The account of repeating a slot, with so many passes at most. -/
def repetition (limit : Nat) (config : Config) (spans : List Span) (acts : List (Act υ))
    (st : Store υ) (slot : Slot υ) : Account υ (Except FlowError (Option Values)) :=
  ((Item.repeatPlan config slot 0 none limit).under spans).account config acts st .empty

variable {config : Config} {spans : List Span} {slot : Slot υ}

/-- Where the predicate holds, a loop is one pass, and then the loop from where that ended. -/
theorem repetition_succ {acts left : List (Act υ)} {st mid : Store υ} {verdict : Values}
    (ended : Entry.course config ⟨slot.check, spans, acts, st⟩ = .ended mid (.ok verdict) left)
    (truthy : verdict.isTruthy = true) (limit : Nat) :
    let check : Entry υ := ⟨slot.check, spans, acts, st⟩
    let pass := slot.pass config spans left mid
    let whole := slot.repetition (limit + 1) config spans acts st
    match pass.halt with
    | .ended last (.ok output) left =>
        let rest := slot.repetition limit config spans left last
        whole.entries = check :: pass.entries ++ rest.entries ∧
          rest.halt.Prolongs config spans output whole.halt
    | halt => whole.entries = check :: pass.entries ∧ whole.halt = halt.map (·.map some) := by
  intro check pass whole
  have hwhole : whole = _ := Item.account_repeatPlan_succ config spans slot 0 none limit acts st _
  rw [slot.turn_of_truthy config [] 0 spans acts st ended truthy, List.foldl_nil] at hwhole
  rcases hpass : slot.pass config spans left mid with ⟨entries, results, halt⟩
  simp only [hpass, Account.andThen] at hwhole
  simp only [pass, hpass, hwhole]
  rcases halt with ⟨last, e | output, later⟩ | ⟨last, payload⟩ | ⟨last, onDrop⟩ | last
  · simp [Halt.map, Except.map, Turn.entries, check]
  · have hprolongs := Item.prolongs_repeatPlan config spans slot output Item.none_made limit later last
      .empty
    have hentries := Item.entries_repeatPlan_eq config spans slot 1 (some output) limit later last
      .empty
    exact ⟨congrArg (check :: entries ++ ·) hentries, hprolongs⟩
  · simp [Halt.map, Turn.entries, check]
  · simp [Halt.map, Turn.entries, check]
  · simp [Halt.map, Turn.entries, check]

end Slot

/-- One more pass may come first. -/
theorem Repeated.cons {config : Config} {spans : List Span} {slot : Slot υ} {limit : Nat}
    {check : Entry υ} {actions entries : List (Entry υ)} {output : Values} {outputs : List Values}
    {halt whole : Halt υ (Except FlowError (Option Values))}
    (repeated : Repeated config spans slot limit entries outputs halt)
    (step : check.toInvocation = slot.check) (truthy : check.Judges config true)
    (performed : Performed config slot.actions .empty actions (some (.ok output)))
    (prolongs : halt.Prolongs config spans output whole) :
    Repeated config spans slot (limit + 1) (check :: actions ++ entries) (output :: outputs)
      whole := by
  cases repeated with
  | @finished before final mid verdict left made rounds hfinal ended falsy =>
      have hrounds := Rounds.pass step truthy performed rounds
      generalize hhalt : Halt.ended (mid.report spans (.loopFinished outputs.length)) _ left = halt
        at prolongs
      cases prolongs with
      | @finished mid' passes last left' hmade =>
          simp only [Halt.ended.injEq, Except.ok.injEq] at hhalt
          obtain ⟨hreport, hvalue, rfl⟩ := hhalt
          obtain ⟨rfl, hpasses⟩ := Store.report_inj hreport
          cases hpasses
          have hkept : (if config.recordLoopResults then last.or (some output) else none) =
              if config.recordLoopResults then (output :: outputs).getLast? else none := by
            by_cases hrecord : config.recordLoopResults = true
            · simp only [if_pos hrecord] at hvalue ⊢
              rw [← hvalue, List.getLast?_cons]
              cases outputs.getLast? <;> rfl
            · simp only [if_neg hrecord]
          rw [hkept]
          exact .finished (by rw [made, List.append_assoc]) hrounds hfinal ended falsy
      | same unfinished => exact absurd (by rw [← hhalt]; rfl) (unfinished _)
  | @unjudged before final fault halt made rounds hfinal stops outcome =>
      obtain rfl := prolongs.eq_of_stopped outcome
      exact .unjudged (by rw [made, List.append_assoc]) (.pass step truthy performed rounds) hfinal
        stops outcome
  | @broken before later final fault halt made rounds hfinal hholds cut outcome =>
      obtain rfl := prolongs.eq_of_stopped outcome
      exact .broken (by rw [made, List.append_assoc]) (.pass step truthy performed rounds) hfinal
        hholds cut outcome
  | @spent last rounds all =>
      have hnone : (Halt.exhausted last : Halt υ (Except FlowError (Option Values))).outcome? =
          (none : Option Fault).map .error := rfl
      obtain rfl := prolongs.eq_of_stopped hnone
      exact .spent (.pass step truthy performed rounds) (congrArg (· + 1) all)

namespace Slot

/-- However a slot is repeated, it is in full passes up to an invocation that ends the loop. -/
theorem repeated_repetition (limit : Nat) (config : Config) (spans : List Span)
    (acts : List (Act υ)) (st : Store υ) (slot : Slot υ) :
    let call := slot.repetition limit config spans acts st
    ∃ outputs, Repeated config spans slot limit call.entries outputs call.halt := by
  induction limit generalizing acts st with
  | zero => exact ⟨[], .spent .none rfl⟩
  | succ limit ih =>
      intro call
      have hcall : call = _ :=
        Item.account_repeatPlan_succ config spans slot 0 none limit acts st .empty
      have htaken := slot.taken_turn config [] 0 spans acts st
      generalize slot.turn config [] 0 spans acts st = t at hcall htaken
      have hstop {fault : Option Fault} (stopped : t.halt.outcome? = fault.map .error) :
          call.entries = t.entries ∧ call.halt.outcome? = fault.map .error := by
        rw [hcall]
        exact Account.andThen_stops stopped fun error left st => rfl
      cases htaken with
      | stopped step stops nothing outcome =>
          obtain ⟨hentries, houtcome⟩ := hstop outcome
          rw [hentries, Turn.entries, nothing]
          exact ⟨[], .unjudged (List.nil_append _).symm .none step stops houtcome⟩
      | unmatched step ended falsy nothing halts =>
          simp only [halts, Account.andThen] at hcall
          rw [hcall, List.append_nil, Turn.entries, nothing]
          exact ⟨[], .finished (List.nil_append _).symm .none step ended falsy⟩
      | @matched outcome step truthy performed halts =>
          rcases Fault.value_or_stop outcome with ⟨output, rfl⟩ | ⟨fault, rfl⟩
          · obtain ⟨last, left, hended⟩ := Halt.ended_of_outcome? halts
            simp only [hended, Account.andThen] at hcall
            obtain ⟨outputs, hrest⟩ := ih left last
            have hprolongs := Item.prolongs_repeatPlan config spans slot output Item.none_made limit left
              last .empty
            rw [hcall, Item.entries_repeatPlan_eq]
            exact ⟨output :: outputs, hrest.cons step truthy performed hprolongs⟩
          · have hstopped : t.halt.outcome? = fault.map .error := by
              rw [halts]
              cases fault <;> rfl
            obtain ⟨hentries, houtcome⟩ := hstop hstopped
            rw [hentries]
            exact ⟨[], .broken (List.nil_append _).symm .none step truthy performed houtcome⟩

end Slot

/-! ## The form of a loop -/

/-- The steps that are invoked in so many passes and the question that follows them. -/
def Slot.loop (slot : Slot υ) (passes : Nat) : List (Step υ) :=
  slot.predicate :: (List.replicate passes (slot.actions ++ [slot.predicate])).flatten

/-- The question may come in front of every pass instead. -/
theorem Slot.loop_eq (slot : Slot υ) (passes : Nat) : slot.loop passes =
    (List.replicate passes (slot.predicate :: slot.actions)).flatten ++ [slot.predicate] := by
  induction passes with
  | zero => rfl
  | succ passes ih =>
      rw [List.replicate_succ, List.flatten_cons, List.append_assoc, ← ih]
      simp [loop, List.replicate_succ]

theorem Slot.loop_succ (slot : Slot υ) (passes : Nat) :
    slot.loop (passes + 1) = slot.loop passes ++ slot.actions ++ [slot.predicate] := by
  simp [loop, List.replicate_succ', List.append_assoc]

namespace Rounds

variable {config : Config} {slot : Slot υ} {entries : List (Entry υ)} {outputs : List Values}

theorem steps (rounds : Rounds config slot entries outputs) : entries.map (·.step) =
    (List.replicate outputs.length (slot.predicate :: slot.actions)).flatten := by
  induction rounds with
  | none => rfl
  | pass step truthy performed others ih =>
      rw [List.length_cons, List.replicate_succ, List.flatten_cons, ← ih, List.map_append,
        List.map_cons, performed.steps.2 _ rfl, step]
      rfl

theorem length (rounds : Rounds config slot entries outputs) :
    entries.length = outputs.length * (slot.actions.length + 1) := by
  have hsteps := congrArg List.length rounds.steps
  simpa using hsteps

/-- In full passes every invocation has an output. -/
theorem succeeds (rounds : Rounds config slot entries outputs) :
    ∀ e ∈ entries, ∃ output, e.outcome? config = some (.ok output) := by
  induction rounds with
  | none => exact List.forall_mem_nil _
  | pass step truthy performed others ih =>
      obtain ⟨verdict, hverdict, -⟩ := truthy
      exact List.forall_mem_append.2
        ⟨List.forall_mem_cons.2 ⟨⟨verdict, hverdict⟩, performed.succeeds⟩, ih⟩

/-- In full passes every predicate holds. -/
theorem holds (rounds : Rounds config slot entries outputs) {position : Nat} {e : Entry υ}
    (hentry : entries[position]? = some e) (hfirst : position % (slot.actions.length + 1) = 0) :
    e.Judges config true := by
  induction rounds generalizing position with
  | none => cases hentry
  | @pass check actions entries output outputs step truthy performed others ih =>
      have hlength : (check :: actions).length = slot.actions.length + 1 := by
        rw [List.length_cons, ← performed.steps.2 _ rfl, List.length_map]
      by_cases hlater : (check :: actions).length ≤ position
      · rw [List.getElem?_append_right hlater, hlength] at hentry
        refine ih hentry ?_
        rw [← Nat.mod_eq_sub_mod (hlength ▸ hlater)]
        exact hfirst
      · rw [hlength] at hlater
        obtain rfl : position = 0 := by
          rwa [Nat.mod_eq_of_lt (Nat.not_le.1 hlater)] at hfirst
        cases hentry
        exact truthy

end Rounds

/-- The invocation at this position ends the loop: it has a fault, or it is one of the predicate,
which does not hold. -/
def Slot.EndsWith (config : Config) (slot : Slot υ) (position : Nat) (e : Entry υ) : Prop :=
  (∃ fault, e.outcome? config = some (.error fault)) ∨
    position % (slot.actions.length + 1) = 0 ∧ e.Judges config false

namespace Slot

variable {config : Config} {slot : Slot υ} {position : Nat} {e : Entry υ}

theorem not_endsWith_of_unsettled (hnone : e.outcome? config = none) :
    ¬slot.EndsWith config position e := by
  rintro (⟨fault, hfault⟩ | ⟨-, falsy⟩)
  · rw [hnone] at hfault
    cases hfault
  · exact falsy.outcome_ne_none hnone

theorem not_endsWith_of_holds (truthy : e.Judges config true) :
    ¬slot.EndsWith config position e := by
  obtain ⟨verdict, hverdict, htruthy⟩ := truthy
  rintro (⟨fault, hfault⟩ | ⟨-, output, houtput, hfalsy⟩)
  · rw [hverdict] at hfault
    cases hfault
  · rw [hverdict] at houtput
    cases houtput
    rw [htruthy] at hfalsy
    cases hfalsy

theorem not_endsWith_of_succeeds (hlater : position % (slot.actions.length + 1) ≠ 0)
    (succeeds : ∃ output, e.outcome? config = some (.ok output)) :
    ¬slot.EndsWith config position e := by
  obtain ⟨output, houtput⟩ := succeeds
  rintro (⟨fault, hfault⟩ | ⟨hfirst, -⟩)
  · rw [houtput] at hfault
    cases hfault
  · exact hlater hfirst

end Slot

theorem Rounds.not_endsWith {config : Config} {slot : Slot υ} {entries : List (Entry υ)}
    {outputs : List Values} (rounds : Rounds config slot entries outputs) {position : Nat}
    {e : Entry υ} (hentry : entries[position]? = some e) : ¬slot.EndsWith config position e := by
  by_cases hfirst : position % (slot.actions.length + 1) = 0
  · exact Slot.not_endsWith_of_holds (rounds.holds hentry hfirst)
  · exact Slot.not_endsWith_of_succeeds hfirst (rounds.succeeds e (List.mem_of_getElem? hentry))

/-- What ends a loop comes after the full passes. -/
theorem Rounds.later_of_endsWith {config : Config} {slot : Slot υ} {before rest : List (Entry υ)}
    {outputs : List Values} (rounds : Rounds config slot before outputs) {position : Nat}
    {e : Entry υ} (hentry : (before ++ rest)[position]? = some e)
    (ends : slot.EndsWith config position e) :
    ∃ later : Nat, rest[later]? = some e ∧ slot.EndsWith config later e := by
  by_cases hbefore : position < before.length
  · rw [List.getElem?_append_left hbefore] at hentry
    exact absurd ends (rounds.not_endsWith hentry)
  · obtain ⟨later, rfl⟩ := Nat.exists_eq_add_of_le (Nat.not_lt.1 hbefore)
    rw [List.getElem?_append_right (Nat.le_add_right _ _), Nat.add_sub_cancel_left] at hentry
    refine ⟨later, hentry, ends.imp_right fun ⟨hfirst, falsy⟩ => ⟨?_, falsy⟩⟩
    rwa [rounds.length, Nat.mul_add_mod_self_right] at hfirst

namespace Repeated

variable {config : Config} {spans : List Span} {slot : Slot υ} {limit : Nat}
  {entries : List (Entry υ)} {outputs : List Values}
  {halt : Halt υ (Except FlowError (Option Values))}

/-- The full passes come first, and not even one more pass could follow. -/
theorem rounds (repeated : Repeated config spans slot limit entries outputs halt) :
    ∃ before, before <+: entries ∧ Rounds config slot before outputs ∧
      entries.length ≤ before.length + (slot.actions.length + 1) := by
  cases repeated with
  | @finished before check mid verdict left made rounds step ended falsy =>
      exact ⟨before, ⟨_, made.symm⟩, rounds, by simp [made]⟩
  | @unjudged before check fault halt made rounds step stops outcome =>
      exact ⟨before, ⟨_, made.symm⟩, rounds, by simp [made]⟩
  | @broken before actions check fault halt made rounds step truthy performed outcome =>
      have hlength := performed.steps.1.length_le
      rw [List.length_map] at hlength
      exact ⟨before, ⟨_, made.symm⟩, rounds, by simp [made, hlength]⟩
  | spent rounds all => exact ⟨entries, List.prefix_rfl, rounds, Nat.le_add_right _ _⟩

/-- Questions and passes alternate, up to where the loop ends. -/
theorem steps (repeated : Repeated config spans slot limit entries outputs halt) :
    entries.map (·.step) <+: slot.loop (outputs.length + 1) ∧
      ∀ value, halt.outcome? = some (.ok value) → entries.map (·.step) = slot.loop outputs.length := by
  have hasked {before : List (Entry υ)} {check : Entry υ} (rounds : Rounds config slot before outputs)
      (step : check.toInvocation = slot.check) :
      (before ++ [check]).map (·.step) = slot.loop outputs.length := by
    rw [List.map_append, rounds.steps, List.map_singleton, step, slot.loop_eq]
    rfl
  have hnext : slot.loop outputs.length <+: slot.loop (outputs.length + 1) := by
    rw [slot.loop_succ, List.append_assoc]
    exact List.prefix_append _ _
  cases repeated with
  | @finished before check mid verdict left made rounds step ended falsy =>
      rw [made, hasked rounds step]
      exact ⟨hnext, fun _ _ => rfl⟩
  | @unjudged before check fault halt made rounds step stops outcome =>
      rw [made, hasked rounds step]
      exact ⟨hnext, fun _ _ => rfl⟩
  | @broken before actions check fault halt made rounds step truthy performed outcome =>
      have hmade : entries.map (·.step) = slot.loop outputs.length ++ actions.map (·.step) := by
        rw [made, List.append_cons, List.map_append, hasked rounds step]
      rw [hmade, slot.loop_succ, List.append_assoc]
      refine ⟨(List.prefix_append_right_inj _).2 (performed.steps.1.trans ?_), fun value hok => ?_⟩
      · exact List.prefix_append _ _
      · rw [outcome] at hok
        cases fault <;> cases hok
  | spent rounds all =>
      refine ⟨?_, fun value hok => nomatch hok⟩
      rw [rounds.steps]
      refine List.IsPrefix.trans ?_ hnext
      rw [slot.loop_eq]
      exact List.prefix_append _ _

/-- A loop comes to an end exactly if one of its invocations ends it. -/
theorem ends_iff (repeated : Repeated config spans slot limit entries outputs halt) :
    halt.outcome? ≠ none ↔ ∃ position e, entries[position]? = some e ∧
      slot.EndsWith config position e := by
  cases repeated with
  | @finished before check mid verdict left made rounds step ended falsy =>
      refine iff_of_true (Option.some_ne_none _) ⟨before.length, check, by simp [made], .inr ⟨?_, ?_⟩⟩
      · rw [rounds.length, Nat.mul_mod_left]
      · have hjudges := Entry.judges_of_course ended
        rwa [falsy] at hjudges
  | @unjudged before check fault halt made rounds step stops outcome =>
      cases fault with
      | some fault =>
          refine iff_of_true (by simp [outcome]) ⟨before.length, check, by simp [made], .inl ?_⟩
          exact ⟨fault, stops⟩
      | none =>
          refine iff_of_false (fun h => h outcome) ?_
          rintro ⟨position, e, hentry, hends⟩
          obtain ⟨later, hlater, hends⟩ := rounds.later_of_endsWith (made ▸ hentry) hends
          obtain rfl : e = check := List.mem_singleton.1 (List.mem_of_getElem? hlater)
          exact Slot.not_endsWith_of_unsettled stops hends
  | @broken before actions check fault halt made rounds step truthy performed outcome =>
      obtain ⟨firsts, last, hactions, hlast, hfirsts⟩ := performed.stops
      cases fault with
      | some fault =>
          obtain ⟨position, hposition⟩ := List.getElem?_of_mem (a := last) (l := entries)
            (by simp [made, hactions])
          exact iff_of_true (by simp [outcome]) ⟨position, last, hposition, .inl ⟨fault, hlast⟩⟩
      | none =>
          refine iff_of_false (fun h => h outcome) ?_
          rintro ⟨position, e, hentry, hends⟩
          obtain ⟨later, hlater, hends⟩ := rounds.later_of_endsWith (made ▸ hentry) hends
          cases later with
          | zero =>
              cases hlater
              exact Slot.not_endsWith_of_holds truthy hends
          | succ later =>
              have hactions' : actions[later]? = some e := hlater
              have hlt := (List.getElem?_eq_some_iff.1 hactions').1
              have hlength := performed.steps.1.length_le
              rw [List.length_map] at hlength
              have hposition : (later + 1) % (slot.actions.length + 1) ≠ 0 := by
                rw [Nat.mod_eq_of_lt (by omega)]
                exact Nat.succ_ne_zero later
              have hmem := List.mem_of_getElem? hactions'
              rw [hactions] at hmem
              rcases List.mem_append.1 hmem with hmem | hmem
              · exact Slot.not_endsWith_of_succeeds hposition (hfirsts e hmem) hends
              · obtain rfl := List.mem_singleton.1 hmem
                exact Slot.not_endsWith_of_unsettled hlast hends
  | spent rounds all =>
      refine iff_of_false (fun h => h rfl) ?_
      rintro ⟨position, e, hentry, hends⟩
      exact rounds.not_endsWith hentry hends

/-- A loop that comes to no end waits for its last invocation, or has made all passes it may. -/
theorem unsettled_or_spent (repeated : Repeated config spans slot limit entries outputs halt)
    (never : halt.outcome? = none) :
    (∃ (before : List (Entry υ)) (last : Entry υ), entries = before ++ [last] ∧
        last.outcome? config = none) ∨
      Rounds config slot entries outputs ∧ outputs.length = limit := by
  cases repeated with
  | finished => cases never
  | @unjudged before check fault halt made rounds step stops outcome =>
      obtain rfl : fault = none := by
        rw [outcome] at never
        exact Option.map_eq_none_iff.1 never
      exact .inl ⟨before, check, made, stops⟩
  | @broken before actions check fault halt made rounds step truthy performed outcome =>
      obtain rfl : fault = none := by
        rw [outcome] at never
        exact Option.map_eq_none_iff.1 never
      obtain ⟨firsts, last, rfl, hlast, -⟩ := performed.stops
      exact .inl ⟨before ++ check :: firsts, last, by simp [made], hlast⟩
  | spent rounds all => exact .inr ⟨rounds, all⟩

end Repeated

/-! ## Loops that go on -/

theorem prefix_loopTurns (config : Config) (spans : List Span) (slot : Slot υ) (limit : Nat)
    (acts : List (Act υ)) (st : Store υ) : loopTurns config spans slot limit acts st <+:
      loopTurns config spans slot (limit + 1) acts st := by
  induction limit generalizing acts st with
  | zero => exact List.nil_prefix
  | succ limit ih =>
      rw [loopTurns, loopTurns]
      refine (List.prefix_cons_inj _).2 ?_
      split
      · exact ih _ _
      · exact List.prefix_rfl

namespace Slot

variable {config : Config} {spans : List Span} {slot : Slot υ}

/-- A loop that may make one more pass does so after the others. -/
theorem prefix_repetition (limit : Nat) (acts : List (Act υ)) (st : Store υ) :
    (slot.repetition limit config spans acts st).entries <+:
      (slot.repetition (limit + 1) config spans acts st).entries := by
  rw [repetition, repetition, Item.entries_repeatPlan, Item.entries_repeatPlan]
  obtain ⟨later, hlater⟩ := prefix_loopTurns config spans slot limit acts st
  rw [← hlater, List.flatMap_append]
  exact List.prefix_append _ _

/-- A loop that has made all passes it may invokes more if it may make another one. -/
theorem length_repetition_lt {limit : Nat} {acts : List (Act υ)} {st : Store υ}
    {outputs : List Values}
    (rounds : Rounds config slot (slot.repetition limit config spans acts st).entries outputs)
    (all : outputs.length = limit)
    (never : (slot.repetition (limit + 1) config spans acts st).halt.outcome? = none) :
    (slot.repetition limit config spans acts st).entries.length <
      (slot.repetition (limit + 1) config spans acts st).entries.length := by
  have hprefix : (slot.repetition limit config spans acts st).entries <+:
      (slot.repetition (limit + 1) config spans acts st).entries := prefix_repetition limit acts st
  refine lt_of_le_of_ne hprefix.length_le fun hlength => ?_
  have hsame := hprefix.eq_of_length hlength
  obtain ⟨outputs', repeated⟩ := slot.repeated_repetition (limit + 1) config spans acts st
  rcases repeated.unsettled_or_spent never with ⟨before, last, hentries, hnone⟩ | ⟨later, more⟩
  · obtain ⟨output, houtput⟩ := rounds.succeeds last (by rw [hsame, hentries]; simp)
    rw [hnone] at houtput
    cases houtput
  · rw [rounds.length, later.length, all, more] at hlength
    have hlimit := Nat.eq_of_mul_eq_mul_right (Nat.succ_pos slot.actions.length) hlength
    omega

/-- A loop that comes to no end although its invocations do makes more and more of them. -/
theorem endless_repetition {call : Nat → Nat → Account υ (Except FlowError (Option Values))}
    {acts : Nat → List (Act υ)} {st : Store υ}
    (hcall : ∀ limit polls, call limit polls = slot.repetition limit config spans (acts polls) st)
    (never : ∀ limit polls, (call limit polls).halt.outcome? = none)
    (settles : ∀ position, (∃ limit polls, position < (call limit polls).entries.length) →
      ∃ limit polls e, (call limit polls).entries[position]? = some e ∧ e.outcome? config ≠ none)
    (position : Nat) : ∃ limit polls, position < (call limit polls).entries.length := by
  have hgrows {limit polls : Nat} {outputs : List Values}
      (rounds : Rounds config slot (call limit polls).entries outputs)
      (all : outputs.length = limit) :
      (call limit polls).entries.length < (call (limit + 1) polls).entries.length := by
    have hnever := never (limit + 1) polls
    rw [hcall] at rounds hnever ⊢
    rw [hcall]
    exact length_repetition_lt rounds all hnever
  induction position with
  | zero =>
      have hnone : (call 0 0).entries = [] := by
        rw [hcall]
        rfl
      have hrounds : Rounds config slot (call 0 0).entries [] := hnone ▸ .none
      exact ⟨1, 0, Nat.lt_of_le_of_lt (Nat.zero_le _) (hgrows hrounds rfl)⟩
  | succ position ih =>
      obtain ⟨limit, polls, e, hentry, hsettled⟩ := settles position ih
      obtain ⟨outputs, repeated⟩ := slot.repeated_repetition limit config spans (acts polls) st
      rw [← hcall] at repeated
      have hlt := (List.getElem?_eq_some_iff.1 hentry).1
      rcases repeated.unsettled_or_spent (never limit polls) with
        ⟨before, last, hentries, hnone⟩ | ⟨rounds, all⟩
      · refine ⟨limit, polls, lt_of_le_of_ne hlt fun hlast => hsettled ?_⟩
        rw [hentries, List.length_append, List.length_singleton, Nat.succ_inj] at hlast
        rw [hentries, hlast, List.getElem?_concat_length] at hentry
        cases hentry
        exact hnone
      · exact ⟨limit + 1, polls, Nat.lt_of_le_of_lt hlt (hgrows rounds all)⟩

end Slot

/-! ## Calls -/

theorem Slot.pass_course (config : Config) (spans : List Span) (slot : Slot υ)
    (acts : List (Act υ)) (st : Store υ) :
    (((runActions config slot.actions .empty).under spans).course acts st).halt =
      (slot.pass config spans acts st).halt :=
  (Program.halt_of_inside (runActions_inside config slot.actions .empty)
    (slotPlan_strict slot.actions .empty) spans acts st .empty).symm

theorem Item.repeats_course {item : Item υ} {slot : Slot υ} (hslot : item.slots.head? = some slot)
    (limit : Nat) (config : Config) (spans : List Span) (acts : List (Act υ)) (st : Store υ) :
    (((item.repeats limit config).under spans).course acts st).halt =
      (slot.repetition limit config spans acts st).halt := by
  unfold repeats
  rw [hslot]
  exact (Program.halt_of_inside (repeatFrom_inside config slot 0 none limit)
    (repeatPlan_strict config slot 0 none limit) spans acts st .empty).symm

/--
A loop invokes its predicate and then, as long as that holds, its actions and the predicate again,
up to where the predicate does not hold or an invocation has a fault.  Where it is left because the
predicate does not hold, the number of full passes is reported, and the output of the last one kept
if loops are recorded.  From where the predicate holds, a loop is one pass and the loop from where
that ended.  However the outside world acts, a loop comes to an end exactly if the predicate does
not hold after finitely many passes, or an invocation has a fault; where all of its invocations
settle it comes to an end or makes any number of passes.
-/
theorem Item.repeats_dispatches {item : Item υ} {slot : Slot υ}
    (hslot : item.slots.head? = some slot) (config : Config) (spans : List Span) :
    (∀ limit acts st,
      let call := slot.repetition limit config spans acts st
      (((item.repeats limit config).under spans).course acts st).halt = call.halt ∧
        call.halt.Follows config call.entries acts st ∧
        ∃ outputs, Repeated config spans slot limit call.entries outputs call.halt ∧
          call.entries.map (·.step) <+: slot.loop (outputs.length + 1) ∧
          ∀ value, call.halt.outcome? = some (.ok value) →
            call.entries.map (·.step) = slot.loop outputs.length) ∧
    (∀ limit acts st mid verdict left,
      let check : Entry υ := ⟨slot.check, spans, acts, st⟩
      check.course config = .ended mid (.ok verdict) left → verdict.isTruthy = true →
        let pass := slot.pass config spans left mid
        let whole := slot.repetition (limit + 1) config spans acts st
        (((runActions config slot.actions .empty).under spans).course left mid).halt = pass.halt ∧
          match pass.halt with
          | .ended last (.ok output) left =>
              let rest := slot.repetition limit config spans left last
              whole.entries = check :: pass.entries ++ rest.entries ∧
                rest.halt.Prolongs config spans output whole.halt
          | halt => whole.entries = check :: pass.entries ∧ whole.halt = halt.map (·.map some)) ∧
    ∀ (world : Nat → Act υ) (st : Store υ),
      let call (limit polls : Nat) :=
        slot.repetition limit config spans ((List.range polls).map world) st
      ((∃ limit polls, (call limit polls).halt.outcome? ≠ none) ↔
        ∃ limit polls position e, (call limit polls).entries[position]? = some e ∧
          slot.EndsWith config position e) ∧
      ((∀ position, (∃ limit polls, position < (call limit polls).entries.length) →
          ∃ limit polls e, (call limit polls).entries[position]? = some e ∧
            e.outcome? config ≠ none) →
        (∃ limit polls, (call limit polls).halt.outcome? ≠ none) ∨
          ∀ passes, ∃ limit polls rounds outputs, rounds <+: (call limit polls).entries ∧
            Rounds config slot rounds outputs ∧ passes ≤ outputs.length) := by
  refine ⟨fun limit acts st => ?_, fun limit acts st mid verdict left ended truthy => ?_,
    fun world st => ⟨?_, fun settles => ?_⟩⟩
  · obtain ⟨outputs, repeated⟩ := slot.repeated_repetition limit config spans acts st
    exact ⟨repeats_course hslot limit config spans acts st,
      Plan.account_follows config _ acts st .empty, outputs, repeated, repeated.steps⟩
  · exact ⟨slot.pass_course config spans left mid, Slot.repetition_succ ended truthy limit⟩
  · have hends (limit polls : Nat) :=
      (slot.repeated_repetition limit config spans ((List.range polls).map world)
        st).choose_spec.ends_iff
    exact exists_congr fun limit => exists_congr fun polls => hends limit polls
  · by_cases hends : ∃ limit polls, (slot.repetition limit config spans
        ((List.range polls).map world) st).halt.outcome? ≠ none
    · exact .inl hends
    · simp only [not_exists, not_not] at hends
      refine .inr fun passes => ?_
      obtain ⟨limit, polls, hmany⟩ := Slot.endless_repetition (fun _ _ => rfl) hends settles
        ((passes + 1) * (slot.actions.length + 1))
      obtain ⟨outputs, repeated⟩ := slot.repeated_repetition limit config spans
        ((List.range polls).map world) st
      obtain ⟨rounds, hprefix, hrounds, hfew⟩ := repeated.rounds
      refine ⟨limit, polls, rounds, outputs, hprefix, hrounds, ?_⟩
      rw [hrounds.length, ← Nat.succ_mul] at hfew
      have hpasses := Nat.lt_of_mul_lt_mul_right (Nat.lt_of_lt_of_le hmany hfew)
      omega

/-- Counts up to three, and says after each pass where it is. -/
def countingSlot : Slot Nat :=
  ⟨.sync fun _ => .user id fun n => .done (.ok (.single (.bool (n != 3)))),
    [.sync fun _ => .user (· + 1) fun n => .done (.ok (.single (.int (n + 1))))]⟩

/-- A loop that makes two passes, the last of which says three. -/
theorem repeats_dispatches_counting :
    let item : Item Nat := ⟨.loop, [countingSlot], true⟩
    let config : Config := { recordLoopResults := true }
    let call (limit polls : Nat) := countingSlot.repetition limit config []
      ((List.range polls).map fun _ => id) { user := 1 }
    item.slots.head? = some countingSlot ∧
      (call 5 0).halt.outcome? = some (.ok (some (.single (.int 3)))) ∧
      (∃ passes, (call 5 0).entries.map (·.step) = countingSlot.loop passes) ∧
      ∃ limit polls position e, (call limit polls).entries[position]? = some e ∧
        countingSlot.EndsWith config position e := by
  intro item config call
  have hslot : item.slots.head? = some countingSlot := rfl
  have hended : (call 5 0).halt.outcome? = some (.ok (some (.single (.int 3)))) := rfl
  obtain ⟨hcalls, -, hworlds⟩ := Item.repeats_dispatches hslot config []
  obtain ⟨-, -, outputs, -, -, hsteps⟩ := hcalls 5 [] { user := 1 }
  refine ⟨hslot, hended, ⟨outputs.length, hsteps _ hended⟩, ?_⟩
  exact (hworlds (fun _ => id) { user := 1 }).1.1 ⟨5, 0, by rw [hended]; exact Option.some_ne_none _⟩

end Stepwise
