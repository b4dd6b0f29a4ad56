import Stepwise.Proofs.Repetition
import Stepwise.Proofs.Told
/-!
# What an outline explains

What the engine invokes in an item, and what it reports there by itself, can be read off the outline
of the item, up to where the item stopped: which predicates did not hold, which branch matched, and
the labels and shapes of its actions, pass by pass in a loop.
-/

namespace Stepwise

variable {υ : Type}

/-! ## What an outline explains -/

/-- So many predicates did not hold, of which the first is that of the branch with this number. -/
def refusals (first count : Nat) : List Notice :=
  (List.range' first count).map .predicateFalse

/-- How branches are evaluated of which the first has the given number: the steps that are invoked,
what the engine reports by itself, and what it comes to. -/
inductive Evaluated (first : Nat) (branches : List BranchOutline) :
    List StepOutline → List Notice → Except FlowError (Option Values) → Prop
  /-- No predicate holds. -/
  | unmatched :
      Evaluated first branches (branches.map (·.predicate))
        (refusals first branches.length ++ [.noBranchMatched]) (.ok none)
  /-- The predicate of a branch fails. -/
  | unjudged (number : Nat) (e : FlowError) (found : number < branches.length) :
      Evaluated first branches ((branches.take (number + 1)).map (·.predicate))
        (refusals first number) (.error e)
  /-- The predicate of a branch holds, and all of its actions are performed. -/
  | finished (number : Nat) (branch : BranchOutline) (output : Values)
      (found : branches[number]? = some branch) :
      Evaluated first branches
        ((branches.take (number + 1)).map (·.predicate) ++ branch.actions)
        (refusals first number ++ .branchMatched (first + number) :: announcing branch.actions)
        (.ok (some output))
  /-- The predicate of a branch holds, and the last one of its actions that is performed fails. -/
  | broken (number : Nat) (branch : BranchOutline) (performed : List StepOutline) (e : FlowError)
      (found : branches[number]? = some branch) (initial : performed <+: branch.actions)
      (nonempty : performed ≠ []) :
      Evaluated first branches ((branches.take (number + 1)).map (·.predicate) ++ performed)
        (refusals first number ++ .branchMatched (first + number) :: announcing performed)
        (.error e)

/-- The steps that are invoked in so many full passes. -/
def BranchOutline.rounds (branch : BranchOutline) (passes : Nat) : List StepOutline :=
  (List.replicate passes (branch.predicate :: branch.actions)).flatten

/-- The notices of the actions of so many full passes. -/
def BranchOutline.announced (branch : BranchOutline) (passes : Nat) : List Notice :=
  (List.replicate passes (announcing branch.actions)).flatten

/-- How a loop is repeated after the given number of passes, of which it completes so many more: the
steps that are invoked, what the engine reports by itself, and what it comes to. -/
inductive Looped (branch : BranchOutline) (before passes : Nat) :
    List StepOutline → List Notice → Except FlowError (Option Values) → Prop
  /-- The predicate does not hold any more. -/
  | finished (output : Option Values) :
      Looped branch before passes (branch.rounds passes ++ [branch.predicate])
        (branch.announced passes ++ [.loopFinished (before + passes)]) (.ok output)
  /-- The predicate fails. -/
  | unjudged (e : FlowError) :
      Looped branch before passes (branch.rounds passes ++ [branch.predicate])
        (branch.announced passes) (.error e)
  /-- The last action that is performed in a further pass fails. -/
  | broken (performed : List StepOutline) (e : FlowError) (initial : performed <+: branch.actions)
      (nonempty : performed ≠ []) :
      Looped branch before passes (branch.rounds passes ++ branch.predicate :: performed)
        (branch.announced passes ++ announcing performed) (.error e)

/-- How what is done in an item follows from its outline: the steps that are invoked, what the
engine reports by itself, and what it comes to. -/
inductive ItemOutline.Explains (item : ItemOutline) (invoked : List StepOutline)
    (notices : List Notice) (outcome : Except FlowError (Option Values)) : Prop
  | evaluated (kind : item.kind ≠ .loop)
      (evaluated : Evaluated 0 item.branches invoked notices outcome)
  | looped {branch : BranchOutline} {passes : Nat} (kind : item.kind = .loop)
      (only : item.branches.head? = some branch)
      (looped : Looped branch 0 passes invoked notices outcome)
  /-- There is nothing to be repeated. -/
  | idle (kind : item.kind = .loop) (nothing : item.branches = []) (made : invoked = [])
      (silent : notices = []) (ended : outcome = .ok none)

/-- A branch whose predicate does not hold may come first. -/
theorem Evaluated.cons {first : Nat} {branches : List BranchOutline} {invoked : List StepOutline}
    {notices : List Notice} {outcome : Except FlowError (Option Values)}
    (evaluated : Evaluated (first + 1) branches invoked notices outcome) (branch : BranchOutline) :
    Evaluated first (branch :: branches) (branch.predicate :: invoked)
      (.predicateFalse first :: notices) outcome := by
  have hnumber (number : Nat) : first + 1 + number = first + (number + 1) := by omega
  cases evaluated with
  | unmatched => exact .unmatched
  | unjudged number e found => exact .unjudged (number + 1) e (Nat.succ_lt_succ found)
  | finished number matched output found =>
      rw [hnumber]
      exact .finished (number + 1) matched output found
  | broken number matched performed e found initial nonempty =>
      rw [hnumber]
      exact .broken (number + 1) matched performed e found initial nonempty

/-- One more full pass may come first. -/
theorem Looped.cons {branch : BranchOutline} {before passes : Nat} {invoked : List StepOutline}
    {notices : List Notice} {outcome : Except FlowError (Option Values)}
    (looped : Looped branch (before + 1) passes invoked notices outcome) :
    Looped branch before (passes + 1) (branch.predicate :: branch.actions ++ invoked)
      (announcing branch.actions ++ notices) outcome := by
  have hrounds (more : List StepOutline) : branch.predicate :: branch.actions ++
      (branch.rounds passes ++ more) = branch.rounds (passes + 1) ++ more :=
    (List.append_assoc ..).symm
  have hannounced (more : List Notice) : announcing branch.actions ++
      (branch.announced passes ++ more) = branch.announced (passes + 1) ++ more :=
    (List.append_assoc ..).symm
  have hpasses : before + 1 + passes = before + (passes + 1) := by omega
  cases looped with
  | finished output =>
      rw [hrounds, hannounced, hpasses]
      exact .finished output
  | unjudged e =>
      rw [hrounds]
      exact .unjudged e
  | broken performed e initial nonempty =>
      rw [hrounds, hannounced]
      exact .broken performed e initial nonempty

/-! ## What the engine reports in an item -/

/-- Actions that are performed are a prefix of those that are declared, all of them where there is
an output. -/
theorem Performed.outlines {config : Config} {actions : List (Step υ)} {carried : Values}
    {entries : List (Entry υ)} {outcome : Option (Except Fault Values)}
    (performed : Performed config actions carried entries outcome) :
    entries.map Entry.outline <+: actions.map Step.outline ∧
      ∀ output, outcome = some (.ok output) →
        entries.map Entry.outline = actions.map Step.outline := by
  have houtline : entries.map Entry.outline = (entries.map (·.step)).map Step.outline :=
    List.map_map.symm
  obtain ⟨initial, all⟩ := performed.steps
  rw [houtline]
  exact ⟨initial.map Step.outline, fun output hok => congrArg _ (all output hok)⟩

/-- How a turn comes to an end at a slot with this outline: the steps that are invoked, what the
engine reports by itself, where it announces a match with these notices, and what it comes to. -/
inductive BranchOutline.Tried (branch : BranchOutline) (notices : List Notice) :
    List StepOutline → List Notice → Except FlowError (Option Values) → Prop
  | unmatched : Tried branch notices [branch.predicate] [] (.ok none)
  | unjudged (e : FlowError) : Tried branch notices [branch.predicate] [] (.error e)
  | finished (output : Values) :
      Tried branch notices (branch.predicate :: branch.actions)
        (notices ++ announcing branch.actions) (.ok (some output))
  | broken (performed : List StepOutline) (e : FlowError) (initial : performed <+: branch.actions)
      (nonempty : performed ≠ []) :
      Tried branch notices (branch.predicate :: performed) (notices ++ announcing performed)
        (.error e)

theorem Slot.tried_turn {config : Config} {notices : List Notice} {branch : Nat}
    {spans : List Span} {slot : Slot υ} {acts : List (Act υ)} {st mid : Store υ}
    {outcome : Except FlowError (Option Values)} {left : List (Act υ)}
    (ended : (slot.turn config notices branch spans acts st).halt = .ended mid outcome left)
    (r : ResultSet) :
    slot.outline.Tried notices
      ((slot.turn config notices branch spans acts st).entries.map Entry.outline)
      ((((slot.plan notices).under spans).told config acts st r).map Event.notice) outcome := by
  have hholds := @told_plan_of_holds υ config notices branch spans slot acts st r
  have hfails := @told_plan_of_not_holds υ config notices branch spans slot acts st r
  have htaken := slot.taken_turn config notices branch spans acts st
  generalize slot.turn config notices branch spans acts st = t at *
  have hentries (step : t.check.toInvocation = slot.check) : t.entries.map Entry.outline =
      slot.outline.predicate :: t.actions.map Entry.outline :=
    congrArg (fun i : Invocation υ => i.step.outline :: t.actions.map Entry.outline) step
  cases htaken with
  | @stopped fault step stops nothing houtcome =>
      rw [hentries step, nothing, hfails fun truthy => truthy.not_stops stops]
      rw [ended] at houtcome
      rcases outcome with e | output
      · exact .unjudged e
      · cases fault <;> cases houtcome
  | unmatched step hcourse falsy nothing halts =>
      have hjudges := Entry.judges_of_course hcourse
      rw [falsy] at hjudges
      rw [hentries step, nothing, hfails fun truthy => Bool.noConfusion (truthy.unique hjudges)]
      rw [ended] at halts
      cases halts
      exact .unmatched
  | @matched result step truthy performed houtcome =>
      rw [hentries step, hholds truthy]
      rw [ended] at houtcome
      rcases outcome with e | _ | output
      · obtain rfl : result = (some (Fault.error e)).map .error := by
          rcases result with _ | _ | output <;> cases houtcome
          rfl
        obtain ⟨before, last, hactions, -⟩ := performed.stops
        exact .broken _ e performed.outlines.1 (by simp [hactions])
      · rcases result with _ | _ | output <;> cases houtcome
      · obtain rfl : result = some (.ok output) := by
          rcases result with _ | _ | output <;> cases houtcome
          rfl
        rw [performed.outlines.2 output rfl]
        exact .finished output

namespace BranchOutline.Tried

variable {branch : BranchOutline} {invoked : List StepOutline} {announced notices : List Notice}
  {outcome : Except FlowError (Option Values)}

theorem of_unmatched (tried : branch.Tried announced invoked notices (.ok none)) :
    invoked = [branch.predicate] ∧ notices = [] := by
  cases tried
  exact ⟨rfl, rfl⟩

theorem of_finished {output : Values}
    (tried : branch.Tried announced invoked notices (.ok (some output))) :
    invoked = branch.predicate :: branch.actions ∧
      notices = announced ++ announcing branch.actions := by
  cases tried
  exact ⟨rfl, rfl⟩

/-- A condition that does not go on after a turn comes to what that came to. -/
theorem evaluated {first : Nat}
    (tried : branch.Tried [.branchMatched first] invoked notices outcome)
    (stops : outcome ≠ .ok none) (rest : List BranchOutline) :
    Evaluated first (branch :: rest) invoked notices outcome := by
  cases tried with
  | unmatched => exact absurd rfl stops
  | unjudged e => exact .unjudged 0 e (Nat.zero_lt_succ _)
  | finished output => exact .finished 0 branch output rfl
  | broken performed e initial nonempty => exact .broken 0 branch performed e rfl initial nonempty

/-- A loop that fails with its turn has completed no pass. -/
theorem looped {before : Nat} {e : FlowError} (tried : branch.Tried [] invoked notices (.error e)) :
    Looped branch before 0 invoked notices (.error e) := by
  cases tried with
  | unjudged => exact .unjudged e
  | broken performed _ initial nonempty => exact .broken performed e initial nonempty

end BranchOutline.Tried

namespace Item

/-- Between its turns a condition reports that a predicate did not hold. -/
theorem told_evaluatePlan_cons (config : Config) (spans : List Span) (branch : Nat)
    (slot : Slot υ) (rest : List (Slot υ)) (acts : List (Act υ)) (st : Store υ) (r : ResultSet) :
    ((evaluatePlan branch (slot :: rest)).under spans).told config acts st r =
      ((slot.plan [.branchMatched branch]).under spans).told config acts st r ++
        match (slot.turn config [.branchMatched branch] branch spans acts st).halt with
        | .ended mid (.ok none) left => ⟨.predicateFalse branch, spans⟩ ::
            ((evaluatePlan (branch + 1) rest).under spans).told config left
              (mid.report spans (.predicateFalse branch)) r
        | _ => [] := by
  rw [evaluatePlan_cons, Plan.under_bind, Plan.told_bind,
    slot.account_plan config [.branchMatched branch] branch spans]
  rcases (slot.turn config [.branchMatched branch] branch spans acts st).halt with
    ⟨mid, e | _ | output, left⟩ | ⟨mid, payload⟩ | ⟨mid, onDrop⟩ | mid
  · rfl
  · simp only [Plan.under, Plan.told_report, List.append_nil]
  · rfl
  · rfl
  · rfl
  · rfl

/-- After its last turn a loop reports its passes. -/
theorem told_repeatPlan_succ (config : Config) (spans : List Span) (slot : Slot υ) (passes : Nat)
    (last : Option Values) (limit : Nat) (acts : List (Act υ)) (st : Store υ) (r : ResultSet) :
    ((repeatPlan config slot passes last (limit + 1)).under spans).told config acts st r =
      ((slot.plan []).under spans).told config acts st r ++
        match (slot.turn config [] 0 spans acts st).halt with
        | .ended _ (.ok none) _ => [⟨.loopFinished passes, spans⟩]
        | .ended mid (.ok (some output)) left =>
            ((repeatPlan config slot (passes + 1) (some output) limit).under spans).told config left
              mid r
        | _ => [] := by
  rw [repeatPlan_succ, Plan.under_bind, Plan.told_bind, slot.account_plan config [] 0 spans]
  rcases (slot.turn config [] 0 spans acts st).halt with
    ⟨mid, e | _ | output, left⟩ | ⟨mid, payload⟩ | ⟨mid, onDrop⟩ | mid
  · rfl
  · simp only [Plan.under, Plan.told_report, Plan.told_done, List.append_nil]
  · rfl
  · rfl
  · rfl
  · rfl

/-- What is done in a condition follows from its outline. -/
theorem evaluated_evaluatePlan {config : Config} {first : Nat} {slots : List (Slot υ)}
    {spans : List Span} {acts left : List (Act υ)} {st last : Store υ} {r : ResultSet}
    {outcome : Except FlowError (Option Values)}
    (ended : (((evaluatePlan first slots).under spans).account config acts st r).halt =
      .ended last outcome left) :
    let p := (evaluatePlan first slots).under spans
    Evaluated first (slots.map Slot.outline)
      ((p.account config acts st r).entries.map Entry.outline)
      ((p.told config acts st r).map Event.notice) outcome := by
  induction slots generalizing first acts st with
  | nil =>
      cases ended
      exact .unmatched
  | cons slot rest ih =>
      have htried (mid : Store υ) (outcome : Except FlowError (Option Values))
          (left : List (Act υ)) :=
        @Slot.tried_turn υ config [.branchMatched first] first spans slot acts st mid outcome left
      simp only [account_evaluatePlan_cons] at ended ⊢
      rw [told_evaluatePlan_cons, List.map_append]
      generalize slot.turn config [.branchMatched first] first spans acts st = t at *
      obtain ⟨number, check, actions, halt⟩ := t
      -- Only a turn without a match is followed by anything.
      rcases halt with ⟨mid, e | _ | output, later⟩ | ⟨mid, payload⟩ | ⟨mid, onDrop⟩ | mid
      · cases ended
        simp only [Account.andThen, List.append_nil, List.map_nil]
        exact (htried _ _ _ rfl r).evaluated (by simp) _
      · obtain ⟨hinvoked, hnotices⟩ := (htried _ _ _ rfl r).of_unmatched
        simp only [Account.andThen, List.map_append, hinvoked, hnotices]
        exact (ih ended).cons slot.outline
      · cases ended
        simp only [Account.andThen, List.append_nil, List.map_nil]
        exact (htried _ _ _ rfl r).evaluated (by simp) _
      · cases ended
      · cases ended
      · cases ended

/-- What is done in a loop follows from its outline, pass by pass. -/
theorem looped_repeatPlan {config : Config} {slot : Slot υ} {before : Nat}
    {latest : Option Values} {limit : Nat} {spans : List Span} {acts left : List (Act υ)}
    {st last : Store υ} {r : ResultSet} {outcome : Except FlowError (Option Values)}
    (ended : (((repeatPlan config slot before latest limit).under spans).account config acts st
      r).halt = .ended last outcome left) :
    let p := (repeatPlan config slot before latest limit).under spans
    ∃ passes, Looped slot.outline before passes
      ((p.account config acts st r).entries.map Entry.outline)
      ((p.told config acts st r).map Event.notice) outcome := by
  induction limit generalizing before latest acts st with
  | zero => cases ended
  | succ limit ih =>
      have htried (mid : Store υ) (outcome : Except FlowError (Option Values))
          (left : List (Act υ)) :=
        @Slot.tried_turn υ config [] 0 spans slot acts st mid outcome left
      simp only [account_repeatPlan_succ] at ended ⊢
      rw [told_repeatPlan_succ, List.map_append]
      generalize slot.turn config [] 0 spans acts st = t at *
      obtain ⟨number, check, actions, halt⟩ := t
      -- Only a turn whose predicate holds is followed by another one.
      rcases halt with ⟨mid, e | _ | output, later⟩ | ⟨mid, payload⟩ | ⟨mid, onDrop⟩ | mid
      · cases ended
        simp only [Account.andThen, List.append_nil, List.map_nil]
        exact ⟨0, (htried _ _ _ rfl r).looped⟩
      · cases ended
        obtain ⟨hinvoked, hnotices⟩ := (htried _ _ _ rfl r).of_unmatched
        simp only [Account.andThen, List.append_nil, hinvoked, hnotices]
        exact ⟨0, .finished _⟩
      · obtain ⟨passes, looped⟩ := ih ended
        obtain ⟨hinvoked, hnotices⟩ := (htried _ _ _ rfl r).of_finished
        simp only [Account.andThen, List.map_append, hinvoked, hnotices]
        exact ⟨passes + 1, looped.cons⟩
      · cases ended
      · cases ended
      · cases ended

end Item

theorem Item.outline_explains {limit : Nat} {config : Config} {spans : List Span}
    {acts left : List (Act υ)} {st last : Store υ} {item : Item υ}
    {outcome : Except FlowError (Option Values)}
    (ended : (item.passage limit config spans acts st).course = .ended last outcome left)
    (index : Nat) (r : ResultSet) :
    let p := (item.plan limit config).under spans
    (item.outline index).Explains
      ((item.passage limit config spans acts st).entries.map Entry.outline)
      ((p.told config acts st r).map Event.notice) outcome := by
  have haccount := item.account_plan limit config spans acts st r
  rw [ended] at haccount
  have hentries := congrArg Account.entries haccount
  have hhalt := congrArg Account.halt haccount
  dsimp only at hentries hhalt
  rw [← hentries]
  have hkind : (item.outline index).kind = item.kind := rfl
  unfold plan at hhalt ⊢
  cases hitem : item.kind with
  | chain =>
      simp only [hitem] at hhalt ⊢
      exact .evaluated (by simp [hkind, hitem]) (evaluated_evaluatePlan hhalt)
  | condition =>
      simp only [hitem] at hhalt ⊢
      exact .evaluated (by simp [hkind, hitem]) (evaluated_evaluatePlan hhalt)
  | loop =>
      simp only [hitem] at hhalt ⊢
      cases hslot : item.slots.head? with
      | none =>
          simp only [hslot] at hhalt ⊢
          cases hhalt
          have hslots : item.slots = [] := List.head?_eq_none_iff.1 hslot
          refine .idle hitem ?_ rfl rfl rfl
          rw [outline, hslots, List.map_nil]
      | some slot =>
          simp only [hslot] at hhalt ⊢
          obtain ⟨passes, looped⟩ := looped_repeatPlan hhalt
          refine .looped hitem ?_ looped
          rw [outline, List.head?_map, hslot, Option.map_some]

end Stepwise
