import Stepwise.Outline
import Stepwise.Proofs.Grammar
import Stepwise.Proofs.Unbuilt
/-!
# Flows that were declared wrongly

The mistake of the first clause that is refused stays with a flow, whatever is done with it later.
From then on every run is refused with it: nothing is invoked, no results are left, and the
resolvers are told, which are all that can still touch the store.  The clauses that fit go on to
extend the sequence as if those that are refused had never been declared.
-/

namespace Stepwise

variable {υ : Type}

/-! ## Clauses that are refused -/

namespace Sequence

/-- The mistake of the first clause that is refused, if one is. -/
def refusal? (s : Sequence υ) : List (Clause υ) → Option BuildError
  | [] => none
  | clause :: word =>
      match s.declare clause with
      | .ok s => s.refusal? word
      | .error error => some error

/-- The clauses that are not refused. -/
def fitting (s : Sequence υ) : List (Clause υ) → List (Clause υ)
  | [] => []
  | clause :: word =>
      match s.declare clause with
      | .ok s => clause :: s.fitting word
      | .error _ => s.fitting word

/-- Clauses that all fit add their steps in order. -/
theorem steps_foldlM {s later : Sequence υ} {word : List (Clause υ)}
    (hok : word.foldlM declare s = .ok later) :
    later.steps = s.steps ++ word.flatMap Clause.steps := by
  induction word generalizing s with
  | nil =>
      cases hok
      exact (List.append_nil _).symm
  | cons clause word ih =>
      rw [List.foldlM_cons] at hok
      cases hdeclare : s.declare clause with
      | ok mid =>
          rw [hdeclare] at hok
          rw [ih hok, steps_declare hdeclare, List.flatMap_cons, List.append_assoc]
      | error error =>
          rw [hdeclare] at hok
          cases hok

end Sequence

/-- The outlines of all steps, in order. -/
def Outline.steps (outline : Outline) : List StepOutline :=
  outline.items.flatMap fun item =>
    item.branches.flatMap fun branch => branch.predicate :: branch.actions

theorem Sequence.steps_outline (s : Sequence υ) : s.outline.steps = s.steps.map Step.outline := by
  have hslot (slot : Slot υ) : slot.outline.predicate :: slot.outline.actions =
      slot.steps.map Step.outline := rfl
  have hitem (item : Item υ) (index : Nat) : ((item.outline index).branches.flatMap fun branch =>
      branch.predicate :: branch.actions) = item.steps.map Step.outline := by
    simp only [Item.outline, Item.steps, List.flatMap_map, List.map_flatMap, hslot]
  unfold outline Outline.steps steps
  rw [List.map_flatMap, List.mapIdx_eq_zipIdx_map, List.flatMap_map]
  simp only [hitem]
  rw [← List.flatMap_map Prod.fst fun item : Item υ => item.steps.map Step.outline,
    List.zipIdx_map_fst]

/-! ## What a history declares -/

/-- The clause that is declared. -/
def Command.clause? : Command υ → Option (Clause υ)
  | declare clause => some clause
  | configure _ | onComplete _ | exec _ _ | execWith _ _ _ | act _ => none

namespace Host

/-- A run leaves a flow as it is, but for its results. -/
theorem flow_watch (limit : Nat) (h : Host υ) (acts : List (Act υ)) :
    ((h.start limit).watch acts).2.flow =
      { h.flow with results := (h.scene limit acts).account.results } := by
  rw [watch_eq_halt]
  cases (h.scene limit acts).halt <;> rfl

/-- A command that is no clause leaves what was declared as it is. -/
theorem declared_of_clause?_none {c : Command υ} (hnone : c.clause? = none) (h : Host υ) :
    (c.obey h).2.flow.sequence = h.flow.sequence ∧
      (c.obey h).2.flow.buildError = h.flow.buildError := by
  cases c with
  | declare clause => cases hnone
  | configure config => exact ⟨rfl, rfl⟩
  | onComplete resolver => exact ⟨rfl, rfl⟩
  | exec limit acts =>
      have hflow := h.flow_watch limit acts
      exact ⟨(congrArg Flow.sequence hflow :), (congrArg Flow.buildError hflow :)⟩
  | execWith limit resolver acts =>
      have hflow := (h.onComplete resolver).flow_watch limit acts
      exact ⟨(congrArg Flow.sequence hflow :), (congrArg Flow.buildError hflow :)⟩
  | act f => exact ⟨rfl, rfl⟩

/-- After any history the mistake is that of the first clause refused, and the sequence is that of
the clauses that fit. -/
theorem declared_live (h : Host υ) (history : List (Command υ)) :
    (h.live history).2.flow.buildError =
        h.flow.buildError.or (h.flow.sequence.refusal? (history.filterMap Command.clause?)) ∧
      (h.flow.sequence.fitting (history.filterMap Command.clause?)).foldlM Sequence.declare
        h.flow.sequence = .ok (h.live history).2.flow.sequence := by
  induction history generalizing h with
  | nil => exact ⟨(Option.or_none).symm, rfl⟩
  | cons c history ih =>
      obtain ⟨herror, hsequence⟩ := ih (c.obey h).2
      rw [live]
      cases hclause : c.clause? with
      | none =>
          obtain ⟨hsame, hsameError⟩ := declared_of_clause?_none hclause h
          rw [hsame] at hsequence
          rw [hsame, hsameError] at herror
          rw [List.filterMap_cons_none hclause]
          exact ⟨herror, hsequence⟩
      | some clause =>
          obtain rfl : c = .declare clause := by
            cases c <;> cases hclause
            rfl
          have hflow : ((Command.declare clause).obey h).2.flow = (h.flow.extend clause).1 :=
            h.flow_declare clause
          rw [List.filterMap_cons_some hclause]
          rw [hflow] at herror hsequence
          cases hdeclare : h.flow.sequence.declare clause with
          | ok s =>
              rw [Flow.extend_of_ok hdeclare] at herror hsequence
              simp only [Sequence.refusal?, Sequence.fitting, hdeclare, List.foldlM_cons]
              exact ⟨herror, hsequence⟩
          | error error =>
              rw [Flow.extend_of_error hdeclare] at herror hsequence
              simp only [Sequence.refusal?, Sequence.fitting, hdeclare]
              refine ⟨herror.trans ?_, hsequence⟩
              -- The mistake made first is kept.
              simp only [Flow.reject]
              cases h.flow.buildError <;> rfl

/-! ## Runs that are refused -/

/-- The run refuses a flow for a mistake in its declaration. -/
structure Refuses (h : Host υ) (error : BuildError) (limit : Nat) (acts : List (Act υ)) : Prop where
  entries : (h.scene limit acts).entries = []
  flow : ((h.start limit).watch acts).2.flow = { h.flow with results := .empty }
  /-- The run itself only reports.  The rest is what the resolvers do. -/
  store : ((h.start limit).watch acts).2.store =
    ((Flow.notify (.error (.build error)) h.flow.resolvers).run
      (h.store.report [.flow h.flow.config.spanLabel] (.refused error))).2
  /-- If no resolver panics, the run returns the mistake. -/
  returns : (∀ resolver ∈ h.flow.resolvers, Resolver.Quiet resolver) →
    ((h.start limit).watch acts).1 = .ended (.error (.build error))
  /-- The first resolver that panics unwinds it. -/
  unwinds : ∀ payload, ((Flow.notify (.error (.build error)) h.flow.resolvers).run
      (h.store.report [.flow h.flow.config.spanLabel] (.refused error))).1 = .error payload →
    ((h.start limit).watch acts).1 = .unwound payload
  /-- Each resolver is told of it once, in order, and no step does anything. -/
  told : (∀ resolver ∈ h.flow.resolvers, Resolver.Quiet resolver) → ∀ log,
    ((h.logged log).start limit).watch (acts.map Act.aside) =
      (.ended (.error (.build error)), ((h.start limit).watch acts).2.logged
        (log ++ (List.range h.flow.resolvers.length).map (.told · (.error (.build error)))))

/-- A run that is refused ends as its resolvers do. -/
theorem watch_refused {h : Host υ} {error : BuildError} (hbuild : h.flow.buildError = some error)
    (limit : Nat) (acts : List (Act υ)) :
    (h.start limit).watch acts =
      match (Flow.notify (.error (.build error)) h.flow.resolvers).run
        (h.store.report [.flow h.flow.config.spanLabel] (.refused error)) with
      | (.ok _, last) => (.ended (.error (.build error)), h.leave (last.attach .empty))
      | (.error payload, last) => (.unwound payload, h.leave (last.attach .empty)) := by
  have haccount := Scene.account_refused (S := h.scene limit acts) hbuild
  rw [watch_eq_halt]
  unfold Scene.halt
  rw [haccount]
  simp only [Halt.told, scene, Program.under_nil, List.nil_append]
  rcases (Flow.notify (.error (.build error)) h.flow.resolvers).run
    (h.store.report [.flow h.flow.config.spanLabel] (.refused error)) with ⟨_ | _, last⟩ <;> rfl

theorem watch_refused_quiet {h : Host υ} {error : BuildError}
    (hbuild : h.flow.buildError = some error)
    (quiet : ∀ resolver ∈ h.flow.resolvers, Resolver.Quiet resolver) (limit : Nat)
    (acts : List (Act υ)) :
    (h.start limit).watch acts = (.ended (.error (.build error)),
      h.leave (((Flow.notify (.error (.build error)) h.flow.resolvers).run
        (h.store.report [.flow h.flow.config.spanLabel] (.refused error))).2.attach .empty)) := by
  have hnotify := Flow.run_notify (.error (.build error))
    (fun resolver hresolver => quiet resolver hresolver _)
    (h.store.report [.flow h.flow.config.spanLabel] (.refused error))
  rw [watch_refused hbuild]
  rcases hrun : (Flow.notify (.error (.build error)) h.flow.resolvers).run
    (h.store.report [.flow h.flow.config.spanLabel] (.refused error)) with ⟨result, last⟩
  rw [hrun] at hnotify
  obtain rfl : result = .ok () := hnotify
  rfl

/-- A flow with a mistake in its declaration is never run. -/
theorem refuses_of_buildError {h : Host υ} {error : BuildError}
    (hbuild : h.flow.buildError = some error) (limit : Nat) (acts : List (Act υ)) :
    h.Refuses error limit acts where
  entries := congrArg Account.entries (Scene.account_refused (S := h.scene limit acts) hbuild)
  flow := by
    rw [watch_refused hbuild]
    split <;> rfl
  store := by
    rw [watch_refused hbuild]
    split <;> rename_i hrun <;> rw [hrun] <;> rfl
  returns quiet := congrArg Prod.fst (watch_refused_quiet hbuild quiet limit acts)
  unwinds payload hpanic := by
    rw [watch_refused hbuild]
    split <;> rename_i hrun <;> rw [hrun] at hpanic <;> cases hpanic
    rfl
  told quiet log := by
    have hbuild' : (h.logged log).flow.buildError = some error := hbuild
    have htold := Flow.run_notify_logged quiet (.error (.build error)) 0
      (h.store.report [.flow h.flow.config.spanLabel] (.refused error)) log
    rw [watch_refused_quiet hbuild quiet, watch_refused_quiet hbuild'
      (Resolver.quiet_loggedFrom quiet 0), List.range_eq_range']
    refine Prod.ext rfl ?_
    exact congrArg (fun st => (h.logged log).leave (st.attach .empty)) htold

/-- Whatever was done with a flow: if a clause was refused, then every run refuses the flow with the
mistake of the first clause that was, however many clauses fitted and however many runs there were
before or after it.  A resolver that panics unwinds such a run, as it does any other.  The clauses
that fit extend the sequence and its outline as if the refused ones had not been declared.  If no
clause was refused, and nobody completes a continuation with such a mistake, no run returns one. -/
theorem refused_since_first_mistake (st : Store υ) (history : List (Command υ)) :
    let h := (({ store := st } : Host υ).live history).2
    let word := history.filterMap Command.clause?
    let fitting := Sequence.empty.fitting word
    (∀ error, Sequence.empty.refusal? word = some error → ∀ limit acts,
      h.Refuses error limit acts ∧
        ∀ resolver, (h.onComplete resolver).Refuses error limit acts) ∧
    (fitting.foldlM Sequence.declare .empty = .ok h.flow.sequence ∧
      h.flow.sequence.outline.steps = (fitting.flatMap Clause.steps).map Step.outline) ∧
    (Sequence.empty.refusal? word = none → st.Unbuilt → (∀ c ∈ history, c.Unbuilt) →
      ∀ run : Command υ, run.Unbuilt → ∀ error,
        (run.obey h).1 ≠ some (.ended (.error (.build error)))) := by
  intro h word fitting
  obtain ⟨hbuild, hsequence⟩ := declared_live ({ store := st } : Host υ) history
  refine ⟨fun error herror limit acts => ?_, ⟨hsequence, ?_⟩, fun hnone hst hhistory run hrun => ?_⟩
  · have hmistake : h.flow.buildError = some error := hbuild.trans herror
    exact ⟨refuses_of_buildError hmistake limit acts, fun resolver =>
      refuses_of_buildError (h := h.onComplete resolver) hmistake limit acts⟩
  · rw [Sequence.steps_outline, Sequence.steps_foldlM hsequence]
    rfl
  · have unbuilt : h.Unbuilt :=
      Unbuilt.live ⟨List.forall_mem_nil _, List.forall_mem_nil _, hst⟩ hhistory
    have declared : h.flow.buildError = none := hbuild.trans hnone
    intro error hended
    cases run with
    | exec limit acts => exact unbuilt.not_build declared limit hrun error (Option.some.inj hended)
    | execWith limit resolver acts =>
        exact (unbuilt.onComplete hrun.1).not_build declared limit hrun.2 error
          (Option.some.inj hended)
    | declare clause => cases hended
    | configure config => cases hended
    | onComplete resolver => cases hended
    | act f => cases hended

end Host

/-- A chain, which is run; then a branch that does not fit, one more chain, and a second run. -/
def mistakenHistory : List (Command Nat) :=
  [.onComplete countingResolver, .declare (.chain (.single (.int 1))), .exec 1 [],
    .declare (.elseIf .always), .declare (.chain (.single (.int 2))), .exec 1 []]

/-- A third run is refused as well, and the resolver told for the third time.  The second chain is
there.  Before the mistake no run could be refused. -/
theorem refused_since_first_mistake_again :
    let h := (countedHost.live mistakenHistory).2
    let last := (h.start 1).watch []
    last.1 = .ended (.error (.build (.notACondition .elseIf .chain))) ∧
      last.2.flow.results = .empty ∧ last.2.store.user = 3 ∧
      h.flow.sequence.outline.steps.length = 4 ∧
      ∀ error, ((Command.exec 1 []).obey (countedHost.live (mistakenHistory.take 2)).2).1 ≠
        some (.ended (.error (.build error))) := by
  intro h last
  obtain ⟨hrefused, ⟨-, houtline⟩, -⟩ :=
    Host.refused_since_first_mistake countedHost.store mistakenHistory
  obtain ⟨hrefuses, -⟩ := hrefused (.notACondition .elseIf .chain) rfl 1 []
  obtain ⟨-, -, hfree⟩ :=
    Host.refused_since_first_mistake countedHost.store (mistakenHistory.take 2)
  have quiet : ∀ resolver ∈ h.flow.resolvers, Resolver.Quiet resolver := by
    intro resolver hresolver completion st
    obtain rfl : resolver = countingResolver := List.mem_singleton.1 hresolver
    rfl
  have hstore : countedHost.store.Unbuilt := by
    refine ⟨List.forall_mem_nil _, fun handle _ s waiting hchannel => ?_⟩
    cases hchannel
  have hhistory : ∀ c ∈ mistakenHistory.take 2, c.Unbuilt := by
    refine List.forall_mem_cons.2 ⟨fun _ _ => trivial, List.forall_mem_singleton.2 ?_⟩
    intro step hstep
    have hcases : step = .always ∨ step = .constant (.single (.int 1)) := by
      simpa [Clause.steps] using hstep
    rcases hcases with rfl | rfl
    · exact fun _ => trivial
    · exact fun _ => trivial
  have hcount : h.flow.sequence.outline.steps.length = 4 := congrArg List.length houtline
  have huser : last.2.store.user = 3 := by decide +kernel
  exact ⟨hrefuses.returns quiet, congrArg Flow.results hrefuses.flow, huser, hcount,
    hfree rfl hstore hhistory (.exec 1 []) (List.forall_mem_nil _)⟩

/-- An action without an item, and a resolver that panics before another one counts. -/
def silencedHistory : List (Command Nat) :=
  [.declare (.andThen .always), .onComplete fun _ => .panic (.text "told"),
    .onComplete countingResolver]

/-- A run that is refused does not return its mistake if a resolver panics, and the resolvers after
that one are not told. -/
theorem refusal_lost_by_panic :
    let h := (countedHost.live silencedHistory).2
    Sequence.empty.refusal? (silencedHistory.filterMap Command.clause?) =
        some (.noOpenItem .andThen) ∧
      ((h.start 1).watch []).1 = .unwound (.text "told") ∧
      ((h.start 1).watch []).2.store.user = 0 := by
  refine ⟨rfl, ?_, ?_⟩ <;> rfl

end Stepwise
