import Stepwise.Proofs.Passages
/-!
# The first failure ends a run

A run that ends by itself fails just if one of its invocations does.  It starts nothing after that
invocation, its error is that of the invocation, and its results are those of the items before.
-/

namespace Stepwise

variable {υ : Type}

namespace Scene

/-- The run fails with the given invocation, in the item that it comes to last. -/
structure FailsWith (S : Scene υ) (e : FlowError) (entry : Entry υ) (firsts : List (Passage υ))
    (failing : Passage υ) : Prop where
  settled : entry.settlement? S.flow.config = some (.error e)
  passages : S.passages = firsts ++ [failing]
  items : S.passages.map Passage.item <+: S.flow.sequence.items
  finishes : ∀ p ∈ firsts, p.Finishes
  fails : failing.FailsWith e
  /-- Nothing is invoked after it, and nothing fails before. -/
  entries : ∃ before, S.entries = before ++ [entry] ∧ ∀ other ∈ before, other.Succeeds S.flow.config
  within : ∃ before, failing.entries = before ++ [entry]

/-- In a run that finishes its items no invocation fails; a run that does not fails with one. -/
theorem succeeds_or_failsWith {S : Scene υ} (declared : S.flow.buildError = none) {st : Store υ}
    {completion : Completion} {left : List (Act υ)}
    (hended : S.account.halt = .ended st completion left) :
    (completion = .ok S.account.results ∧ ∀ entry ∈ S.entries, entry.Succeeds S.flow.config) ∨
      ∃ e entry firsts failing, completion = .error e ∧ S.FailsWith e entry firsts failing := by
  obtain ⟨hentries, -, hconcludes⟩ := S.account_passages
  have hfirst (p : Passage υ) (hmem : p ∈ S.passages) :
      Account.FailsFirst S.flow.config ⟨p.entries, .empty, p.course.halt⟩ := by
    unfold passages at hmem
    rw [declared] at hmem
    exact failsFirst_of_mem_passages hmem
  have hsucceeds {ps : List (Passage υ)} (hsub : ps ⊆ S.passages) (hfinishes : ∀ p ∈ ps, p.Finishes)
      (entry : Entry υ) (hmem : entry ∈ ps.flatMap Passage.entries) :
      entry.Succeeds S.flow.config := by
    obtain ⟨p, hp, hentry⟩ := List.mem_flatMap.1 hmem
    obtain ⟨mid, output, rest, hcourse⟩ := hfinishes p hp
    have hall := hfirst p (hsub hp)
    rw [hcourse] at hall
    exact hall entry hentry
  rw [hended] at hconcludes
  cases completion with
  | ok results =>
      obtain ⟨-, rfl, -, hfinishes⟩ := hconcludes
      refine .inl ⟨rfl, ?_⟩
      rw [hentries]
      exact hsucceeds (List.Subset.refl _) hfinishes
  | error e =>
      rcases hconcludes with ⟨error, hbuild, -⟩ | ⟨-, hitems, firsts, failing, hpassages, hfinishes,
        hfails⟩
      · rw [declared] at hbuild
        cases hbuild
      · have hfailing : failing ∈ S.passages := by
          rw [hpassages]
          exact List.mem_append_right firsts List.mem_cons_self
        obtain ⟨mid, rest, hcourse⟩ := hfails
        have hlast := hfirst failing hfailing
        rw [hcourse] at hlast
        obtain ⟨before, entry, hwithin, hsettled, hbefore⟩ := hlast
        refine .inr ⟨e, entry, firsts, failing, rfl, hsettled, hpassages, hitems, hfinishes,
          ⟨mid, rest, hcourse⟩, ⟨firsts.flatMap Passage.entries ++ before, ?_, ?_⟩, before, hwithin⟩
        · have hwhole : failing.entries = before ++ [entry] := hwithin
          rw [hentries, hpassages, List.flatMap_append, List.flatMap_singleton, hwhole,
            List.append_assoc]
        · intro other hother
          rcases List.mem_append.1 hother with hother | hother
          · refine hsucceeds ?_ hfinishes other hother
            rw [hpassages]
            exact List.subset_append_left firsts [failing]
          · exact hbefore other hother

theorem FailsWith.mem {S : Scene υ} {e : FlowError} {entry : Entry υ} {firsts : List (Passage υ)}
    {failing : Passage υ} (fails : S.FailsWith e entry firsts failing) : entry ∈ S.entries := by
  obtain ⟨before, hentries, -⟩ := fails.entries
  rw [hentries]
  exact List.mem_append_right before List.mem_cons_self

/-- If an invocation fails, then the run fails with it. -/
theorem FailsWith.of_mem {S : Scene υ} {e e' : FlowError} {entry other : Entry υ}
    {firsts : List (Passage υ)} {failing : Passage υ} (fails : S.FailsWith e entry firsts failing)
    (hmem : other ∈ S.entries) (hsettled : other.settlement? S.flow.config = some (.error e')) :
    other = entry ∧ e' = e := by
  obtain ⟨before, hentries, hbefore⟩ := fails.entries
  rw [hentries] at hmem
  rcases List.mem_append.1 hmem with hother | hother
  · obtain ⟨output, houtput⟩ := hbefore other hother
    rw [houtput] at hsettled
    cases hsettled
  · obtain rfl := List.mem_singleton.1 hother
    have hsame := hsettled.symm.trans fails.settled
    cases hsame
    exact ⟨rfl, rfl⟩

end Scene

namespace Host

/-- A run that returns leaves the results of its plan. -/
theorem halt_of_watch_ended {limit : Nat} {h last : Host υ} {acts : List (Act υ)}
    {completion : Completion} (hended : (h.start limit).watch acts = (.ended completion, last)) :
    (∃ st left, (h.scene limit acts).account.halt = .ended st completion left) ∧
      last.flow.results = (h.scene limit acts).account.results := by
  refine ⟨(returns_iff_watch.2 (congrArg Prod.fst hended)).account, ?_⟩
  rw [watch_eq_halt] at hended
  cases hhalt : (h.scene limit acts).halt <;> rw [hhalt] at hended <;> cases hended
  rfl

/-- A run of a flow that was declared rightly, and that ends by itself.  It ends with an error just
if one of its invocations does.  That invocation is the last one of the run, its error is the one
the run ends with, and the results are those of the items before, without any of the one that fails.
If no invocation fails, the run ends with its results. -/
theorem first_failure_ends_run {limit : Nat} {h last : Host υ} {acts : List (Act υ)}
    {completion : Completion} (declared : h.flow.buildError = none)
    (hended : (h.start limit).watch acts = (.ended completion, last)) :
    let run := h.scene limit acts
    (∀ e, completion = .error e ↔
      ∃ entry ∈ run.entries, entry.settlement? h.flow.config = some (.error e)) ∧
    (∀ entry ∈ run.entries, ∀ e, entry.settlement? h.flow.config = some (.error e) →
      ∃ firsts failing, run.FailsWith e entry firsts failing ∧
        last.flow.results = ⟨firsts.filterMap Passage.value?⟩) ∧
    ((∀ entry ∈ run.entries, ∀ e, entry.settlement? h.flow.config ≠ some (.error e)) →
      completion = .ok last.flow.results) := by
  intro run
  obtain ⟨⟨st, left, hhalt⟩, hresults⟩ := halt_of_watch_ended hended
  rcases run.succeeds_or_failsWith declared hhalt with
    ⟨rfl, hsucceeds⟩ | ⟨e, entry, firsts, failing, rfl, hfails⟩
  · have hnone (entry : Entry υ) (hmem : entry ∈ run.entries) (e : FlowError) :
        entry.settlement? h.flow.config ≠ some (.error e) := by
      obtain ⟨output, houtput⟩ := hsucceeds entry hmem
      intro hsettled
      cases houtput.symm.trans hsettled
    refine ⟨fun e => ⟨fun herror => (nomatch herror), fun ⟨entry, hmem, hsettled⟩ => ?_⟩, ?_, ?_⟩
    · exact absurd hsettled (hnone entry hmem e)
    · exact fun entry hmem e hsettled => absurd hsettled (hnone entry hmem e)
    · exact fun _ => congrArg Except.ok hresults.symm
  · refine ⟨fun e' => ⟨fun herror => ?_, fun ⟨other, hother, hsettled⟩ => ?_⟩, ?_, fun hnone => ?_⟩
    · cases herror
      exact ⟨entry, hfails.mem, hfails.settled⟩
    · rw [(hfails.of_mem hother hsettled).2]
    · intro other hother e' hsettled
      obtain ⟨rfl, rfl⟩ := hfails.of_mem hother hsettled
      refine ⟨firsts, failing, hfails, ?_⟩
      rw [hresults, run.account_passages.2.1, hfails.passages, List.filterMap_append,
        List.filterMap_cons_none (Passage.value?_of_failsWith hfails.fails), List.filterMap_nil,
        List.append_nil]
    · exact absurd hfails.settled (hnone entry hfails.mem e)

end Host

/-- A loop that records its passes and runs out of stock in the second one, between two chains. -/
def failingHost : Host Nat :=
  { store := { user := 0 }
    flow := {
      config := { recordLoopResults := true }
      sequence := { items := [.chain (.single (.int 1)),
        ⟨.loop, [⟨.always, [.sync fun _ => .user (· + 1) fun n =>
          .done (if n = 0 then .ok (.single (.int 5)) else .error (.outOfStock 4))]⟩], true⟩,
        .chain (.single (.int 9))] } } }

/-- The second pass of the loop ends the run, and the first one leaves no result. -/
theorem first_failure_ends_run_looping :
    let run := failingHost.scene 3 []
    let last := ((failingHost.start 3).watch []).2
    last.store.user = 2 ∧ last.flow.results = ⟨[.int 1]⟩ ∧ run.entries.length = 6 ∧
      ∃ entry ∈ run.entries, ∃ firsts failing,
        run.FailsWith (.failed (.outOfStock 4)) entry firsts failing := by
  intro run last
  have hended : (failingHost.start 3).watch [] =
      (.ended (.error (.failed (.outOfStock 4))), last) := rfl
  obtain ⟨hfails, hlast, -⟩ := Host.first_failure_ends_run rfl hended
  obtain ⟨entry, hmem, hsettled⟩ := (hfails _).1 rfl
  obtain ⟨firsts, failing, hwith, -⟩ := hlast entry hmem _ hsettled
  have huser : last.store.user = 2 := rfl
  have hresults : last.flow.results = ⟨[.int 1]⟩ := rfl
  have hcount : run.entries.length = 6 := by decide +kernel
  exact ⟨huser, hresults, hcount, entry, hmem, firsts, failing, hwith⟩

end Stepwise
