import Stepwise.Proofs.Dispatch
import Stepwise.Proofs.Drafts
/-!
# Items that always come to an output

A chain, and a condition that accepted a fallback, end in a slot that always matches.  So one of
their slots is selected whenever an evaluation ends without a fault, and the last one is exactly if
all the others were asked in vain.  However a sequence is built on, that slot stays the last.
-/

namespace Stepwise

variable {υ : Type}

/-- The last slot always matches, and has an action: the fallback, if there is one. -/
theorem Drafted.Built.exists_always {e : Drafted υ} (built : e.Built)
    (exhaustive : e.item.kind = .chain ∨ ∃ action, e.fallback = some action) :
    ∃ firsts first thens, e.item.slots = firsts ++ [⟨.always, first :: thens⟩] ∧
      (∀ action, e.fallback = some action → action = first) ∧ e.item.closed = true := by
  cases built with
  | chain initial thens => exact ⟨[], _, thens, rfl, fun action h => (nomatch h), rfl⟩
  | loop slot => rcases exhaustive with h | ⟨action, h⟩ <;> cases h
  | unclosed firsts slot => rcases exhaustive with h | ⟨action, h⟩ <;> cases h
  | closed firsts slot action thens =>
      exact ⟨firsts ++ [slot], action, thens, rfl, fun action h => (Option.some.inj h).symm, rfl⟩

section Evaluation

variable {config : Config} {firsts : List (Slot υ)} {actions : List (Step υ)}
  {entries : List (Entry υ)} {outcome : Option (Except Fault (Option Values))}

theorem Dispatched.exists_unique_selected
    (dispatched : Dispatched config (firsts ++ [⟨.always, actions⟩]) entries outcome)
    {result : Option Values} (ended : outcome = some (.ok result)) :
    ∃ output, result = some output ∧ ∃! branch,
      Selected config (firsts ++ [⟨.always, actions⟩]) branch entries (some (.ok output)) := by
  rcases dispatched.selected_or_stopped with
    ⟨branch, performed, selected, rfl⟩ | ⟨before, check, fault, -, -, -, rfl⟩
  · rcases performed with _ | _ | output <;> cases ended
    exact ⟨output, rfl, branch, selected, fun _ selected' => selected'.unique selected⟩
  · cases fault <;> cases ended

theorem Dispatched.selected_last_iff
    (dispatched : Dispatched config (firsts ++ [⟨.always, actions⟩]) entries outcome) :
    (∃ performed,
      Selected config (firsts ++ [⟨.always, actions⟩]) firsts.length entries performed) ↔
      ∃ before, before <+: entries ∧ Denied config firsts before := by
  constructor
  · rintro ⟨performed, selected⟩
    obtain ⟨before, initial, denied⟩ := selected.denied
    rw [List.take_left'] at denied
    · exact ⟨before, initial, denied⟩
    · rfl
  · rintro ⟨before, initial, denied⟩
    rcases dispatched.selected_or_stopped with
      ⟨branch, performed, selected, -⟩ | ⟨asked, check, fault, rfl, hlt, stops, -⟩
    · have hle := selected.length_le_of_denied initial denied
      have hlt := selected.lt_length
      rw [List.length_append, List.length_singleton] at hlt
      obtain rfl : branch = firsts.length := by omega
      exact ⟨performed, selected⟩
    · -- As many were asked in vain as were asked at all, and the last one stops.
      have hall : before = asked ++ [check] := initial.eq_of_length_le (by
        rw [List.length_append, List.length_singleton, denied.length_eq]
        exact hlt)
      have falsy := denied.2 check (hall ▸ List.mem_append_right asked List.mem_cons_self)
      exact absurd stops falsy.not_stops

end Evaluation

/-- Where the last slot is known, it is the one that gains actions. -/
theorem Drafted.Prolongs.eq_of_slots {e later : Drafted υ} (prolongs : e.Prolongs later)
    {firsts : List (Slot υ)} {slot : Slot υ} (hslots : e.item.slots = firsts ++ [slot]) :
    ∃ more, later = ⟨{ e.item with
      slots := firsts ++ [{ slot with actions := slot.actions ++ more }] }, e.fallback⟩ := by
  obtain ⟨kind, firsts', slot', closed, fallback, more⟩ := prolongs
  obtain ⟨rfl, hslot⟩ := List.append_inj' hslots rfl
  cases hslot
  exact ⟨more, rfl⟩

/-- An action that is declared on the last item is the one that its last slot gains. -/
theorem Draft.at?_andThen {d : Draft υ} (reachable : d.Reachable) {i : Nat} {e : Drafted υ}
    (found : d.at? i = some e) (latest : i + 1 = d.sequence.length) {firsts : List (Slot υ)}
    {slot : Slot υ} (hslots : e.item.slots = firsts ++ [slot]) (action : Step υ) :
    (d.declare (.andThen action)).at? i =
      some ⟨{ e.item with slots := firsts ++ [slot.compose action] }, e.fallback⟩ := by
  obtain ⟨entries, rfl, -⟩ := reachable.exists_of
  rw [at?_of] at found
  rcases entries.eq_nil_or_concat' with rfl | ⟨before, last, rfl⟩
  · cases found
  · rw [length_of, List.length_append, List.length_singleton] at latest
    obtain rfl : i = before.length := by omega
    rw [List.getElem?_concat_length] at found
    cases found
    let later : Drafted υ :=
      ⟨{ e.item with slots := firsts ++ [slot.compose action] }, e.fallback⟩
    have hdeclare : (of (before ++ [e])).declare (.andThen action) = of (before ++ [later]) :=
      declare_accepted (fun _ => rfl) (Item.compose_append firsts slot action hslots) fun _ => rfl
    rw [hdeclare, at?_of, List.getElem?_concat_length]

/--
A chain, and a condition that accepted a fallback, here or before it was copied, end in a slot that
always matches.  An evaluation that ends without a fault comes to an output, and has performed the
actions of exactly one slot.  It performs those of the last slot exactly if the predicates of all
the others were asked and none of them holds.  However the sequence is built on, no slot follows,
and nothing but the actions of the last slot can grow, by the actions declared on it.  A condition
without a fallback comes to nothing exactly if none of its predicates holds.
-/
theorem Draft.fallback_exhausts {d : Draft υ} (reachable : d.Reachable) {i : Nat} {e : Drafted υ}
    (found : d.at? i = some e) :
    (e.item.kind = .chain ∨ (∃ action, e.fallback = some action) →
      ∃ firsts first thens, e.item.slots = firsts ++ [⟨.always, first :: thens⟩] ∧
        (∀ action, e.fallback = some action → action = first) ∧
        (∀ (config : Config) (spans : List Span) (acts : List (Act υ)) (st : Store υ),
          let evaluation := e.item.evaluation config spans acts st
          (((e.item.evaluate config).under spans).course acts st).halt = evaluation.halt ∧
          (∀ result, evaluation.halt.outcome? = some (.ok result) →
            ∃ output, result = some output ∧ ∃! branch,
              Selected config e.item.slots branch evaluation.entries (some (.ok output))) ∧
          ((∃ performed,
              Selected config e.item.slots firsts.length evaluation.entries performed) ↔
            ∃ before, before <+: evaluation.entries ∧ Denied config firsts before)) ∧
        (∀ later, d.Grows later → ∃ more, later.at? i = some
          ⟨{ e.item with slots := firsts ++ [⟨.always, first :: thens ++ more⟩] }, e.fallback⟩) ∧
        (i + 1 = d.sequence.length → ∀ action, (d.declare (.andThen action)).at? i = some
          ⟨{ e.item with slots := firsts ++ [⟨.always, first :: thens ++ [action]⟩] },
            e.fallback⟩)) ∧
    (e.item.kind = .condition → e.fallback = none →
      ∀ (config : Config) (spans : List Span) (acts : List (Act υ)) (st : Store υ),
        let evaluation := e.item.evaluation config spans acts st
        (((e.item.evaluate config).under spans).course acts st).halt = evaluation.halt ∧
        (evaluation.halt.outcome? = some (.ok none) ↔
          Denied config e.item.slots evaluation.entries)) := by
  have hhalt (config : Config) (spans : List Span) (acts : List (Act υ)) (st : Store υ) :
      (((e.item.evaluate config).under spans).course acts st).halt =
        (e.item.evaluation config spans acts st).halt :=
    (Program.halt_of_inside (Item.evaluateFrom_inside config 0 e.item.slots)
      (Item.evaluatePlan_strict 0 e.item.slots) spans acts st .empty).symm
  have hdispatched (config : Config) (spans : List Span) (acts : List (Act υ)) (st : Store υ) :
      let evaluation := e.item.evaluation config spans acts st
      Dispatched config e.item.slots evaluation.entries evaluation.halt.outcome? :=
    Item.dispatched_evaluatePlan config 0 e.item.slots spans acts st .empty
  refine ⟨fun exhaustive => ?_, fun _ _ config spans acts st => ⟨hhalt config spans acts st,
    (hdispatched config spans acts st).outcome_eq_ok_none⟩⟩
  obtain ⟨firsts, first, thens, hslots, hfirst, closed⟩ :=
    (reachable.built found).exists_always exhaustive
  refine ⟨firsts, first, thens, hslots, hfirst, fun config spans acts st => ?_,
    fun later grows => ?_, fun latest action => at?_andThen reachable found latest hslots action⟩
  · have dispatched := hdispatched config spans acts st
    dsimp only at dispatched ⊢
    rw [hslots] at dispatched ⊢
    exact ⟨hhalt config spans acts st, fun result ended => dispatched.exists_unique_selected ended,
      dispatched.selected_last_iff⟩
  · obtain ⟨e', found', prolongs⟩ := grows.prolongs reachable found closed
    obtain ⟨more, rfl⟩ := prolongs.eq_of_slots hslots
    exact ⟨more, found'⟩

/-- Whether the state is zero; asking counts. -/
def isZero : Step Nat :=
  .sync fun _ => .user (· + 1) fun n => .done (.ok (.single (.bool (n == 0))))

/-- A condition with a fallback, which has an action more. -/
def guardedItem : Drafted Nat where
  item := ⟨.condition, [⟨isZero, []⟩, ⟨.always, [.constant (.single (.int 4)), isZero]⟩], true⟩
  fallback := some (.constant (.single (.int 4)))

def guardedDraft : Draft Nat :=
  ((({} : Draft Nat).declare (.condition isZero)).declare
    (.otherwise (.constant (.single (.int 4))))).declare (.andThen isZero)

/-- A copy of the condition behind a loop: its fallback is what runs where the state is not zero,
and it stays the last slot. -/
theorem fallback_exhausts_copied :
    let d := (({} : Draft Nat).declare (.loop isZero)).push guardedItem
    let evaluation := guardedItem.item.evaluation {} [] [] { user := 3 }
    d.at? 1 = some guardedItem ∧
    (∃! branch, ∃ output,
      Selected {} guardedItem.item.slots branch evaluation.entries (some (.ok output))) ∧
    (∃ performed, Selected {} guardedItem.item.slots 1 evaluation.entries performed) ∧
    ∀ action, (d.declare (.andThen action)).at? 1 =
      some ⟨⟨.condition, [⟨isZero, []⟩, ⟨.always, [.constant (.single (.int 4)), isZero, action]⟩],
        true⟩, guardedItem.fallback⟩ := by
  intro d evaluation
  have hguarded : guardedDraft.Reachable := ((Draft.Reachable.empty.declare _).declare _).declare _
  have hcopied : guardedDraft.at? 0 = some guardedItem := rfl
  have reachable : d.Reachable := (Draft.Reachable.empty.declare _).push hguarded hcopied
  have found : d.at? 1 = some guardedItem := rfl
  obtain ⟨firsts, first, thens, hslots, -, hruns, -, hlater⟩ :=
    (Draft.fallback_exhausts reachable found).1 (.inr ⟨_, rfl⟩)
  have hsplit : [⟨isZero, []⟩] ++ [⟨.always, [.constant (.single (.int 4)), isZero]⟩] =
      firsts ++ [⟨.always, first :: thens⟩] := hslots
  obtain ⟨rfl, hlast⟩ := List.append_inj' hsplit rfl
  cases hlast
  obtain ⟨-, hone, hselected⟩ := hruns {} [] [] { user := 3 }
  obtain ⟨result, ended⟩ : ∃ result, evaluation.halt.outcome? = some (.ok result) := ⟨_, rfl⟩
  obtain ⟨output, -, branch, selected, -⟩ := hone result ended
  refine ⟨found, ⟨branch, ⟨output, selected⟩, ?_⟩, ?_, hlater rfl⟩
  · rintro other ⟨output', selected'⟩
    exact selected'.unique selected
  · -- The check of the other slot comes first, and finds a state that is not zero.
    refine hselected.2 ⟨evaluation.entries.take 1, List.take_prefix 1 _, rfl, ?_⟩
    intro e he
    obtain rfl := List.mem_singleton.1 he
    exact ⟨_, rfl, rfl⟩

end Stepwise
