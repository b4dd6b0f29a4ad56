import Stepwise.Proofs.Grammar
/-!
# Drafts of sequences

A sequence is built by clauses, of which some are refused, and by pushing items, made for it or
copied from other sequences.  Its draft keeps beside each item the action of the fallback that it
accepted, here or before it was copied.  Every item is built as its kind and its fallback demand,
and once it is closed nothing but the actions of its last slot can grow.
-/

namespace Stepwise

variable {υ : Type}

/-- An item, and the action of the fallback that it accepted, if it did. -/
structure Drafted (υ : Type) where
  item : Item υ
  fallback : Option (Step υ)

/-- A sequence under construction, and the fallbacks that its items accepted. -/
structure Draft (υ : Type) where
  sequence : Sequence υ := .empty
  fallbacks : List (Option (Step υ)) := []

/-- The fallbacks after a clause that was accepted. -/
def Clause.note : Clause υ → List (Option (Step υ)) → List (Option (Step υ))
  | chain _, fallbacks | condition _, fallbacks | loop _, fallbacks => fallbacks ++ [none]
  | otherwise action, fallbacks => fallbacks.dropLast ++ [some action]
  | elseIf _, fallbacks | andThen _, fallbacks => fallbacks

namespace Draft

/-- The draft after a clause, which leaves it as it was if it is refused. -/
def declare (d : Draft υ) (clause : Clause υ) : Draft υ :=
  match d.sequence.declare clause with
  | .ok sequence => ⟨sequence, clause.note d.fallbacks⟩
  | .error _ => d

def push (d : Draft υ) (e : Drafted υ) : Draft υ :=
  ⟨d.sequence.push e.item, d.fallbacks ++ [e.fallback]⟩

def at? (d : Draft υ) (i : Nat) : Option (Drafted υ) :=
  match d.sequence.items[i]?, d.fallbacks[i]? with
  | some item, some fallback => some ⟨item, fallback⟩
  | _, _ => none

/-- The drafts that can be built: from nothing, by clauses, and with the items of other ones. -/
inductive Reachable : Draft υ → Prop
  | empty : Reachable {}
  | declare {d : Draft υ} (reachable : Reachable d) (clause : Clause υ) :
      Reachable (d.declare clause)
  | push {d source : Draft υ} {i : Nat} {e : Drafted υ} (reachable : Reachable d)
      (copied : Reachable source) (found : source.at? i = some e) : Reachable (d.push e)

/-- What a draft may become. -/
inductive Grows (d : Draft υ) : Draft υ → Prop
  | refl : Grows d d
  | declare {later : Draft υ} (grows : Grows d later) (clause : Clause υ) :
      Grows d (later.declare clause)
  | push {later source : Draft υ} {i : Nat} {e : Drafted υ} (grows : Grows d later)
      (copied : Reachable source) (found : source.at? i = some e) : Grows d (later.push e)

theorem Reachable.grows {d later : Draft υ} (reachable : d.Reachable) (grows : d.Grows later) :
    later.Reachable := by
  induction grows with
  | refl => exact reachable
  | declare _ clause ih => exact ih.declare clause
  | push _ copied found ih => exact ih.push copied found

/-- The draft of these items. -/
def of (entries : List (Drafted υ)) : Draft υ :=
  ⟨⟨entries.map Drafted.item⟩, entries.map Drafted.fallback⟩

theorem at?_of (entries : List (Drafted υ)) (i : Nat) : (of entries).at? i = entries[i]? := by
  simp only [at?, of, List.getElem?_map]
  cases entries[i]? <;> rfl

theorem length_of (entries : List (Drafted υ)) : (of entries).sequence.length = entries.length :=
  List.length_map _

theorem push_of (entries : List (Drafted υ)) (e : Drafted υ) :
    (of entries).push e = of (entries ++ [e]) := by
  simp [push, of, Sequence.push]

end Draft

/-! ## One clause -/

namespace Drafted

/-- How items are built. -/
inductive Built : Drafted υ → Prop
  | chain (initial : Values) (thens : List (Step υ)) :
      Built ⟨⟨.chain, [⟨.always, .constant initial :: thens⟩], true⟩, none⟩
  | loop (slot : Slot υ) : Built ⟨⟨.loop, [slot], true⟩, none⟩
  | unclosed (firsts : List (Slot υ)) (slot : Slot υ) :
      Built ⟨⟨.condition, firsts ++ [slot], false⟩, none⟩
  | closed (firsts : List (Slot υ)) (slot : Slot υ) (action : Step υ) (thens : List (Step υ)) :
      Built ⟨⟨.condition, firsts ++ [slot] ++ [⟨.always, action :: thens⟩], true⟩, some action⟩

/-- What a clause that is accepted makes of the item opened last. -/
inductive Extends : Drafted υ → Drafted υ → Prop
  | slot (firsts : List (Slot υ)) (predicate : Step υ) :
      Extends ⟨⟨.condition, firsts, false⟩, none⟩
        ⟨⟨.condition, firsts ++ [⟨predicate, []⟩], false⟩, none⟩
  | fallback (firsts : List (Slot υ)) (action : Step υ) :
      Extends ⟨⟨.condition, firsts, false⟩, none⟩
        ⟨⟨.condition, firsts ++ [.otherwise action], true⟩, some action⟩
  | action (kind : ItemKind) (firsts : List (Slot υ)) (slot : Slot υ) (closed : Bool)
      (fallback : Option (Step υ)) (action : Step υ) :
      Extends ⟨⟨kind, firsts ++ [slot], closed⟩, fallback⟩
        ⟨⟨kind, firsts ++ [slot.compose action], closed⟩, fallback⟩

theorem Built.exists_last {e : Drafted υ} (built : e.Built) :
    ∃ firsts slot, e.item.slots = firsts ++ [slot] := by
  cases built with
  | chain initial thens => exact ⟨[], _, rfl⟩
  | loop slot => exact ⟨[], _, rfl⟩
  | unclosed firsts slot => exact ⟨firsts, _, rfl⟩
  | closed firsts slot action thens => exact ⟨firsts ++ [slot], _, rfl⟩

theorem Built.extends {e later : Drafted υ} (built : e.Built) (grown : e.Extends later) :
    later.Built := by
  cases grown with
  | slot firsts predicate =>
      cases built with
      | unclosed firsts slot => exact .unclosed (firsts ++ [slot]) ⟨predicate, []⟩
  | fallback firsts action =>
      cases built with
      | unclosed firsts slot => exact .closed firsts slot action []
  | action kind firsts slot closed fallback action =>
      generalize he : (⟨⟨kind, firsts ++ [slot], closed⟩, fallback⟩ : Drafted υ) = e at built
      cases built with
      | chain initial thens =>
          simp only [mk.injEq, Item.mk.injEq, List.append_eq_singleton_iff] at he
          obtain ⟨⟨rfl, ⟨rfl, hslot⟩ | ⟨_, hslot⟩, rfl⟩, rfl⟩ := he <;> cases hslot
          exact .chain initial (thens ++ [action])
      | loop slot' =>
          simp only [mk.injEq, Item.mk.injEq, List.append_eq_singleton_iff] at he
          obtain ⟨⟨rfl, ⟨rfl, hslot⟩ | ⟨_, hslot⟩, rfl⟩, rfl⟩ := he <;> cases hslot
          exact .loop (slot.compose action)
      | unclosed firsts' slot' =>
          simp only [mk.injEq, Item.mk.injEq] at he
          obtain ⟨⟨rfl, hslots, rfl⟩, rfl⟩ := he
          exact .unclosed firsts (slot.compose action)
      | closed firsts' slot' action' thens =>
          simp only [mk.injEq, Item.mk.injEq] at he
          obtain ⟨⟨rfl, hslots, rfl⟩, rfl⟩ := he
          obtain ⟨rfl, hslot⟩ := List.append_inj' hslots rfl
          cases hslot
          exact .closed firsts' slot' action' (thens ++ [action])

/-- It has further actions in its last slot, and is the same otherwise. -/
inductive Prolongs : Drafted υ → Drafted υ → Prop
  | intro (kind : ItemKind) (firsts : List (Slot υ)) (slot : Slot υ) (closed : Bool)
      (fallback : Option (Step υ)) (thens : List (Step υ)) :
      Prolongs ⟨⟨kind, firsts ++ [slot], closed⟩, fallback⟩
        ⟨⟨kind, firsts ++ [{ slot with actions := slot.actions ++ thens }], closed⟩, fallback⟩

theorem Built.prolongs_self {e : Drafted υ} (built : e.Built) : e.Prolongs e := by
  obtain ⟨firsts, slot, hslots⟩ := built.exists_last
  obtain ⟨⟨kind, slots, closed⟩, fallback⟩ := e
  obtain rfl : slots = firsts ++ [slot] := hslots
  have hsame := Prolongs.intro kind firsts slot closed fallback []
  rwa [List.append_nil] at hsame

theorem Prolongs.trans {e mid later : Drafted υ} (first : e.Prolongs mid)
    (second : mid.Prolongs later) : e.Prolongs later := by
  obtain ⟨kind, firsts, slot, closed, fallback, thens⟩ := first
  generalize hmid : (⟨⟨kind, firsts ++ [{ slot with actions := slot.actions ++ thens }], closed⟩,
    fallback⟩ : Drafted υ) = mid at second
  obtain ⟨kind', firsts', slot', closed', fallback', more⟩ := second
  simp only [mk.injEq, Item.mk.injEq] at hmid
  obtain ⟨⟨rfl, hslots, rfl⟩, rfl⟩ := hmid
  obtain ⟨rfl, hslot⟩ := List.append_inj' hslots rfl
  cases hslot
  rw [List.append_assoc]
  exact .intro kind firsts slot closed fallback (thens ++ more)

theorem Prolongs.closed_eq {e later : Drafted υ} (prolongs : e.Prolongs later) :
    later.item.closed = e.item.closed := by
  cases prolongs
  rfl

/-- An item that is closed takes no further slots. -/
theorem Extends.prolongs {e later : Drafted υ} (grown : e.Extends later)
    (closed : e.item.closed = true) : e.Prolongs later := by
  cases grown with
  | slot firsts predicate => cases closed
  | fallback firsts action => cases closed
  | action kind firsts slot closed fallback action => exact .intro _ _ _ _ _ [action]

end Drafted

namespace Draft

section Last

variable {before : List (Drafted υ)} {last : Drafted υ} {clause : Clause υ} {name : Attachment}
  {update : Item υ → Except BuildError (Item υ)}

theorem sequence_declare_last
    (hclause : ∀ s : Sequence υ, s.declare clause = s.updateLast name update) :
    (of (before ++ [last])).sequence.declare clause =
      (update last.item).map fun item => ⟨before.map Drafted.item ++ [item]⟩ := by
  have hsequence : (of (before ++ [last])).sequence = ⟨before.map Drafted.item ++ [last.item]⟩ := by
    simp [of]
  rw [hclause, hsequence, Sequence.updateLast_append]

theorem declare_refused (hclause : ∀ s : Sequence υ, s.declare clause = s.updateLast name update)
    {error : BuildError} (refused : update last.item = .error error) :
    (of (before ++ [last])).declare clause = of (before ++ [last]) := by
  rw [declare, sequence_declare_last hclause, refused]
  rfl

theorem declare_accepted (hclause : ∀ s : Sequence υ, s.declare clause = s.updateLast name update)
    {later : Drafted υ} (accepted : update last.item = .ok later.item)
    (noted : ∀ fallbacks,
      clause.note (fallbacks ++ [last.fallback]) = fallbacks ++ [later.fallback]) :
    (of (before ++ [last])).declare clause = of (before ++ [later]) := by
  have hnoted : clause.note (of (before ++ [last])).fallbacks =
      (of (before ++ [later])).fallbacks := by
    simp [of, noted]
  rw [declare, sequence_declare_last hclause, accepted]
  simp only [Except.map, hnoted]
  simp [of]

end Last

/-- What a clause does: it is refused, it opens an item, or it extends the item opened last. -/
theorem declare_of {entries : List (Drafted υ)} (built : ∀ e ∈ entries, e.Built)
    (clause : Clause υ) :
    (of entries).declare clause = of entries ∨
      (∃ opened : Drafted υ, opened.Built ∧
        (of entries).declare clause = of (entries ++ [opened])) ∨
      ∃ (before : List (Drafted υ)) (last later : Drafted υ), entries = before ++ [last] ∧
        last.Extends later ∧ (of entries).declare clause = of (before ++ [later]) := by
  have opens (opened : Drafted υ) (hopened : opened.Built)
      (hdeclare : (of entries).sequence.declare clause =
        .ok ((of entries).sequence.push opened.item))
      (hnote : clause.note (of entries).fallbacks = (of entries).fallbacks ++ [opened.fallback]) :
      ∃ opened : Drafted υ, opened.Built ∧
        (of entries).declare clause = of (entries ++ [opened]) := by
    refine ⟨opened, hopened, ?_⟩
    rw [declare, hdeclare, ← push_of]
    simp only [hnote, push]
  rcases entries.eq_nil_or_concat' with rfl | ⟨before, last, rfl⟩
  · cases clause with
    | chain initial => exact .inr (.inl (opens ⟨.chain initial, none⟩ (.chain initial []) rfl rfl))
    | condition predicate =>
        exact .inr (.inl (opens ⟨.condition predicate, none⟩ (.unclosed [] _) rfl rfl))
    | loop predicate => exact .inr (.inl (opens ⟨.loop predicate, none⟩ (.loop _) rfl rfl))
    | elseIf predicate => exact .inl rfl
    | otherwise action => exact .inl rfl
    | andThen action => exact .inl rfl
  · have hlast : last.Built := built last (by simp)
    cases clause with
    | chain initial => exact .inr (.inl (opens ⟨.chain initial, none⟩ (.chain initial []) rfl rfl))
    | condition predicate =>
        exact .inr (.inl (opens ⟨.condition predicate, none⟩ (.unclosed [] _) rfl rfl))
    | loop predicate => exact .inr (.inl (opens ⟨.loop predicate, none⟩ (.loop _) rfl rfl))
    | elseIf predicate =>
        have hclause (s : Sequence υ) : s.declare (.elseIf predicate) = s.updateLast .elseIf
            fun item => item.addSlot .elseIf { predicate } := rfl
        cases hlast with
        | chain initial thens => exact .inl (declare_refused hclause rfl)
        | loop slot => exact .inl (declare_refused hclause rfl)
        | closed firsts slot action thens => exact .inl (declare_refused hclause rfl)
        | unclosed firsts slot =>
            refine .inr (.inr ⟨before, _, _, rfl, .slot _ predicate, ?_⟩)
            exact declare_accepted hclause rfl fun _ => rfl
    | otherwise action =>
        have hclause (s : Sequence υ) : s.declare (.otherwise action) = s.updateLast .otherwise
            fun item => (item.addSlot .otherwise (.otherwise action)).map
              fun item => { item with closed := true } := by
          refine congrArg (s.updateLast .otherwise) (funext fun item => ?_)
          cases item.addSlot .otherwise (.otherwise action) <;> rfl
        cases hlast with
        | chain initial thens => exact .inl (declare_refused hclause rfl)
        | loop slot => exact .inl (declare_refused hclause rfl)
        | closed firsts slot action thens => exact .inl (declare_refused hclause rfl)
        | unclosed firsts slot =>
            refine .inr (.inr ⟨before, _, _, rfl, .fallback _ action, ?_⟩)
            exact declare_accepted hclause rfl fun _ => by simp [Clause.note]
    | andThen action =>
        have hclause (s : Sequence υ) : s.declare (.andThen action) = s.updateLast .andThen
            fun item => item.compose action := rfl
        obtain ⟨firsts, slot, hslots⟩ := hlast.exists_last
        obtain ⟨⟨kind, slots, closed⟩, fallback⟩ := last
        obtain rfl : slots = firsts ++ [slot] := hslots
        refine .inr (.inr ⟨before, _, _, rfl, .action kind firsts slot closed fallback action, ?_⟩)
        exact declare_accepted hclause (Item.compose_append firsts slot action rfl) fun _ => rfl

/-- After a clause every item is built as before and in its place, and at most the one opened last
has been extended. -/
theorem exists_declare_of {entries : List (Drafted υ)} (built : ∀ e ∈ entries, e.Built)
    (clause : Clause υ) : ∃ entries', (of entries).declare clause = of entries' ∧
      (∀ e ∈ entries', e.Built) ∧ ∀ (i : Nat) (e : Drafted υ), entries[i]? = some e →
        ∃ e', entries'[i]? = some e' ∧ (e' = e ∨ i + 1 = entries.length ∧ e.Extends e') := by
  rcases declare_of built clause with hsame | ⟨opened, hopened, hgrown⟩ |
    ⟨before, last, later, rfl, hextends, hgrown⟩
  · exact ⟨entries, hsame, built, fun i e found => ⟨e, found, .inl rfl⟩⟩
  · refine ⟨entries ++ [opened], hgrown, ?_, fun i e found => ⟨e, ?_, .inl rfl⟩⟩
    · exact List.forall_mem_append.2 ⟨built, List.forall_mem_singleton.2 hopened⟩
    · exact (List.getElem?_append_left (List.getElem?_eq_some_iff.1 found).1).trans found
  · obtain ⟨hbefore, hlast⟩ := List.forall_mem_append.1 built
    have hlength : (before ++ [last]).length = before.length + 1 := List.length_append
    refine ⟨before ++ [later], hgrown, ?_, fun i e found => ?_⟩
    · refine List.forall_mem_append.2 ⟨hbefore, List.forall_mem_singleton.2 ?_⟩
      exact (List.forall_mem_singleton.1 hlast).extends hextends
    · have hi : i < (before ++ [last]).length := (List.getElem?_eq_some_iff.1 found).1
      rw [hlength, Nat.lt_succ_iff_lt_or_eq] at hi
      rcases hi with hlt | rfl
      · rw [List.getElem?_append_left hlt] at found
        exact ⟨e, (List.getElem?_append_left hlt).trans found, .inl rfl⟩
      · rw [List.getElem?_concat_length] at found
        cases found
        exact ⟨later, List.getElem?_concat_length, .inr ⟨hlength.symm, hextends⟩⟩

/-! ## Drafts as they grow -/

theorem Reachable.exists_of {d : Draft υ} (reachable : d.Reachable) :
    ∃ entries, d = of entries ∧ ∀ e ∈ entries, e.Built := by
  induction reachable with
  | empty => exact ⟨[], rfl, List.forall_mem_nil _⟩
  | declare _ clause ih =>
      obtain ⟨entries, rfl, built⟩ := ih
      obtain ⟨entries', hdeclare, built', -⟩ := exists_declare_of built clause
      exact ⟨entries', hdeclare, built'⟩
  | @push _ _ i e _ _ found ih copied =>
      obtain ⟨entries, rfl, built⟩ := ih
      obtain ⟨others, rfl, hothers⟩ := copied
      rw [at?_of] at found
      refine ⟨entries ++ [e], push_of entries e, List.forall_mem_append.2 ⟨built, ?_⟩⟩
      exact List.forall_mem_singleton.2 (hothers e (List.mem_of_getElem? found))

/-- Every item of a draft that can be built is built as its kind and its fallback demand. -/
theorem Reachable.built {d : Draft υ} (reachable : d.Reachable) {i : Nat} {e : Drafted υ}
    (found : d.at? i = some e) : e.Built := by
  obtain ⟨entries, rfl, built⟩ := reachable.exists_of
  rw [at?_of] at found
  exact built e (List.mem_of_getElem? found)

/-- An item that is closed stays in its place, and gains at most actions in its last slot. -/
theorem Grows.prolongs {d later : Draft υ} (grows : d.Grows later) (reachable : d.Reachable)
    {i : Nat} {e : Drafted υ} (found : d.at? i = some e) (closed : e.item.closed = true) :
    ∃ e', later.at? i = some e' ∧ e.Prolongs e' := by
  induction grows with
  | refl => exact ⟨e, found, (reachable.built found).prolongs_self⟩
  | declare grown clause ih =>
      obtain ⟨mid, hmid, hprolongs⟩ := ih
      obtain ⟨entries, rfl, built⟩ := (reachable.grows grown).exists_of
      obtain ⟨entries', hdeclare, -, hkept⟩ := exists_declare_of built clause
      rw [at?_of] at hmid
      obtain ⟨e', he', hgrown⟩ := hkept i mid hmid
      rw [hdeclare]
      refine ⟨e', (at?_of entries' i).trans he', ?_⟩
      rcases hgrown with rfl | ⟨-, hextends⟩
      · exact hprolongs
      · exact hprolongs.trans (hextends.prolongs (hprolongs.closed_eq.trans closed))
  | @push _ _ _ pushed grown _ _ ih =>
      obtain ⟨mid, hmid, hprolongs⟩ := ih
      obtain ⟨entries, rfl, -⟩ := (reachable.grows grown).exists_of
      rw [at?_of] at hmid
      rw [push_of]
      refine ⟨mid, (at?_of _ i).trans ?_, hprolongs⟩
      exact (List.getElem?_append_left (List.getElem?_eq_some_iff.1 hmid).1).trans hmid

end Draft

end Stepwise
