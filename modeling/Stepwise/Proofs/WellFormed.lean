import Mathlib.Data.List.Basic
import Stepwise.Proofs.Exhaustive
/-!
# Sequences stay well formed

However a sequence is built, by clauses accepted or refused and by pushing items made for it or
copied from other sequences, no item is without a slot, and each is as its kind demands.  Only the
item opened last can still change, and what it has stays, but for one action more in its last slot.
So an action is refused where nothing is open, and nowhere else, and a loop always has a slot to
repeat.
-/

namespace Stepwise

variable {υ : Type}

/-! ## Items -/

namespace Drafted

/-- What holds of an item, however its sequence was built. -/
structure WellFormed (e : Drafted υ) : Prop where
  nonempty : e.item.slots ≠ []
  /-- A chain or a loop has one slot and takes no other. -/
  single : e.item.kind ≠ .condition → (∃ slot, e.item.slots = [slot]) ∧ e.item.closed = true
  /-- A chain always runs, and begins with the action that yields its initial values. -/
  chain : e.item.kind = .chain →
    ∃ initial thens, e.item.slots = [⟨.always, .constant initial :: thens⟩]
  /-- A condition is closed exactly by a fallback, accepted here or before it was copied. -/
  closed_iff : e.item.kind = .condition →
    (e.item.closed = true ↔ ∃ action, e.fallback = some action)
  /-- The fallback is the last slot; it always matches, and begins with its own action. -/
  fallback : ∀ action, e.fallback = some action → e.item.kind = .condition ∧
    ∃ firsts thens, e.item.slots = firsts ++ [⟨.always, action :: thens⟩]

theorem Built.wellFormed {e : Drafted υ} (built : e.Built) : e.WellFormed := by
  obtain ⟨firsts, slot, hslots⟩ := built.exists_last
  have nonempty : e.item.slots ≠ [] := by
    rw [hslots]
    exact List.concat_ne_nil slot firsts
  cases built with
  | chain initial thens =>
      exact ⟨nonempty, fun _ => ⟨⟨_, rfl⟩, rfl⟩, fun _ => ⟨initial, thens, rfl⟩, nofun, nofun⟩
  | loop slot => exact ⟨nonempty, fun _ => ⟨⟨slot, rfl⟩, rfl⟩, nofun, nofun, nofun⟩
  | unclosed firsts slot =>
      exact ⟨nonempty, fun h => absurd rfl h, nofun, fun _ => ⟨nofun, nofun⟩, nofun⟩
  | closed firsts slot action thens =>
      refine ⟨nonempty, fun h => absurd rfl h, nofun,
        fun _ => ⟨fun _ => ⟨action, rfl⟩, fun _ => rfl⟩,
        fun other hother => ⟨rfl, firsts ++ [slot], thens, ?_⟩⟩
      cases hother
      rfl

/-- An action can be composed onto any item. -/
theorem Built.composes {e : Drafted υ} (built : e.Built) (action : Step υ) :
    ∃ item, e.item.compose action = .ok item := by
  obtain ⟨firsts, slot, hslots⟩ := built.exists_last
  exact ⟨_, Item.compose_append firsts slot action hslots⟩

/-- There is a slot that repeating the item would repeat. -/
theorem Built.repeats {e : Drafted υ} (built : e.Built) :
    ∃ slot, e.item.slots.head? = some slot ∧ ∀ limit config,
      e.item.repeats limit config = Item.repeatFrom config slot 0 none limit := by
  obtain ⟨slot, rest, hslots⟩ := List.exists_cons_of_ne_nil built.wellFormed.nonempty
  have hhead : e.item.slots.head? = some slot := by rw [hslots, List.head?_cons]
  refine ⟨slot, hhead, fun limit config => ?_⟩
  unfold Item.repeats
  rw [hhead]

end Drafted

/-! ## Drafts -/

namespace Draft

/-- A clause leaves every item in its place and as it was, but for the one opened last, which it may
extend. -/
theorem Reachable.at?_declare {d : Draft υ} (reachable : d.Reachable) (clause : Clause υ) {i : Nat}
    {e : Drafted υ} (found : d.at? i = some e) :
    ∃ e', (d.declare clause).at? i = some e' ∧
      (e' = e ∨ i + 1 = d.sequence.length ∧ e.Extends e') := by
  obtain ⟨entries, rfl, built⟩ := reachable.exists_of
  obtain ⟨entries', hdeclare, -, hkept⟩ := exists_declare_of built clause
  rw [at?_of] at found
  rw [hdeclare, at?_of, length_of]
  exact hkept i e found

theorem Reachable.at?_push {d : Draft υ} (reachable : d.Reachable) (pushed : Drafted υ) {i : Nat}
    {e : Drafted υ} (found : d.at? i = some e) : (d.push pushed).at? i = some e := by
  obtain ⟨entries, rfl, -⟩ := reachable.exists_of
  rw [at?_of] at found
  rw [push_of, at?_of]
  exact (List.getElem?_append_left (List.getElem?_eq_some_iff.1 found).1).trans found

theorem Reachable.recorded {d : Draft υ} (reachable : d.Reachable) {i : Nat} {item : Item υ}
    (hitem : d.sequence.items[i]? = some item) :
    ∃ fallback, d.at? i = some ⟨item, fallback⟩ := by
  obtain ⟨entries, rfl, -⟩ := reachable.exists_of
  have hentry : (entries[i]?).map Drafted.item = some item := by
    rw [← List.getElem?_map]
    exact hitem
  obtain ⟨e, he, rfl⟩ := Option.map_eq_some_iff.1 hentry
  exact ⟨e.fallback, (at?_of entries i).trans he⟩

theorem Reachable.exists_at? {d : Draft υ} (reachable : d.Reachable) {i : Nat}
    (h : i < d.sequence.length) : ∃ e, d.at? i = some e := by
  obtain ⟨fallback, found⟩ := reachable.recorded (List.getElem?_eq_getElem h)
  exact ⟨_, found⟩

theorem lt_length_of_at? {d : Draft υ} {i : Nat} {e : Drafted υ} (found : d.at? i = some e) :
    i < d.sequence.length := by
  unfold at? at found
  split at found
  · next hitem _ => exact (List.getElem?_eq_some_iff.1 hitem).1
  · cases found

/-- An item behind which another one was opened never changes again. -/
theorem Grows.at?_eq {d later : Draft υ} (grows : d.Grows later) (reachable : d.Reachable) {i : Nat}
    {next : Drafted υ} (behind : d.at? (i + 1) = some next) :
    later.at? i = d.at? i ∧ ∃ next', later.at? (i + 1) = some next' := by
  induction grows with
  | refl => exact ⟨rfl, next, behind⟩
  | @declare mid grown clause ih =>
      obtain ⟨hsame, next', hnext⟩ := ih
      have hmid := reachable.grows grown
      have hlt : i + 1 < mid.sequence.length := lt_length_of_at? hnext
      obtain ⟨e, found⟩ := hmid.exists_at? (Nat.lt_of_succ_lt hlt)
      obtain ⟨e', he', hgrown⟩ := hmid.at?_declare clause found
      obtain ⟨next'', hnext', -⟩ := hmid.at?_declare clause hnext
      refine ⟨?_, next'', hnext'⟩
      rcases hgrown with rfl | ⟨hlast, -⟩
      · rw [he', ← hsame, found]
      · exact absurd hlast hlt.ne
  | @push mid _ _ pushed grown _ _ ih =>
      obtain ⟨hsame, next', hnext⟩ := ih
      have hmid := reachable.grows grown
      obtain ⟨e, found⟩ := hmid.exists_at? (Nat.lt_of_succ_lt (lt_length_of_at? hnext))
      exact ⟨by rw [hmid.at?_push pushed found, ← hsame, found], next', hmid.at?_push pushed hnext⟩

/-- The initial values of a chain stay what its first action yields. -/
theorem Grows.chain {d later : Draft υ} (grows : d.Grows later) (reachable : d.Reachable) {i : Nat}
    {initial : Values} {thens : List (Step υ)} {fallback : Option (Step υ)}
    (found : d.at? i =
      some ⟨⟨.chain, [⟨.always, .constant initial :: thens⟩], true⟩, fallback⟩) :
    ∃ more, later.at? i =
      some ⟨⟨.chain, [⟨.always, .constant initial :: thens ++ more⟩], true⟩, fallback⟩ := by
  obtain ⟨e', found', prolongs⟩ := grows.prolongs reachable found rfl
  have hslots : [⟨.always, .constant initial :: thens⟩] =
      [] ++ [(⟨.always, .constant initial :: thens⟩ : Slot υ)] := rfl
  obtain ⟨more, rfl⟩ := prolongs.eq_of_slots hslots
  exact ⟨more, found'⟩

/-- An action is refused where nothing is open, and nowhere else. -/
theorem Reachable.compose_eq_error_iff {d : Draft υ} (reachable : d.Reachable) (action : Step υ)
    (error : BuildError) : d.sequence.compose action = .error error ↔
      d.sequence.items = [] ∧ error = .noOpenItem .andThen := by
  obtain ⟨entries, rfl, built⟩ := reachable.exists_of
  rcases entries.eq_nil_or_concat' with rfl | ⟨before, last, rfl⟩
  · have hrefused : (of ([] : List (Drafted υ))).sequence.compose action =
        .error (.noOpenItem .andThen) := rfl
    rw [hrefused, Except.error.injEq, eq_comm]
    exact ⟨fun h => ⟨rfl, h⟩, fun h => h.2⟩
  · obtain ⟨item, hitem⟩ := (built last (by simp)).composes action
    have haccepted : (of (before ++ [last])).sequence.compose action =
        .ok ⟨before.map Drafted.item ++ [item]⟩ := by
      have hclause (s : Sequence υ) : s.declare (.andThen action) =
          s.updateLast .andThen fun item => item.compose action := rfl
      change (of (before ++ [last])).sequence.declare (.andThen action) = _
      rw [sequence_declare_last hclause, hitem]
      rfl
    have hitems : (of (before ++ [last])).sequence.items ≠ [] := by
      simp [of]
    rw [haccepted]
    refine ⟨fun hrefused => ?_, fun h => absurd h.1 hitems⟩
    cases hrefused

/-- What holds of a sequence under construction, and of what may become of it. -/
structure WellFormed (d : Draft υ) : Prop where
  recorded : ∀ (i : Nat) (item : Item υ), d.sequence.items[i]? = some item →
    ∃ fallback, d.at? i = some ⟨item, fallback⟩
  items : ∀ (i : Nat) (e : Drafted υ), d.at? i = some e → e.WellFormed
  /-- To push an item that was made for it is to open that item. -/
  made : (∀ initial, d.push ⟨.chain initial, none⟩ = d.declare (.chain initial)) ∧
    (∀ predicate, d.push ⟨.condition predicate, none⟩ = d.declare (.condition predicate)) ∧
    ∀ predicate, d.push ⟨.loop predicate, none⟩ = d.declare (.loop predicate)
  /-- A clause, accepted or refused, changes no item but the one opened last, and that one by a new
  slot or by one action more in its last slot. -/
  clauses : ∀ (clause : Clause υ) (i : Nat) (e : Drafted υ), d.at? i = some e →
    ∃ e', (d.declare clause).at? i = some e' ∧
      (e' = e ∨ i + 1 = d.sequence.length ∧ e.Extends e')
  pushes : ∀ (pushed : Drafted υ) (i : Nat) (e : Drafted υ), d.at? i = some e →
    (d.push pushed).at? i = some e
  /-- The items before the one opened last stay as they are for good. -/
  settled : ∀ later, d.Grows later → ∀ i, i + 1 < d.sequence.length → later.at? i = d.at? i
  /-- A chain is opened with the action that yields its initial values, and keeps it. -/
  opened : ∀ initial, (d.declare (.chain initial)).at? d.sequence.length =
    some ⟨⟨.chain, [⟨.always, [.constant initial]⟩], true⟩, none⟩
  initial : ∀ later, d.Grows later → ∀ (i : Nat) (initial : Values) (thens : List (Step υ))
    (fallback : Option (Step υ)),
    d.at? i = some ⟨⟨.chain, [⟨.always, .constant initial :: thens⟩], true⟩, fallback⟩ →
      ∃ more, later.at? i =
        some ⟨⟨.chain, [⟨.always, .constant initial :: thens ++ more⟩], true⟩, fallback⟩
  /-- An action is refused only where nothing is open: every item can take one. -/
  refused : ∀ (action : Step υ) (error : BuildError), d.sequence.compose action = .error error ↔
    d.sequence.items = [] ∧ error = .noOpenItem .andThen
  composes : ∀ (i : Nat) (e : Drafted υ) (action : Step υ), d.at? i = some e →
    ∃ item, e.item.compose action = .ok item
  /-- There always is a slot to repeat. -/
  repeats : ∀ (i : Nat) (e : Drafted υ), d.at? i = some e →
    ∃ slot, e.item.slots.head? = some slot ∧ ∀ limit config,
      e.item.repeats limit config = Item.repeatFrom config slot 0 none limit

theorem Reachable.at?_opened {d : Draft υ} (reachable : d.Reachable) (initial : Values) :
    (d.declare (.chain initial)).at? d.sequence.length =
      some ⟨⟨.chain, [⟨.always, [.constant initial]⟩], true⟩, none⟩ := by
  obtain ⟨entries, rfl, -⟩ := reachable.exists_of
  have hopened : (of entries).declare (.chain initial) =
      of (entries ++ [⟨.chain initial, none⟩]) := push_of entries ⟨.chain initial, none⟩
  rw [hopened, at?_of, length_of, List.getElem?_concat_length]
  rfl

/-- Whatever clauses are declared and whatever items are pushed, a sequence stays well formed. -/
theorem stays_well_formed {d : Draft υ} (reachable : d.Reachable) : d.WellFormed where
  recorded _ _ hitem := reachable.recorded hitem
  items _ _ found := (reachable.built found).wellFormed
  made := ⟨fun _ => rfl, fun _ => rfl, fun _ => rfl⟩
  clauses clause _ _ found := reachable.at?_declare clause found
  pushes pushed _ _ found := reachable.at?_push pushed found
  settled later grows i hlt := by
    obtain ⟨next, behind⟩ := reachable.exists_at? hlt
    exact (grows.at?_eq reachable behind).1
  opened := reachable.at?_opened
  initial later grows _ _ _ _ found := grows.chain reachable found
  refused := reachable.compose_eq_error_iff
  composes _ _ action found := (reachable.built found).composes action
  repeats _ _ found := (reachable.built found).repeats

end Draft

/-- A copy of a condition with a fallback behind a loop refuses a further branch, and then a chain
is opened. -/
def mixedDraft : Draft Nat :=
  (((({} : Draft Nat).declare (.loop isZero)).push guardedItem).declare (.elseIf isZero)).declare
    (.chain (.single (.int 1)))

/-- The copy stays as it is, the chain keeps its initial values, and takes any action. -/
theorem stays_well_formed_mixed :
    mixedDraft.Reachable ∧ mixedDraft.at? 1 = some guardedItem ∧
      (∀ later, mixedDraft.Grows later → later.at? 1 = some guardedItem) ∧
      (∀ later, mixedDraft.Grows later → ∃ more, later.at? 2 = some
        ⟨⟨.chain, [⟨.always, .constant (.single (.int 1)) :: more⟩], true⟩, none⟩) ∧
      ∀ error, mixedDraft.sequence.compose isZero ≠ .error error := by
  have hguarded : guardedDraft.Reachable := ((Draft.Reachable.empty.declare _).declare _).declare _
  have reachable : mixedDraft.Reachable :=
    (((Draft.Reachable.empty.declare _).push (i := 0) hguarded rfl).declare _).declare _
  have wellFormed := Draft.stays_well_formed reachable
  refine ⟨reachable, rfl, fun later grows => wellFormed.settled later grows 1 (by decide),
    fun later grows => wellFormed.initial later grows 2 _ [] none rfl, fun error herror => ?_⟩
  have hnothing := ((wellFormed.refused isZero error).1 herror).1
  cases hnothing

end Stepwise
