import Mathlib.Data.List.Basic
import Mathlib.Data.List.Induction
import Stepwise.Host
/-!
# The grammar of clauses

A word of clauses is grammatical if it is spelled by stanzas: a chain or a loop with its actions, or
a condition with its branches and at most one fallback, each with actions of its own.  Declaring a
word records no mistake exactly if the word is grammatical, and its items are then those of the
stanzas.  Otherwise the mistake of the first misplaced clause is recorded, and misplaced clauses
leave no trace in the sequence.
-/

namespace Stepwise

variable {υ : Type}

/-- One item as a word of clauses declares it. -/
inductive Stanza (υ : Type) where
  | chain (initial : Values) (actions : List (Step υ))
  | loop (predicate : Step υ) (actions : List (Step υ))
  | condition (predicate : Step υ) (actions : List (Step υ))
      (branches : List (Step υ × List (Step υ))) (fallback : Option (Step υ × List (Step υ)))

namespace Stanza

def thens (actions : List (Step υ)) : List (Clause υ) := actions.map .andThen

def branchWord (branch : Step υ × List (Step υ)) : List (Clause υ) :=
  .elseIf branch.1 :: thens branch.2

def fallbackWord (fallback : Step υ × List (Step υ)) : List (Clause υ) :=
  .otherwise fallback.1 :: thens fallback.2

def word : Stanza υ → List (Clause υ)
  | chain initial actions => .chain initial :: thens actions
  | loop predicate actions => .loop predicate :: thens actions
  | condition predicate actions branches fallback =>
      .condition predicate :: thens actions ++ branches.flatMap branchWord ++
        fallback.toList.flatMap fallbackWord

/-- What the stanza declares.  A chain starts with the step that yields its initial values, a
fallback with its own action. -/
def item : Stanza υ → Item υ
  | chain initial actions =>
      { kind := .chain, slots := [⟨.always, .constant initial :: actions⟩], closed := true }
  | loop predicate actions =>
      { kind := .loop, slots := [⟨predicate, actions⟩], closed := true }
  | condition predicate actions branches fallback =>
      { kind := .condition
        slots := ⟨predicate, actions⟩ :: branches.map (fun b => ⟨b.1, b.2⟩) ++
          fallback.toList.map fun f => ⟨.always, f.1 :: f.2⟩
        closed := fallback.isSome }

/-- The word that stanzas spell one after another. -/
def spell (stanzas : List (Stanza υ)) : List (Clause υ) := stanzas.flatMap word

end Stanza

open Stanza

/-- The words of the form `( chain then* | while then* | if then* (else_if then*)* (else then*)? )*`. -/
def Grammatical (word : List (Clause υ)) : Prop := ∃ stanzas, word = spell stanzas

/-- What a clause is called where it attaches to an item opened before it. -/
def Clause.attachment? : Clause υ → Option Attachment
  | .chain _ | .condition _ | .loop _ => none
  | .elseIf _ => some .elseIf
  | .otherwise _ => some .otherwise
  | .andThen _ => some .andThen

/-- The mistake a clause makes after the given stanzas.  An action is misplaced only where nothing
is open. -/
inductive Misplaced : List (Stanza υ) → Clause υ → BuildError → Prop where
  | nothingOpen {clause : Clause υ} {name : Attachment} (attaches : clause.attachment? = some name) :
      Misplaced [] clause (.noOpenItem name)
  | notACondition {before : List (Stanza υ)} {latest : Stanza υ} {clause : Clause υ}
      {name : Attachment} (attaches : clause.attachment? = some name) (branches : name ≠ .andThen)
      (kind : latest.item.kind ≠ .condition) :
      Misplaced (before ++ [latest]) clause (.notACondition name latest.item.kind)
  | afterElse {before : List (Stanza υ)} {predicate : Step υ} {actions : List (Step υ)}
      {branches : List (Step υ × List (Step υ))} {fallback : Step υ × List (Step υ)}
      {clause : Clause υ} {name : Attachment} (attaches : clause.attachment? = some name)
      (branching : name ≠ .andThen) :
      Misplaced (before ++ [.condition predicate actions branches (some fallback)]) clause
        (.afterElse name)

/-- The stanzas that are left of a word, read from its start, when every clause that is misplaced
after those read before it is passed over. -/
inductive Accepted : List (Clause υ) → List (Stanza υ) → Prop where
  | nil : Accepted [] []
  | keep {word : List (Clause υ)} {clause : Clause υ} {stanzas longer : List (Stanza υ)}
      (rest : Accepted word stanzas) (fits : spell longer = spell stanzas ++ [clause]) :
      Accepted (word ++ [clause]) longer
  | skip {word : List (Clause υ)} {clause : Clause υ} {stanzas : List (Stanza υ)}
      {error : BuildError} (rest : Accepted word stanzas)
      (misplaced : Misplaced stanzas clause error) :
      Accepted (word ++ [clause]) stanzas

/-! ## One clause -/

theorem Sequence.updateLast_append (items : List (Item υ)) (item : Item υ) (clause : Attachment)
    (update : Item υ → Except BuildError (Item υ)) :
    Sequence.updateLast ⟨items ++ [item]⟩ clause update =
      (update item).map fun item => ⟨items ++ [item]⟩ := by
  unfold Sequence.updateLast
  simp only [List.getLast?_append, List.getLast?_singleton, Option.some_or, List.dropLast_concat]
  cases update item <;> rfl

theorem Item.compose_append {item : Item υ} (slots : List (Slot υ)) (slot : Slot υ)
    (action : Step υ) (hslots : item.slots = slots ++ [slot]) :
    item.compose action = .ok { item with slots := slots ++ [slot.compose action] } := by
  simp [Item.compose, hslots]

theorem spell_append (stanzas : List (Stanza υ)) (latest : Stanza υ) :
    spell (stanzas ++ [latest]) = spell stanzas ++ latest.word := by
  simp [spell]

/-- An action always continues the stanza opened last. -/
theorem Stanza.exists_andThen (stanza : Stanza υ) (action : Step υ) :
    ∃ longer : Stanza υ, longer.word = stanza.word ++ [.andThen action] ∧
      stanza.item.compose action = .ok longer.item := by
  cases stanza with
  | chain initial actions =>
      exact ⟨.chain initial (actions ++ [action]), by simp [word, thens], rfl⟩
  | loop predicate actions =>
      exact ⟨.loop predicate (actions ++ [action]), by simp [word, thens], rfl⟩
  | condition predicate actions branches fallback =>
      cases fallback with
      | some fallback =>
          refine ⟨.condition predicate actions branches
            (some (fallback.1, fallback.2 ++ [action])), by simp [word, fallbackWord, thens], ?_⟩
          rw [Item.compose_append (⟨predicate, actions⟩ :: branches.map fun b => ⟨b.1, b.2⟩)
            ⟨.always, fallback.1 :: fallback.2⟩ action rfl]
          rfl
      | none =>
          rcases branches.eq_nil_or_concat' with rfl | ⟨before, branch, rfl⟩
          · exact ⟨.condition predicate (actions ++ [action]) [] none, by simp [word, thens], rfl⟩
          · refine ⟨.condition predicate actions
              (before ++ [(branch.1, branch.2 ++ [action])]) none,
              by simp [word, branchWord, thens], ?_⟩
            rw [Item.compose_append (⟨predicate, actions⟩ :: before.map fun b => ⟨b.1, b.2⟩)
              ⟨branch.1, branch.2⟩ action (by simp [item])]
            simp [item, Slot.compose]

/-- A condition without a fallback takes a further slot; any other stanza refuses it by what it is. -/
theorem addSlot_item (before : List (Stanza υ)) (latest : Stanza υ) (clause : Clause υ)
    {name : Attachment} (slot : Slot υ) (attaches : clause.attachment? = some name)
    (branching : name ≠ .andThen) :
    (∃ predicate actions branches, latest = .condition predicate actions branches none ∧
        latest.item.addSlot name slot =
          .ok { latest.item with slots := latest.item.slots ++ [slot] }) ∨
      ∃ error, Misplaced (before ++ [latest]) clause error ∧
        latest.item.addSlot name slot = .error error := by
  cases latest with
  | chain initial actions =>
      right
      exact ⟨_, .notACondition attaches branching (by simp [item]), rfl⟩
  | loop predicate actions =>
      right
      exact ⟨_, .notACondition attaches branching (by simp [item]), rfl⟩
  | condition predicate actions branches fallback =>
      cases fallback with
      | none => exact .inl ⟨predicate, actions, branches, rfl, rfl⟩
      | some fallback => exact .inr ⟨_, .afterElse attaches branching, rfl⟩

/-- What a clause does after stanzas: it continues their word and their items alike, or it is
misplaced and refused. -/
theorem declare_after (stanzas : List (Stanza υ)) (clause : Clause υ) :
    (∃ longer, spell longer = spell stanzas ++ [clause] ∧
        Sequence.declare ⟨stanzas.map item⟩ clause = .ok ⟨longer.map item⟩) ∨
      ∃ error, Misplaced stanzas clause error ∧
        Sequence.declare ⟨stanzas.map item⟩ clause = .error error := by
  -- The clauses that open an item are always accepted.
  have opens : ∀ stanza : Stanza υ, stanza.word = [clause] →
      Sequence.declare ⟨stanzas.map item⟩ clause = .ok ⟨stanzas.map item ++ [stanza.item]⟩ →
      ∃ longer, spell longer = spell stanzas ++ [clause] ∧
        Sequence.declare ⟨stanzas.map item⟩ clause = .ok ⟨longer.map item⟩ := by
    intro stanza hword hdeclare
    exact ⟨stanzas ++ [stanza], by rw [spell_append, hword], by simpa using hdeclare⟩
  rcases stanzas.eq_nil_or_concat' with rfl | ⟨before, latest, rfl⟩
  · cases clause with
    | chain initial => exact .inl (opens (.chain initial []) rfl rfl)
    | condition predicate => exact .inl (opens (.condition predicate [] [] none) rfl rfl)
    | loop predicate => exact .inl (opens (.loop predicate []) rfl rfl)
    | elseIf predicate => exact .inr ⟨_, .nothingOpen rfl, rfl⟩
    | otherwise action => exact .inr ⟨_, .nothingOpen rfl, rfl⟩
    | andThen action => exact .inr ⟨_, .nothingOpen rfl, rfl⟩
  · cases clause with
    | chain initial => exact .inl (opens (.chain initial []) rfl rfl)
    | condition predicate => exact .inl (opens (.condition predicate [] [] none) rfl rfl)
    | loop predicate => exact .inl (opens (.loop predicate []) rfl rfl)
    | andThen action =>
        obtain ⟨longer, hword, hitem⟩ := latest.exists_andThen action
        left
        refine ⟨before ++ [longer], by simp [spell_append, hword], ?_⟩
        simp [Sequence.declare, Sequence.compose, Sequence.updateLast_append, hitem, Except.map]
    | elseIf predicate =>
        rcases addSlot_item before latest (.elseIf predicate) ⟨predicate, []⟩ rfl
          (by simp) with ⟨p, actions, branches, rfl, hadd⟩ | ⟨error, hmisplaced, hadd⟩
        · left
          refine ⟨before ++ [Stanza.condition p actions (branches ++ [(predicate, [])]) none],
            by simp [spell_append, word, branchWord, thens], ?_⟩
          simp only [Sequence.declare, Sequence.addBranch, List.map_append, List.map_cons,
            List.map_nil, Sequence.updateLast_append, hadd, Except.map]
          simp [item]
        · refine .inr ⟨error, hmisplaced, ?_⟩
          simp [Sequence.declare, Sequence.addBranch, Sequence.updateLast_append, hadd, Except.map]
    | otherwise action =>
        rcases addSlot_item before latest (.otherwise action) (.otherwise action) rfl
          (by simp) with ⟨p, actions, branches, rfl, hadd⟩ | ⟨error, hmisplaced, hadd⟩
        · left
          refine ⟨before ++ [Stanza.condition p actions branches (some (action, []))],
            by simp [spell_append, word, fallbackWord, thens], ?_⟩
          simp only [Sequence.declare, Sequence.addFallback, List.map_append, List.map_cons,
            List.map_nil, Sequence.updateLast_append, hadd, Except.map]
          simp [item, Slot.otherwise]
        · refine .inr ⟨error, hmisplaced, ?_⟩
          simp [Sequence.declare, Sequence.addFallback, Sequence.updateLast_append, hadd,
            Except.map]

/-! ## Words -/

/-- The flow after a word of clauses. -/
def Flow.extendAll (flow : Flow υ) (word : List (Clause υ)) : Flow υ :=
  word.foldl (fun flow clause => (flow.extend clause).1) flow

theorem Flow.extendAll_append (flow : Flow υ) (first second : List (Clause υ)) :
    flow.extendAll (first ++ second) = (flow.extendAll first).extendAll second := by
  simp [extendAll]

theorem Flow.extend_of_ok {flow : Flow υ} {clause : Clause υ} {s : Sequence υ}
    (hdeclare : flow.sequence.declare clause = .ok s) :
    flow.extend clause = ({ flow with sequence := s }, none) := by
  simp [extend, hdeclare]

theorem Flow.extend_of_error {flow : Flow υ} {clause : Clause υ} {error : BuildError}
    (hdeclare : flow.sequence.declare clause = .error error) :
    flow.extend clause = (flow.reject error, some error) := by
  simp [extend, hdeclare]

theorem Flow.extendAll_thens (flow : Flow υ) (items : List (Item υ)) (latest : Item υ)
    (slots : List (Slot υ)) (slot : Slot υ) (actions : List (Step υ))
    (hsequence : flow.sequence = ⟨items ++ [latest]⟩) (hslots : latest.slots = slots ++ [slot]) :
    flow.extendAll (thens actions) =
      { flow with
        sequence := ⟨items ++ [{ latest with
          slots := slots ++ [{ slot with actions := slot.actions ++ actions }] }]⟩ } := by
  induction actions generalizing flow latest slot with
  | nil =>
      simp only [thens, List.map_nil, extendAll, List.foldl_nil, List.append_nil, ← hslots]
      rw [← hsequence]
  | cons action actions ih =>
      have hdeclare : flow.sequence.declare (.andThen action) =
          .ok ⟨items ++ [{ latest with slots := slots ++ [slot.compose action] }]⟩ := by
        rw [hsequence, Sequence.declare, Sequence.compose, Sequence.updateLast_append,
          Item.compose_append slots slot action hslots]
        rfl
      have hstep : flow.extendAll (thens (action :: actions)) =
          ((flow.extend (.andThen action)).1).extendAll (thens actions) := rfl
      rw [hstep, Flow.extend_of_ok hdeclare, ih _ _ (slot.compose action) rfl rfl]
      simp [Slot.compose]

theorem Flow.extendAll_branches (flow : Flow υ) (items : List (Item υ)) (latest : Item υ)
    (branches : List (Step υ × List (Step υ))) (hsequence : flow.sequence = ⟨items ++ [latest]⟩)
    (hkind : latest.kind = .condition) (hclosed : latest.closed = false) :
    flow.extendAll (branches.flatMap branchWord) =
      { flow with
        sequence := ⟨items ++ [{ latest with
          slots := latest.slots ++ branches.map fun b => ⟨b.1, b.2⟩ }]⟩ } := by
  induction branches generalizing flow latest with
  | nil =>
      simp only [List.flatMap_nil, extendAll, List.foldl_nil, List.map_nil, List.append_nil]
      rw [← hsequence]
  | cons branch branches ih =>
      have hdeclare : flow.sequence.declare (.elseIf branch.1) =
          .ok ⟨items ++ [{ latest with slots := latest.slots ++ [⟨branch.1, []⟩] }]⟩ := by
        rw [hsequence, Sequence.declare, Sequence.addBranch, Sequence.updateLast_append]
        simp [Item.addSlot, hkind, hclosed, Except.map]
      have hstep : flow.extendAll ((branch :: branches).flatMap branchWord) =
          (((flow.extend (.elseIf branch.1)).1).extendAll (thens branch.2)).extendAll
            (branches.flatMap branchWord) := by
        simp [extendAll, branchWord]
      rw [hstep, Flow.extend_of_ok hdeclare,
        Flow.extendAll_thens _ items _ latest.slots ⟨branch.1, []⟩ branch.2 rfl rfl,
        ih _ { latest with slots := latest.slots ++ [⟨branch.1, branch.2⟩] } rfl hkind hclosed]
      simp

theorem Flow.extendAll_fallback (flow : Flow υ) (items : List (Item υ)) (latest : Item υ)
    (fallback : Step υ × List (Step υ)) (hsequence : flow.sequence = ⟨items ++ [latest]⟩)
    (hkind : latest.kind = .condition) (hclosed : latest.closed = false) :
    flow.extendAll (fallbackWord fallback) =
      { flow with
        sequence := ⟨items ++ [{ latest with
          slots := latest.slots ++ [⟨.always, fallback.1 :: fallback.2⟩]
          closed := true }]⟩ } := by
  have hdeclare : flow.sequence.declare (.otherwise fallback.1) =
      .ok ⟨items ++ [{ latest with
        slots := latest.slots ++ [Slot.otherwise fallback.1], closed := true }]⟩ := by
    rw [hsequence, Sequence.declare, Sequence.addFallback, Sequence.updateLast_append]
    simp [Item.addSlot, hkind, hclosed, Except.map]
  have hstep : flow.extendAll (fallbackWord fallback) =
      ((flow.extend (.otherwise fallback.1)).1).extendAll (thens fallback.2) := rfl
  rw [hstep, Flow.extend_of_ok hdeclare,
    Flow.extendAll_thens _ items _ latest.slots (.otherwise fallback.1) fallback.2 rfl rfl]
  simp [Slot.otherwise]

/-- The word of a stanza declares its item. -/
theorem Flow.extendAll_word (flow : Flow υ) (stanza : Stanza υ) :
    flow.extendAll stanza.word = { flow with sequence := flow.sequence.push stanza.item } := by
  cases stanza with
  | chain initial actions =>
      exact Flow.extendAll_thens { flow with sequence := flow.sequence.push (.chain initial) }
        flow.sequence.items (.chain initial) [] (.otherwise (.constant initial)) actions rfl rfl
  | loop predicate actions =>
      exact Flow.extendAll_thens { flow with sequence := flow.sequence.push (.loop predicate) }
        flow.sequence.items (.loop predicate) [] ⟨predicate, []⟩ actions rfl rfl
  | condition predicate actions branches fallback =>
      let started : Item υ := ⟨.condition, [⟨predicate, actions⟩], false⟩
      have hopen : flow.extendAll (.condition predicate :: thens actions) =
          { flow with sequence := flow.sequence.push started } :=
        Flow.extendAll_thens { flow with sequence := flow.sequence.push (.condition predicate) }
          flow.sequence.items (.condition predicate) [] ⟨predicate, []⟩ actions rfl rfl
      rw [word, Flow.extendAll_append, Flow.extendAll_append, hopen,
        Flow.extendAll_branches _ flow.sequence.items started branches rfl rfl rfl]
      cases fallback with
      | none => simp [Flow.extendAll, item, Sequence.push, started]
      | some fallback =>
          simp only [Option.toList_some, List.flatMap_cons, List.flatMap_nil, List.append_nil]
          rw [Flow.extendAll_fallback _ flow.sequence.items _ fallback rfl rfl rfl]
          rfl

/-- A word of stanzas declares their items and records no mistake. -/
theorem Flow.extendAll_spell (flow : Flow υ) (stanzas : List (Stanza υ)) :
    flow.extendAll (spell stanzas) =
      { flow with sequence := ⟨flow.sequence.items ++ stanzas.map item⟩ } := by
  induction stanzas generalizing flow with
  | nil => simp [spell, extendAll]
  | cons stanza stanzas ih =>
      have hsplit : spell (stanza :: stanzas) = stanza.word ++ spell stanzas := by
        simp [spell]
      rw [hsplit, Flow.extendAll_append, Flow.extendAll_word, ih]
      simp [Sequence.push]

/-- The word of clauses that a flow was declared with, read against the grammar: the sequence is
that of the stanzas accepted, and the error is that of the first clause misplaced. -/
structure Reading (word : List (Clause υ)) (flow : Flow υ) (stanzas : List (Stanza υ)) : Prop where
  accepted : Accepted word stanzas
  items : flow.sequence.items = stanzas.map item
  whole : flow.buildError = none → word = spell stanzas
  first : ∀ error, flow.buildError = some error → ∃ before clause rest,
    word = spell before ++ clause :: rest ∧ Misplaced before clause error

theorem Flow.exists_reading (word : List (Clause υ)) :
    ∃ stanzas, Reading word (Flow.empty.extendAll word) stanzas := by
  induction word using List.reverseRecOn with
  | nil => exact ⟨[], .nil, rfl, fun _ => rfl, fun error herror => by cases herror⟩
  | append_singleton word clause ih =>
      obtain ⟨stanzas, reading⟩ := ih
      have hsequence : (Flow.empty.extendAll word).sequence = ⟨stanzas.map item⟩ := by
        rw [← reading.items]
      rw [Flow.extendAll_append]
      have hlast (flow : Flow υ) : flow.extendAll [clause] = (flow.extend clause).1 := rfl
      rw [hlast]
      have extended (error : BuildError)
          (herror : (Flow.empty.extendAll word).buildError = some error) :
          ∃ before first rest, word ++ [clause] = spell before ++ first :: rest ∧
            Misplaced before first error := by
        obtain ⟨before, first, rest, hword, hmisplaced⟩ := reading.first error herror
        exact ⟨before, first, rest ++ [clause], by rw [hword]; simp, hmisplaced⟩
      rcases declare_after stanzas clause with ⟨longer, hspell, hdeclare⟩ | ⟨error, hmis, hdeclare⟩
      · rw [← hsequence] at hdeclare
        rw [Flow.extend_of_ok hdeclare]
        refine ⟨longer, reading.accepted.keep hspell, rfl, fun hnone => ?_, extended⟩
        rw [hspell, ← reading.whole hnone]
      · rw [← hsequence] at hdeclare
        rw [Flow.extend_of_error hdeclare]
        refine ⟨stanzas, reading.accepted.skip hmis, reading.items, ?_, ?_⟩
        · intro hnone
          simp [Flow.reject] at hnone
        · intro first hfirst
          cases hbefore : (Flow.empty.extendAll word).buildError with
          | none =>
              obtain rfl : error = first := by simpa [Flow.reject, hbefore] using hfirst
              exact ⟨stanzas, clause, [], by rw [← reading.whole hbefore], hmis⟩
          | some earlier =>
              obtain rfl : earlier = first := by simpa [Flow.reject, hbefore] using hfirst
              exact extended earlier hbefore

theorem declare_of_misplaced {stanzas : List (Stanza υ)} {clause : Clause υ} {error : BuildError}
    (misplaced : Misplaced stanzas clause error) :
    Sequence.declare ⟨stanzas.map item⟩ clause = .error error := by
  cases misplaced with
  | nothingOpen attaches =>
      cases clause <;> cases attaches <;> rfl
  | notACondition attaches branching kind =>
      simp only [List.map_append, List.map_cons, List.map_nil]
      cases clause <;> cases attaches
      · simp [Sequence.declare, Sequence.addBranch, Sequence.updateLast_append, Item.addSlot, kind,
          Except.map]
      · simp [Sequence.declare, Sequence.addFallback, Sequence.updateLast_append, Item.addSlot,
          kind, Except.map]
      · exact absurd rfl branching
  | afterElse attaches branching =>
      simp only [List.map_append, List.map_cons, List.map_nil]
      cases clause <;> cases attaches
      · simp [Sequence.declare, Sequence.addBranch, Sequence.updateLast_append, Item.addSlot, item,
          Except.map]
      · simp [Sequence.declare, Sequence.addFallback, Sequence.updateLast_append, Item.addSlot,
          item, Except.map]
      · exact absurd rfl branching

/-- No clause takes back the mistake that was recorded first. -/
theorem Flow.buildError_extendAll {flow : Flow υ} {error : BuildError}
    (herror : flow.buildError = some error) (word : List (Clause υ)) :
    (flow.extendAll word).buildError = some error := by
  induction word generalizing flow with
  | nil => exact herror
  | cons clause word ih =>
      have hnext : (flow.extend clause).1.buildError = some error := by
        cases hdeclare : flow.sequence.declare clause with
        | ok s =>
            rw [Flow.extend_of_ok hdeclare]
            exact herror
        | error later => simp [Flow.extend_of_error hdeclare, Flow.reject, herror]
      exact ih hnext

theorem Flow.buildError_of_misplaced {before : List (Stanza υ)} {clause : Clause υ}
    {error : BuildError} (misplaced : Misplaced before clause error) (rest : List (Clause υ)) :
    (Flow.empty.extendAll (spell before ++ clause :: rest)).buildError = some error := by
  have hsplit : spell before ++ clause :: rest = spell before ++ ([clause] ++ rest) := rfl
  rw [hsplit, Flow.extendAll_append, Flow.extendAll_append, Flow.extendAll_spell]
  apply Flow.buildError_extendAll
  have hlast (flow : Flow υ) : flow.extendAll [clause] = (flow.extend clause).1 := rfl
  have hdeclare := declare_of_misplaced misplaced
  rw [hlast, Flow.extend_of_error hdeclare]
  rfl

theorem Host.flow_declare (h : Host υ) (clause : Clause υ) :
    (h.declare clause).flow = (h.flow.extend clause).1 := by
  simp only [Host.declare, Host.build, Flow.declare]
  rcases h.flow.extend clause with ⟨flow, _ | error⟩ <;> rfl

theorem Host.flow_declareAll (h : Host υ) (word : List (Clause υ)) :
    (word.foldl (fun h clause => h.declare clause) h).flow = h.flow.extendAll word := by
  induction word generalizing h with
  | nil => rfl
  | cons clause word ih =>
      rw [List.foldl_cons, ih, Host.flow_declare]
      rfl

/-- Declaring a word of clauses follows the grammar.  No mistake is recorded exactly if the word is
grammatical, and the items are then its parse.  The mistake recorded is the one of the first
misplaced clause.  Of any word the items are those of the clauses accepted, and a clause that is
refused leaves the sequence as it was. -/
theorem declared_by_grammar (st : Store υ) (word : List (Clause υ)) :
    let h := word.foldl (fun h clause => h.declare clause) ({ store := st } : Host υ)
    (h.flow.buildError = none ↔ Grammatical word) ∧
    (∀ stanzas, word = spell stanzas → h.flow.sequence.items = stanzas.map item) ∧
    (∀ error, h.flow.buildError = some error ↔ ∃ before clause rest,
      word = spell before ++ clause :: rest ∧ Misplaced before clause error) ∧
    (∃ stanzas, Accepted word stanzas ∧ h.flow.sequence.items = stanzas.map item) ∧
    ∀ clause, (h.flow.extend clause).2 ≠ none →
      (h.declare clause).flow.sequence = h.flow.sequence := by
  intro h
  have hflow : h.flow = Flow.empty.extendAll word := Host.flow_declareAll _ word
  obtain ⟨accepted, reading⟩ := Flow.exists_reading word
  rw [← hflow] at reading
  refine ⟨⟨fun hnone => ⟨accepted, reading.whole hnone⟩, ?_⟩, ?_, fun error => ⟨reading.first error,
    ?_⟩, ⟨accepted, reading.accepted, reading.items⟩, ?_⟩
  · rintro ⟨stanzas, rfl⟩
    rw [hflow, Flow.extendAll_spell]
    rfl
  · rintro stanzas rfl
    rw [hflow, Flow.extendAll_spell]
    rfl
  · rintro ⟨before, clause, rest, rfl, hmisplaced⟩
    rw [hflow]
    exact Flow.buildError_of_misplaced hmisplaced rest
  · intro clause hrefused
    rw [Host.flow_declare]
    cases hdeclare : h.flow.sequence.declare clause with
    | ok s => exact absurd (by rw [Flow.extend_of_ok hdeclare]) hrefused
    | error error => rw [Flow.extend_of_error hdeclare]; rfl

end Stepwise
