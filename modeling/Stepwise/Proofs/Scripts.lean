import Mathlib.Data.List.Basic
import Stepwise.Proofs.Course
import Stepwise.Script.Body
/-!
# Scripted code is honest

A script knows the continuations that it put away, and completes no others but its own.  So every
step that a script describes is honest, with the flows that it runs itself, and so is every flow
that is declared with such steps.
-/

namespace Stepwise

variable {m : Mode} {υ ρ α : Type} {keeps : υ → Set Handle} {lent known held : Set Handle}
  {post : α → Set Handle → Prop}

namespace Program

theorem honest_settle {h : Handle} (hknown : h ∈ known) (s : Settlement) :
    (settle h s : Program m υ Unit).Honest keeps lent anything known ∅ :=
  ⟨hknown, fun _ _ => ⟨rfl, trivial⟩⟩

theorem honest_defer {h : Handle} (hknown : h ∈ known) (s : Settlement) :
    (defer h s : Program m υ Unit).Honest keeps lent anything known ∅ :=
  ⟨hknown, fun _ _ => ⟨rfl, trivial⟩⟩

theorem honest_pauses (times : Nat) (known : Set Handle) :
    (pauses times : Suspending υ Unit).Honest keeps lent anything known ∅ := by
  induction times generalizing known with
  | zero => exact ⟨rfl, trivial⟩
  | succ times ih =>
      refine ⟨fun h => ?_, fun more _ => ih more⟩
      exact iff_of_false List.not_mem_nil (Set.notMem_empty h)

end Program

/-! ## Honest bodies -/

/-- The continuation that a body still has, if it has one, is known. -/
def Knows (known : Set Handle) (held : Option Handle) : Prop := ∀ h, held = some h → h ∈ known

theorem Knows.mono {held : Option Handle} {more : Set Handle} (knows : Knows known held)
    (hmore : known ⊆ more) : Knows more held :=
  fun h hheld => hmore (knows h hheld)

/-- A body may keep or hand back the continuation that it is given. -/
def Body.Honest (keeps : υ → Set Handle) (body : Body υ) : Prop :=
  ∀ m args held known, Knows known held →
    (body m args held).Honest keeps ∅ (fun r more => Knows more r.1) known ∅

namespace Style

variable {body : Body υ}

theorem honest_alone (honest : Body.Honest keeps body) (m : Mode) (args : Values)
    (known : Set Handle) : (alone body m args).Honest keeps ∅ anything known ∅ := by
  apply (honest m args none known nofun).bind
  rintro ⟨held, ending⟩ more - -
  cases ending with
  | output values => exact ⟨rfl, trivial⟩
  | failure cause => exact ⟨rfl, trivial⟩
  | panic payload => exact rfl

theorem honest_finish {complete : Handle → Settlement → Direct υ Unit}
    (hcomplete : ∀ h s known, h ∈ known → (complete h s).Honest keeps ∅ anything known ∅)
    {r : Option Handle × Ending} (knows : Knows known r.1) :
    (finish complete r).Honest keeps ∅ anything known ∅ := by
  obtain ⟨held, ending⟩ := r
  cases held with
  | none =>
      cases ending with
      | output values => exact ⟨rfl, trivial⟩
      | failure cause => exact ⟨rfl, trivial⟩
      | panic payload => exact rfl
  | some h =>
      have hknown : h ∈ known := knows h rfl
      cases ending with
      | output values => exact hcomplete h _ known hknown
      | failure cause => exact hcomplete h _ known hknown
      | panic payload => exact ⟨hknown, fun _ _ => rfl⟩

/-- An honest body makes an honest step in every style. -/
theorem honest_toStep (honest : Body.Honest keeps body) (style : Style) :
    (style.toStep body).Honest keeps := by
  have hgiven {h : Handle} {known : Set Handle} (hknown : h ∈ known) : Knows known (some h) := by
    rintro k ⟨⟩
    exact hknown
  cases style with
  | sync => exact honest_alone honest .direct
  | callback =>
      intro args done known hdone
      apply (honest .direct args (some done) known (hgiven hdone)).bind
      intro r more _ knows
      exact honest_finish (fun h s known hknown => Program.honest_settle hknown s) knows
  | spawn =>
      intro args done known hdone
      apply (honest .direct args (some done) known (hgiven hdone)).bind
      intro r more _ knows
      exact honest_finish (fun h s known hknown => Program.honest_defer hknown s) knows
  | future => exact fun args known => ⟨rfl, honest_alone honest .suspending args known⟩
  | eager =>
      intro args known
      apply (honest_alone honest .direct args known).bind
      intro r more _ _
      exact ⟨rfl, rfl, trivial⟩
  | named name => exact fun args known => ⟨rfl, honest_alone honest .suspending args known⟩

end Style

/-! ## Honest declarations -/

/-- The steps that a clause brings in. -/
def Clause.steps : Clause υ → List (Step υ)
  | chain initial => [.always, .constant initial]
  | condition step | loop step | elseIf step | andThen step => [step]
  | otherwise step => [.always, step]

theorem Item.steps_addSlot {item later : Item υ} {clause : Attachment} {slot : Slot υ}
    (hok : item.addSlot clause slot = .ok later) : later.steps = item.steps ++ slot.steps := by
  unfold Item.addSlot at hok
  split at hok
  · cases hok
  · split at hok
    · cases hok
    · cases hok
      simp only [Item.steps, List.flatMap_append, List.flatMap_singleton]

theorem Item.steps_compose {item later : Item υ} {action : Step υ}
    (hok : item.compose action = .ok later) : later.steps = item.steps ++ [action] := by
  unfold Item.compose at hok
  split at hok
  · rename_i slot hlast
    cases hok
    have hslots : item.slots = item.slots.dropLast ++ [slot] :=
      (List.dropLast_append_getLast? slot hlast).symm
    have hcompose : (slot.compose action).steps = slot.steps ++ [action] := rfl
    unfold Item.steps
    conv_rhs => rw [hslots]
    simp only [List.flatMap_append, List.flatMap_singleton, hcompose, List.append_assoc]
  · cases hok

namespace Sequence

theorem steps_push (s : Sequence υ) (item : Item υ) :
    (s.push item).steps = s.steps ++ item.steps := by
  simp only [push, steps, List.flatMap_append, List.flatMap_singleton]

theorem steps_updateLast {s later : Sequence υ} {clause : Attachment}
    {update : Item υ → Except BuildError (Item υ)} {added : List (Step υ)}
    (hupdate : ∀ item last, update item = .ok last → last.steps = item.steps ++ added)
    (hok : s.updateLast clause update = .ok later) : later.steps = s.steps ++ added := by
  unfold updateLast at hok
  split at hok
  · cases hok
  · rename_i item hlast
    split at hok
    · rename_i last hitem
      cases hok
      have hitems : s.items = s.items.dropLast ++ [item] :=
        (List.dropLast_append_getLast? item hlast).symm
      unfold steps
      conv_rhs => rw [hitems]
      simp only [List.flatMap_append, List.flatMap_singleton, hupdate item last hitem,
        List.append_assoc]
    · cases hok

/-- A clause adds its own steps at the end. -/
theorem steps_declare {s later : Sequence υ} {clause : Clause υ}
    (hok : s.declare clause = .ok later) : later.steps = s.steps ++ clause.steps := by
  cases clause with
  | chain initial =>
      cases hok
      exact s.steps_push _
  | condition step =>
      cases hok
      exact s.steps_push _
  | loop step =>
      cases hok
      exact s.steps_push _
  | elseIf step => exact steps_updateLast (fun item last => Item.steps_addSlot) hok
  | otherwise step =>
      refine steps_updateLast (fun item last hitem => ?_) hok
      split at hitem
      · rename_i added hadded
        cases hitem
        exact Item.steps_addSlot hadded
      · cases hitem
  | andThen step => exact steps_updateLast (fun item last => Item.steps_compose) hok

end Sequence

/-- A flow stays honest with every clause whose steps are. -/
theorem Flow.Honest.extend {flow : Flow υ} (honest : flow.Honest keeps) {clause : Clause υ}
    (hclause : ∀ step ∈ clause.steps, step.Honest keeps) : (flow.extend clause).1.Honest keeps := by
  unfold Flow.extend
  split
  · rename_i s hok
    refine ⟨fun step hstep => ?_, honest.resolvers⟩
    rw [Sequence.steps_declare hok] at hstep
    rcases List.mem_append.1 hstep with hold | hnew
    · exact honest.steps step hold
    · exact hclause step hnew
  · exact ⟨honest.steps, honest.resolvers⟩

theorem Flow.Honest.declare {flow : Flow υ} (honest : flow.Honest keeps) {clause : Clause υ}
    (hclause : ∀ step ∈ clause.steps, step.Honest keeps) (known : Set Handle) :
    (flow.declare clause : Program m υ (Flow υ)).Honest keeps lent
      (fun later _ => later.Honest keeps) known ∅ := by
  have hextend := honest.extend hclause
  unfold Flow.declare
  split
  · rename_i later hrefused
    rw [hrefused] at hextend
    exact ⟨rfl, hextend⟩
  · rename_i later error hrefused
    rw [hrefused] at hextend
    exact ⟨trivial, fun _ _ => ⟨rfl, hextend⟩⟩

/-! ## Honest scripts -/

namespace Script

/-- The continuations that were put away. -/
def kept (memory : Memory) : Set Handle := {h | ∃ key, (key, h) ∈ memory.stash}

theorem mem_of_lookup? {β : Type} {entries : List (String × β)} {key : String} {value : β}
    (hfound : lookup? entries key = some value) : ∃ k, (k, value) ∈ entries := by
  unfold lookup? at hfound
  obtain ⟨⟨k, v⟩, hfind, rfl⟩ := Option.map_eq_some_iff.1 hfound
  exact ⟨k, List.mem_of_find?_eq_some hfind⟩

theorem mem_assign {β : Type} {key k : String} {value v : β} {entries : List (String × β)}
    (hmem : (k, v) ∈ assign key value entries) : v = value ∨ (k, v) ∈ entries := by
  induction entries with
  | nil =>
      cases List.mem_singleton.1 hmem
      exact .inl rfl
  | cons entry rest ih =>
      obtain ⟨other, w⟩ := entry
      unfold assign at hmem
      split at hmem
      · rcases List.mem_cons.1 hmem with heq | hrest
        · cases heq
          exact .inl rfl
        · exact .inr (List.mem_cons_of_mem _ hrest)
      · rcases List.mem_cons.1 hmem with heq | hrest
        · exact .inr (heq ▸ List.mem_cons_self)
        · exact (ih hrest).imp id (List.mem_cons_of_mem _)

/-- What an instruction leaves to the next one. -/
def Reaction.Knows (known : Set Handle) : Reaction → Prop
  | next locals => Stepwise.Knows known locals.held
  | stop _ => True

theorem Action.honest_complete {locals : Locals} (knows : Knows known locals.held)
    (s : Settlement) : (complete locals s : Program m Memory Reaction).Honest kept ∅
      (fun reaction more => reaction.Knows more) known ∅ := by
  obtain ⟨args, held, turn⟩ := locals
  cases held with
  | none => exact ⟨rfl, nofun⟩
  | some h => exact ⟨knows h rfl, fun _ _ => ⟨rfl, nofun⟩⟩

theorem Action.honest_perform (action : Action) {locals : Locals}
    (knows : Knows known locals.held) :
    (action.perform locals : Program m Memory Reaction).Honest kept ∅
      (fun reaction more => reaction.Knows more) known ∅ := by
  cases action with
  | log tag => exact fun u hu => ⟨hu, rfl, knows⟩
  | set name value => exact fun u hu => ⟨hu, rfl, knows⟩
  | increment name => exact fun u hu => ⟨hu, rfl, knows⟩
  | push value => exact ⟨rfl, knows⟩
  | give output => exact ⟨rfl, trivial⟩
  | giveArgs => exact ⟨rfl, trivial⟩
  | giveLength => exact ⟨rfl, trivial⟩
  | giveVar name => exact fun u hu => ⟨hu, rfl, trivial⟩
  | giveLess name bound => exact fun u hu => ⟨hu, rfl, trivial⟩
  | giveArg accessor index => exact ⟨rfl, trivial⟩
  | giveSum => exact ⟨rfl, trivial⟩
  | giveAdd n => exact ⟨rfl, trivial⟩
  | giveQuotient n => exact ⟨rfl, trivial⟩
  | fail cause => exact ⟨rfl, trivial⟩
  | panic payload => exact ⟨rfl, trivial⟩
  | settle output => exact honest_complete knows _
  | reject message => exact honest_complete knows _
  | abandon =>
      obtain ⟨args, held, turn⟩ := locals
      cases held with
      | none => exact ⟨rfl, nofun⟩
      | some h => exact ⟨knows h rfl, fun _ _ => ⟨rfl, nofun⟩⟩
  | stash key =>
      obtain ⟨args, held, turn⟩ := locals
      cases held with
      | none => exact ⟨rfl, nofun⟩
      | some h =>
          intro memory hmemory
          refine ⟨?_, ?_⟩
          · rintro k ⟨other, hput⟩
            rcases mem_assign hput with rfl | hold
            · exact knows k rfl
            · exact hmemory ⟨other, hold⟩
          · simp only [Program.bind]
            cases holder : memory.stashed? key with
            | none => exact ⟨rfl, nofun⟩
            | some older =>
                exact ⟨hmemory (mem_of_lookup? holder), fun _ _ => ⟨rfl, nofun⟩⟩
  | giveWaiting =>
      obtain ⟨args, held, turn⟩ := locals
      cases held with
      | none => exact ⟨rfl, trivial⟩
      | some h => exact ⟨knows h rfl, fun _ _ => ⟨rfl, trivial⟩⟩

theorem Stock.honest_toStep (stock : Stock) : stock.toStep.Honest kept := by
  cases stock with
  | always => exact fun _ _ => ⟨rfl, trivial⟩
  | constant values => exact fun _ _ => ⟨rfl, trivial⟩
  | countedSync counter => exact fun _ _ u hu => ⟨hu, rfl, trivial⟩
  | countedCallback counter =>
      exact fun _ done known hdone u hu => ⟨hu, hdone, fun _ _ => ⟨rfl, trivial⟩⟩
  | countedFuture counter =>
      intro args known
      refine ⟨rfl, (Program.honest_pauses 1 known).bind fun _ more _ _ => ?_⟩
      exact fun u hu => ⟨hu, rfl, trivial⟩
  | countedReturning counter values => exact fun _ _ u hu => ⟨hu, rfl, trivial⟩
  | deferred values =>
      intro args known
      exact ⟨rfl, (Program.honest_pauses 1 known).bind fun _ more _ _ => ⟨rfl, trivial⟩⟩
  | failing message => exact fun _ done known hdone => ⟨hdone, fun _ _ => ⟨rfl, trivial⟩⟩

theorem honest_relabel {step : Step υ} (honest : step.Honest keeps) (label : Option String) :
    (relabel step label).Honest keeps := by
  cases label with
  | none => exact honest
  | some label => exact honest

theorem honest_resolver (body : Nat) (name : String) (complaint : Option String)
    (completion : Completion) (known : Set Handle) :
    (resolver body name complaint completion).Honest kept ∅ anything known ∅ := by
  intro u hu
  refine ⟨hu, fun v hv => ⟨hv, ?_⟩⟩
  cases complaint with
  | none => exact ⟨rfl, trivial⟩
  | some message => exact rfl

theorem honest_empty (config : Config) : (Flow.empty.withConfig config : Flow Memory).Honest kept :=
  ⟨nofun, nofun⟩

theorem StepClause.honest_toClause {step : Step υ} (honest : step.Honest keeps)
    (clause : StepClause) : ∀ other ∈ (clause.toClause step).steps, other.Honest keeps := by
  intro other hother
  cases clause with
  | otherwise =>
      rcases List.mem_cons.1 hother with rfl | hother
      · exact fun _ _ => ⟨rfl, trivial⟩
      · exact List.mem_singleton.1 hother ▸ honest
  | condition => exact List.mem_singleton.1 hother ▸ honest
  | loop => exact List.mem_singleton.1 hother ▸ honest
  | elseIf => exact List.mem_singleton.1 hother ▸ honest
  | andThen => exact List.mem_singleton.1 hother ▸ honest

mutual

theorem Instruction.honest_run (limit : Nat) (m : Mode) {locals : Locals} {known : Set Handle}
    (knows : Knows known locals.held) (instruction : Instruction) :
    (instruction.run limit m locals).Honest kept ∅ (fun reaction more => reaction.Knows more) known
      ∅ := by
  cases instruction with
  | act action => exact action.honest_perform knows
  | byTurn choices => exact honest_runChoice limit m knows locals.turn choices
  | yield times =>
      cases m with
      | direct => exact ⟨rfl, knows⟩
      | suspending =>
          exact (Program.honest_pauses times known).bind fun _ more hmore _ =>
            ⟨rfl, knows.mono hmore⟩
  | flow config declarations =>
      cases m with
      | direct => exact ⟨rfl, trivial⟩
      | suspending =>
          apply (honest_declareAll limit declarations (honest_empty config) known).bind
          intro flow more _ hflow
          apply ((hflow.exec limit more).withLocal ResultSet.empty).bind
          rintro ⟨completion, results⟩ last - -
          cases completion with
          | ok results => exact ⟨rfl, trivial⟩
          | error e => exact ⟨rfl, trivial⟩

theorem honest_runChoice (limit : Nat) (m : Mode) {locals : Locals} {known : Set Handle}
    (knows : Knows known locals.held) (turn : Nat) (choices : List Instruction) :
    (runChoice limit m locals turn choices).Honest kept ∅ (fun reaction more => reaction.Knows more)
      known ∅ := by
  cases choices with
  | nil => exact ⟨rfl, knows⟩
  | cons choice rest =>
      have hchoice := choice.honest_run limit m knows
      cases rest with
      | nil => exact hchoice
      | cons other rest =>
          cases turn with
          | zero => exact hchoice
          | succ turn => exact honest_runChoice limit m knows turn (other :: rest)

theorem honest_runBody (limit : Nat) (m : Mode) {locals : Locals} {known : Set Handle}
    (knows : Knows known locals.held) (instructions : List Instruction) :
    (runBody limit m locals instructions).Honest kept ∅ (fun r more => Knows more r.1) known ∅ := by
  cases instructions with
  | nil => exact ⟨rfl, knows⟩
  | cons instruction rest =>
      apply (instruction.honest_run limit m knows).bind
      intro reaction more hmore hreaction
      cases reaction with
      | next locals => exact honest_runBody limit m hreaction rest
      | stop ending => exact ⟨rfl, knows.mono hmore⟩

/-- Every step that a script describes is honest. -/
theorem StepScript.honest_toStep (limit body : Nat) (script : StepScript) :
    (script.toStep limit body).Honest kept := by
  cases script with
  | stock step label => exact honest_relabel step.honest_toStep label
  | scripted style instructions label =>
      apply honest_relabel
      apply Style.honest_toStep
      intro m args held known knows u hu
      exact ⟨hu, honest_runBody limit m knows instructions⟩

theorem Declaration.honest_declare (limit : Nat) {flow : Flow Memory} (honest : flow.Honest kept)
    (m : Mode) (known : Set Handle) (declaration : Declaration) :
    (declaration.declare limit m flow).Honest kept ∅ (fun later _ => later.Honest kept) known ∅ := by
  cases declaration with
  | chain initial =>
      have hclause : ∀ step ∈ (Clause.chain initial : Clause Memory).steps, step.Honest kept := by
        intro step hstep
        rcases List.mem_cons.1 hstep with rfl | hstep
        · exact fun _ _ => ⟨rfl, trivial⟩
        · rw [List.mem_singleton.1 hstep]
          exact fun _ _ => ⟨rfl, trivial⟩
      exact honest.declare hclause known
  | clause clause step =>
      intro u hu
      refine ⟨hu, ?_⟩
      exact honest.declare (clause.honest_toClause (step.honest_toStep limit _)) known
  | config config => exact ⟨rfl, honest.steps, honest.resolvers⟩
  | onComplete name complaint =>
      intro u hu
      refine ⟨hu, rfl, honest.steps, fun other hother => ?_⟩
      rcases List.mem_append.1 hother with hold | hnew
      · exact honest.resolvers other hold
      · rw [List.mem_singleton.1 hnew]
        exact honest_resolver _ name complaint

theorem honest_declareAll (limit : Nat) {m : Mode} (declarations : List Declaration)
    {flow : Flow Memory} (honest : flow.Honest kept) (known : Set Handle) :
    (declareAll limit declarations flow : Program m Memory (Flow Memory)).Honest kept ∅
      (fun later _ => later.Honest kept) known ∅ := by
  cases declarations with
  | nil => exact ⟨rfl, honest⟩
  | cons declaration rest =>
      apply (declaration.honest_declare limit honest m known).bind
      intro later more _ hlater
      exact honest_declareAll limit rest hlater more

end

/-- So is every flow that is declared with such steps, and its declaration puts nothing away. -/
theorem honest_of_declared {limit : Nat} {declarations : List Declaration}
    {flow declared : Flow Memory} {st last : Store Memory} (honest : flow.Honest kept)
    (sound : st.Sound kept)
    (hrun : (declareAll limit declarations flow).run st = (.ok declared, last)) :
    declared.Honest kept ∧ last.Sound kept := by
  have hhonest := honest_declareAll limit declarations honest st.opened (m := .direct)
  obtain ⟨known, hserves, hdeclared⟩ :=
    hhonest.run_ok (sound.serves (Set.empty_subset st.opened)) hrun
  exact ⟨hdeclared, hserves.user.trans hserves.known⟩

end Script

end Stepwise
