import Stepwise.Proofs.Logbook
/-!
# Histories of a flow

A flow is declared further, configured anew, given resolvers and run, again and again.  Every run
that returns tells each resolver that is registered by then, and nothing else ever tells one.
-/

namespace Stepwise

variable {υ : Type}

/-- What can be done with a flow between two runs, and how it can be run.  A run is polled, and once
more after every act of the outside world; if it is pending after all of them it is dropped. -/
inductive Command (υ : Type) where
  | declare (clause : Clause υ)
  | configure (config : Config)
  | onComplete (resolver : Resolver υ)
  | exec (limit : Nat) (acts : List (Act υ))
  /-- Registers a resolver and runs the flow. -/
  | execWith (limit : Nat) (resolver : Resolver υ) (acts : List (Act υ))
  /-- The outside world acts on the store while there is no run. -/
  | act (f : Act υ)

namespace Command

/-- What a host makes of a command, and how the run came out, if it is one. -/
def obey (h : Host υ) : Command υ → Option (Outcome Completion) × Host υ
  | declare clause => (none, h.declare clause)
  | configure config => (none, h.withConfig config)
  | onComplete resolver => (none, h.onComplete resolver)
  | exec limit acts => ((h.start limit).watch acts).map some id
  | execWith limit resolver acts => (((h.onComplete resolver).start limit).watch acts).map some id
  | act f => (none, h.act f)

/-- The resolver that is registered. -/
def resolver? : Command υ → Option (Resolver υ)
  | onComplete resolver => some resolver
  | execWith _ resolver _ => some resolver
  | declare _ | configure _ | exec _ _ | act _ => none

/-- How many resolvers are registered after the command, if there were so many before. -/
def registered (before : Nat) (c : Command υ) : Nat := before + c.resolver?.toList.length

/-- The command for a flow with a logbook that has so many resolvers. -/
def logged (registered : Nat) : Command υ → Command (υ × List Note)
  | declare clause => declare (clause.mapSteps Step.logged)
  | configure config => configure config
  | onComplete resolver => onComplete (Resolver.logged registered resolver)
  | exec limit acts => exec limit (acts.map Act.aside)
  | execWith limit resolver acts =>
      execWith limit (Resolver.logged registered resolver) (acts.map Act.aside)
  | act f => act f.aside

/-- What may be noted of a command after which so many resolvers are registered: of a run what its
steps do, and then what its end leaves, and of anything else nothing. -/
def Noted (registered : Nat) : Option (Outcome Completion) → List Note → Prop
  | none, notes => notes = []
  | some outcome, notes => ∃ k, notes = List.replicate k .worked ++ outcome.notes registered

end Command

/-! ## One command -/

theorem Flow.logged_onComplete (flow : Flow υ) (resolver : Resolver υ) :
    (flow.onComplete resolver).logged =
      flow.logged.onComplete (Resolver.logged flow.resolvers.length resolver) := by
  simp only [logged, onComplete, Resolver.loggedFrom_append, Nat.zero_add]

namespace Host

/-- A clause that is refused is reported. -/
theorem declare_eq (h : Host υ) (clause : Clause υ) :
    h.declare clause =
      match h.flow.extend clause with
      | (flow, none) => { h with flow }
      | (flow, some error) =>
          { h with flow, store := h.store.report [] (.invalidDeclaration error) } := by
  unfold declare build Flow.declare
  dsimp only
  rcases h.flow.extend clause with ⟨flow, _ | error⟩ <;> rfl

theorem declare_logged (h : Host υ) (clause : Clause υ) (log : List Note) :
    (h.logged log).declare (clause.mapSteps Step.logged) = (h.declare clause).logged log := by
  have hdeclare : (h.flow.sequence.mapSteps Step.logged).declare (clause.mapSteps Step.logged) =
      (h.flow.sequence.declare clause).map (Sequence.mapSteps Step.logged) :=
    h.flow.sequence.mapSteps_declare loggedSteps clause
  rw [declare_eq, declare_eq]
  unfold Flow.extend
  simp only [logged, Flow.logged, hdeclare]
  cases h.flow.sequence.declare clause <;> rfl

/-- A run leaves the resolvers as they are. -/
theorem resolvers_watch (limit : Nat) (h : Host υ) (acts : List (Act υ)) :
    ((h.start limit).watch acts).2.flow.resolvers = h.flow.resolvers := by
  rw [watch_start]
  cases (h.flow.exec limit).course (acts.map Act.aside) h.inner <;> rfl

end Host

namespace Command

/-- Commands register resolvers at the end, and take none away. -/
theorem resolvers_obey (h : Host υ) (c : Command υ) :
    (c.obey h).2.flow.resolvers = h.flow.resolvers ++ c.resolver?.toList := by
  have hnone : h.flow.resolvers = h.flow.resolvers ++ (none : Option (Resolver υ)).toList :=
    (List.append_nil _).symm
  cases c with
  | declare clause =>
      refine Eq.trans ?_ hnone
      simp only [obey, Host.declare_eq, Flow.extend]
      cases h.flow.sequence.declare clause <;> rfl
  | configure config => exact hnone
  | onComplete resolver => rfl
  | exec limit acts => exact (h.resolvers_watch limit acts).trans hnone
  | execWith limit resolver acts => exact (h.onComplete resolver).resolvers_watch limit acts
  | act f => exact hnone

/-- With a logbook a command comes to the same, and it notes what it may. -/
theorem obey_logged (h : Host υ) (c : Command υ)
    (quiet : ∀ resolver ∈ h.flow.resolvers ++ c.resolver?.toList, Resolver.Quiet resolver)
    (log : List Note) :
    ∃ notes, Noted (c.registered h.flow.resolvers.length) (c.obey h).1 notes ∧
      (c.logged h.flow.resolvers.length).obey (h.logged log) =
        ((c.obey h).1, (c.obey h).2.logged (log ++ notes)) := by
  cases c with
  | declare clause =>
      refine ⟨[], rfl, ?_⟩
      rw [List.append_nil]
      exact Prod.ext rfl (h.declare_logged clause log)
  | configure config =>
      refine ⟨[], rfl, ?_⟩
      rw [List.append_nil]
      rfl
  | onComplete resolver =>
      refine ⟨[], rfl, Prod.ext rfl ?_⟩
      rw [List.append_nil]
      simp only [obey, logged, Host.onComplete, Host.logged, Flow.logged_onComplete]
  | exec limit acts =>
      obtain ⟨k, hwatch⟩ := h.watch_logged limit acts
        (fun resolver hresolver => quiet resolver (List.mem_append_left _ hresolver)) log
      exact ⟨_, ⟨k, rfl⟩, congrArg (Prod.map some id) hwatch⟩
  | execWith limit resolver acts =>
      obtain ⟨k, hwatch⟩ := (h.onComplete resolver).watch_logged limit acts quiet log
      have hlength : (h.onComplete resolver).flow.resolvers.length = h.flow.resolvers.length + 1 :=
        List.length_append
      have hregister : (h.logged log).onComplete
          (Resolver.logged h.flow.resolvers.length resolver) = (h.onComplete resolver).logged log := by
        simp only [Host.onComplete, Host.logged, Flow.logged_onComplete]
      refine ⟨_, ⟨k, congrArg (fun n => _ ++ Outcome.notes n _) hlength⟩, ?_⟩
      simp only [logged, obey, hregister]
      exact congrArg (Prod.map some id) hwatch
  | act f =>
      refine ⟨[], rfl, ?_⟩
      rw [List.append_nil]
      rfl

end Command

/-! ## Whole histories -/

namespace Host

/-- Obeys commands one after the other. -/
def live (h : Host υ) : List (Command υ) → List (Option (Outcome Completion)) × Host υ
  | [] => ([], h)
  | c :: history => ((c.obey h).1 :: ((c.obey h).2.live history).1, ((c.obey h).2.live history).2)

end Host

namespace Command

/-- The commands for a flow with a logbook that begins with so many resolvers. -/
def allLogged (before : Nat) : List (Command υ) → List (Command (υ × List Note))
  | [] => []
  | c :: history => c.logged before :: allLogged (c.registered before) history

/-- What may be noted of a history that begins with so many resolvers and came out like that. -/
inductive Chronicle :
    Nat → List (Command υ) → List (Option (Outcome Completion)) → List Note → Prop where
  | nil (before : Nat) : Chronicle before [] [] []
  | cons {before : Nat} {c : Command υ} {history : List (Command υ)}
      {outcome : Option (Outcome Completion)} {outcomes : List (Option (Outcome Completion))}
      {notes later : List Note} (noted : Noted (c.registered before) outcome notes)
      (rest : Chronicle (c.registered before) history outcomes later) :
      Chronicle before (c :: history) (outcome :: outcomes) (notes ++ later)

/-- How many runs returned after the resolver of that number was registered, if the history begins
with so many resolvers and came out like that. -/
def returnsTo (number : Nat) (before : Nat) :
    List (Command υ) → List (Option (Outcome Completion)) → Nat
  | c :: history, outcome :: outcomes =>
      let later := returnsTo number (c.registered before) history outcomes
      match outcome with
      | some (.ended _) => if number < c.registered before then later + 1 else later
      | _ => later
  | _, _ => 0

end Command

/-- Whether it is noted that the resolver of that number was told. -/
def Note.tells (number : Nat) : Note → Bool
  | worked => false
  | told other _ => other == number

theorem Outcome.countP_notes (number registered : Nat) (completion : Completion) :
    ((ended completion).notes registered).countP (·.tells number) =
      if number < registered then 1 else 0 := by
  simp only [notes, List.countP_map]
  have hcount : (List.range registered).countP ((·.tells number) ∘ (Note.told · completion)) =
      (List.range registered).count number := rfl
  rw [hcount, List.nodup_range.count]
  simp only [List.mem_range]

namespace Command

/-- A resolver is told as often as runs returned since it was registered. -/
theorem Chronicle.countP {before : Nat} {history : List (Command υ)}
    {outcomes : List (Option (Outcome Completion))} {notes : List Note}
    (chronicle : Chronicle before history outcomes notes) (number : Nat) :
    notes.countP (·.tells number) = returnsTo number before history outcomes := by
  have hworked (k : Nat) : (List.replicate k Note.worked).countP (·.tells number) = 0 :=
    List.countP_eq_zero.2 fun note hnote => by simp [List.eq_of_mem_replicate hnote, Note.tells]
  induction chronicle with
  | nil before => rfl
  | @cons before c _ outcome _ _ _ noted _ ih =>
      rw [List.countP_append, ih]
      rcases outcome with _ | completion | payload | _
      · obtain rfl := noted
        exact Nat.zero_add _
      · obtain ⟨k, rfl⟩ := noted
        rw [List.countP_append, hworked, Outcome.countP_notes]
        simp only [returnsTo]
        split <;> omega
      · obtain ⟨k, rfl⟩ := noted
        rw [List.countP_append, hworked]
        exact Nat.zero_add _
      · obtain ⟨k, rfl⟩ := noted
        rw [List.countP_append, hworked]
        exact Nat.zero_add _

end Command

namespace Host

/-- A whole history comes to the same with a logbook, and it notes what it may. -/
theorem live_logged (h : Host υ) (history : List (Command υ))
    (quiet : ∀ resolver ∈ h.flow.resolvers ++ history.filterMap Command.resolver?,
      Resolver.Quiet resolver) (log : List Note) :
    ∃ notes,
      (h.logged log).live (Command.allLogged h.flow.resolvers.length history) =
        ((h.live history).1, (h.live history).2.logged (log ++ notes)) ∧
      Command.Chronicle h.flow.resolvers.length history (h.live history).1 notes ∧
      (h.live history).2.flow.resolvers =
        h.flow.resolvers ++ history.filterMap Command.resolver? := by
  induction history generalizing h log with
  | nil => exact ⟨[], by rw [List.append_nil]; rfl, .nil _, (List.append_nil _).symm⟩
  | cons c history ih =>
      have hfilter : (c :: history).filterMap Command.resolver? =
          c.resolver?.toList ++ history.filterMap Command.resolver? := by
        cases hresolver : c.resolver? with
        | none => rw [List.filterMap_cons_none hresolver, Option.toList_none, List.nil_append]
        | some resolver =>
            rw [List.filterMap_cons_some hresolver, Option.toList_some, List.singleton_append]
      rw [hfilter, ← List.append_assoc, ← Command.resolvers_obey] at quiet ⊢
      have hlength : (c.obey h).2.flow.resolvers.length = c.registered h.flow.resolvers.length := by
        rw [Command.resolvers_obey, List.length_append]
        rfl
      obtain ⟨notes, hnoted, hobey⟩ := c.obey_logged h
        (fun resolver hresolver => quiet resolver (List.mem_append_left _
          ((c.resolvers_obey h).symm ▸ hresolver))) log
      obtain ⟨later, hlive, hchronicle, hresolvers⟩ := ih (c.obey h).2 quiet (log ++ notes)
      rw [hlength] at hlive hchronicle
      refine ⟨notes ++ later, ?_, .cons hnoted hchronicle, hresolvers⟩
      simp only [live, Command.allLogged, hobey, hlive, List.append_assoc]

/-- Whatever is done with a flow, as long as no resolver panics: with a logbook it comes to the
same, and of every command that is noted which may be.  A run that returns tells every resolver that
is registered by then, in order, what it returns, after all that its steps do; nothing else tells a
resolver.  Resolvers stay registered, and each of them was told as often as runs returned since. -/
theorem resolvers_told (h : Host υ) (history : List (Command υ))
    (quiet : ∀ resolver ∈ h.flow.resolvers ++ history.filterMap Command.resolver?,
      Resolver.Quiet resolver) :
    ∃ notes,
      (h.logged []).live (Command.allLogged h.flow.resolvers.length history) =
        ((h.live history).1, (h.live history).2.logged notes) ∧
      Command.Chronicle h.flow.resolvers.length history (h.live history).1 notes ∧
      (h.live history).2.flow.resolvers =
        h.flow.resolvers ++ history.filterMap Command.resolver? ∧
      ∀ number, notes.countP (·.tells number) =
        Command.returnsTo number h.flow.resolvers.length history (h.live history).1 := by
  obtain ⟨notes, hlive, hchronicle, hresolvers⟩ := h.live_logged history quiet []
  exact ⟨notes, hlive, hchronicle, hresolvers, hchronicle.countP⟩

end Host

/-- Counts how often it is told. -/
def countingResolver : Resolver Nat := fun _ => .user (· + 1) fun _ => .done ()

/-- Two resolvers, and an action that is pending once: a run is dropped, two are polled to their
end, the second of them with a resolver of its own, and after a clause that is refused one more
fails. -/
def countedHistory : List (Command Nat) :=
  [.onComplete countingResolver, .declare (.chain (.single (.int 1))),
    .declare (.andThen (.task fun args => (Program.pauses 1).bind fun _ => .done (.ok args))),
    .exec 1 [], .exec 1 [id], .execWith 1 countingResolver [id], .declare (.elseIf .always),
    .exec 1 []]

def countedHost : Host Nat := { store := { user := 0 } }

/-- The first resolver is told three times, the second twice. -/
theorem resolvers_told_counted :
    (countedHost.live countedHistory).2.store.user = 5 ∧ ∃ notes,
      (countedHost.logged []).live (Command.allLogged 0 countedHistory) =
        ((countedHost.live countedHistory).1, (countedHost.live countedHistory).2.logged notes) ∧
      notes.countP (·.tells 0) = 3 ∧ notes.countP (·.tells 1) = 2 := by
  have quiet : ∀ resolver ∈ countedHost.flow.resolvers ++
      countedHistory.filterMap Command.resolver?, Resolver.Quiet resolver := by
    intro resolver hresolver completion st
    have hcases : resolver ∈ [countingResolver, countingResolver] := hresolver
    obtain rfl : resolver = countingResolver := by simpa using hcases
    rfl
  have huser : (countedHost.live countedHistory).2.store.user = 5 := by decide +kernel
  have hfirst : Command.returnsTo 0 0 countedHistory (countedHost.live countedHistory).1 = 3 := by
    decide +kernel
  have hsecond : Command.returnsTo 1 0 countedHistory (countedHost.live countedHistory).1 = 2 := by
    decide +kernel
  obtain ⟨notes, hlive, -, -, hcount⟩ := countedHost.resolvers_told countedHistory quiet
  exact ⟨huser, notes, hlive, (hcount 0).trans hfirst, (hcount 1).trans hsecond⟩

end Stepwise
