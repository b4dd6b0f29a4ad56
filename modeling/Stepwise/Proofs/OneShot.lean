import Mathlib.Data.List.Induction
import Stepwise.Proofs.Channels
import Stepwise.Session.OneShot
/-!
# A continuation is used once

A continuation and its waiter may be asked, completed, polled and dropped in any order.  Whatever
was done before, the first completion or drop consumes the continuation, the waiter is pending until
then and finds just that once, and the only thing that is ever reported is a completion that comes
after the waiter was dropped.
-/

namespace Stepwise

variable {υ : Type}

/-- A waiter finds what its channel comes to and goes away, or is pending as it was. -/
theorem Parked.poll_waiter (h : Handle) (st : Store υ) :
    (waiter h).poll st =
      match st.settlement? h with
      | some s => .done (st.deafen h) s
      | none => .pending st (waiter h) := by
  simp only [poll, waiter, Program.settled, Program.closing, Program.poll]
  cases st.settlement? h <;> rfl

namespace Session

/-- What the waiter finds of a use. -/
def Completing.settlement : Completing → Settlement
  | some result => .ofResult result
  | none => .error .abandoned

namespace OneShot

/-- A pair that was made in any store. -/
def opened (st : Store Unit) : OneShot where
  store := st.openChannel.2
  handle := st.openChannel.1
  held := true
  waiter := some (.waiter st.openChannel.1)

theorem fresh_eq_opened : fresh = opened { user := () } := rfl

/-! ## Histories -/

/-- Where commands lead to, one after another. -/
def after (s : OneShot) (history : List Command) : OneShot :=
  history.foldl (fun s command => (s.perform command).2) s

theorem after_concat (s : OneShot) (history : List Command) (command : Command) :
    s.after (history ++ [command]) = ((s.after history).perform command).2 := by
  simp [after]

def Command.use? : Command → Option Completing
  | settle how => some how
  | _ => none

/-- The use that consumed the continuation: the first completion or drop. -/
def use? (history : List Command) : Option Completing := history.findSome? Command.use?

theorem use?_concat (history : List Command) (command : Command) :
    use? (history ++ [command]) = (use? history).or command.use? := by
  simp only [use?, List.findSome?_append, List.findSome?_cons, List.findSome?_nil]
  cases command.use? <;> simp

/-- The waiter was never dropped, and not polled after the continuation was used. -/
structure Listening (history : List Command) : Prop where
  kept : .dropWaiter ∉ history
  unpolled : ∀ before later, history = before ++ .poll :: later → use? before = none

theorem listening_nil : Listening [] where
  kept := List.not_mem_nil
  unpolled before later h := by simp at h

theorem listening_concat_iff {history : List Command} {command : Command} :
    Listening (history ++ [command]) ↔ Listening history ∧ command ≠ .dropWaiter ∧
      (command = .poll → use? history = none) := by
  constructor
  · rintro ⟨kept, unpolled⟩
    rw [List.mem_append, List.mem_singleton, not_or] at kept
    refine ⟨⟨kept.1, fun before later h => ?_⟩, Ne.symm kept.2, ?_⟩
    · apply unpolled before (later ++ [command])
      rw [h, List.append_assoc, List.cons_append]
    · rintro rfl
      exact unpolled history [] rfl
  · rintro ⟨⟨kept, unpolled⟩, hcommand, hpoll⟩
    refine ⟨?_, fun before later h => ?_⟩
    · rw [List.mem_append, List.mem_singleton, not_or]
      exact ⟨kept, Ne.symm hcommand⟩
    · rcases List.eq_nil_or_concat later with rfl | ⟨init, last, rfl⟩
      · obtain ⟨rfl, hlast⟩ := List.append_inj' h rfl
        exact hpoll (List.cons.inj hlast).1
      · rw [List.concat_eq_append, ← List.cons_append, ← List.append_assoc] at h
        obtain ⟨hinit, -⟩ := List.append_inj' h rfl
        exact unpolled before init hinit

/-! ## Where a history leads to -/

/-- The sending end after a use that was waited for. -/
def senderOf : Option Completing → Sender
  | none => .held
  | some (some result) => .sent (.ofResult result)
  | some none => .dropped

/-- The pair as its history says. -/
structure Stands (history : List Command) (s : OneShot) : Prop where
  held : s.held = (use? history).isNone
  listening : Listening history → s.waiter = some (.waiter s.handle) ∧
    s.store.channel? s.handle = some ⟨senderOf (use? history), true⟩
  gone : ¬ Listening history → s.waiter = none ∧
    ∃ sender, s.store.channel? s.handle = some ⟨sender, false⟩ ∧
      (use? history = none → sender = .held)

theorem stands_opened (st : Store Unit) : Stands [] (opened st) where
  held := rfl
  listening _ := ⟨rfl, (st.channel?_openChannel st.openChannel.1).trans (if_pos rfl)⟩
  gone hnot := absurd listening_nil hnot

/-! ## What a command does -/

section Perform

variable {history : List Command} {s : OneShot} {how : Completing}

theorem Stands.settlement? (stands : Stands history s) (listening : Listening history) :
    s.store.settlement? s.handle = (use? history).map Completing.settlement := by
  rw [Store.settlement?, (stands.listening listening).2]
  rcases use? history with - | - | result <;> rfl

theorem Stands.perform_settle_unused (stands : Stands history s) (hunused : use? history = none) :
    s.perform (.settle how) =
      (.settled true, { s with store := complete s.store s.handle how, held := false }) := by
  simp [perform, stands.held, hunused]

theorem Stands.perform_settle_used (stands : Stands history s) (hused : use? history ≠ none) :
    s.perform (.settle how) = (.settled false, s) := by
  have hheld : s.held = false := by
    rw [stands.held, Option.isNone_eq_false_iff, Option.isSome_iff_ne_none]
    exact hused
  simp [perform, hheld]

theorem Stands.perform_poll_gone (stands : Stands history s) (hgone : ¬ Listening history) :
    s.perform .poll = (.gone, s) := by
  simp only [perform, (stands.gone hgone).1]

theorem Stands.perform_poll_pending (stands : Stands history s) (listening : Listening history)
    (hunused : use? history = none) : s.perform .poll = (.pending, s) := by
  have hwaiter := (stands.listening listening).1
  simp only [perform, hwaiter, Parked.poll_waiter, stands.settlement? listening, hunused,
    Option.map_none]
  rw [← hwaiter]

theorem Stands.perform_poll_found (stands : Stands history s) (listening : Listening history)
    (hused : use? history = some how) : s.perform .poll =
      (.found how.settlement, { s with store := s.store.deafen s.handle, waiter := none }) := by
  simp only [perform, (stands.listening listening).1, Parked.poll_waiter,
    stands.settlement? listening, hused, Option.map_some]

theorem Stands.perform_dropWaiter (stands : Stands history s) (listening : Listening history) :
    s.perform .dropWaiter =
      (.dropped true, { s with store := s.store.deafen s.handle, waiter := none }) := by
  simp only [perform, (stands.listening listening).1]
  rfl

theorem Stands.perform_dropWaiter_gone (stands : Stands history s) (hgone : ¬ Listening history) :
    s.perform .dropWaiter = (.dropped false, s) := by
  simp only [perform, (stands.gone hgone).1]

/-- A command that changes neither the pair nor what its history says of it. -/
theorem Stands.unchanged (stands : Stands history s) {later : List Command}
    (huse : use? later = use? history) (hlistening : Listening later ↔ Listening history) :
    Stands later s where
  held := huse ▸ stands.held
  listening h := huse ▸ stands.listening (hlistening.1 h)
  gone h := huse ▸ stands.gone (mt hlistening.2 h)

/-- The waiter goes away. -/
theorem Stands.deafen (stands : Stands history s) (listening : Listening history)
    {later : List Command} (huse : use? later = use? history) (hgone : ¬ Listening later) :
    Stands later { s with store := s.store.deafen s.handle, waiter := none } where
  held := huse ▸ stands.held
  listening h := absurd h hgone
  gone _ := by
    refine ⟨rfl, senderOf (use? history), ?_, fun hunused => ?_⟩
    · rw [Store.channel?_deafen, if_pos rfl, (stands.listening listening).2]
      rfl
    · rw [← huse, hunused]
      rfl

theorem channel?_complete {st : Store Unit} {h : Handle} {waiting : Bool}
    (hheld : st.channel? h = some ⟨.held, waiting⟩) (how : Completing) :
    (complete st h how).channel? h =
      some ⟨if waiting then senderOf (some how) else .dropped, waiting⟩ := by
  cases how with
  | none =>
      rw [complete, Store.channel?_discard, hheld]
      cases waiting <;> rfl
  | some result =>
      rw [complete, Store.channel?_settle, hheld]
      cases waiting <;> rfl

theorem Stands.perform (stands : Stands history s) (command : Command) :
    Stands (history ++ [command]) (s.perform command).2 := by
  have huse := use?_concat history command
  have hlistening : Listening (history ++ [command]) ↔ _ := listening_concat_iff
  cases command with
  | isWaiting =>
      refine stands.unchanged (huse.trans Option.or_none) (hlistening.trans ?_)
      simp
  | settle how =>
      have hsame : Listening (history ++ [Command.settle how]) ↔ Listening history := by
        rw [hlistening]
        simp
      cases hunused : use? history with
      | some first =>
          have hkept : use? (history ++ [Command.settle how]) = use? history := by
            rw [huse, hunused]
            rfl
          rw [stands.perform_settle_used (by simp [hunused])]
          exact stands.unchanged hkept hsame
      | none =>
          have hfirst : use? (history ++ [Command.settle how]) = some how := by
            rw [huse, hunused]
            rfl
          rw [stands.perform_settle_unused hunused]
          refine ⟨by rw [hfirst]; rfl, fun h => ?_, fun h => ?_⟩
          · obtain ⟨hwaiter, hchannel⟩ := stands.listening (hsame.1 h)
            rw [hunused] at hchannel
            rw [hfirst]
            exact ⟨hwaiter, channel?_complete hchannel how⟩
          · obtain ⟨hwaiter, sender, hchannel, hheld⟩ := stands.gone (mt hsame.2 h)
            rw [hheld hunused] at hchannel
            refine ⟨hwaiter, .dropped, channel?_complete hchannel how, fun h => ?_⟩
            rw [hfirst] at h
            cases h
  | poll =>
      have hkept := huse.trans Option.or_none
      by_cases listening : Listening history
      · cases hused : use? history with
        | none =>
            rw [stands.perform_poll_pending listening hused]
            refine stands.unchanged hkept (hlistening.trans ?_)
            simp [hused]
        | some how =>
            rw [stands.perform_poll_found listening hused]
            refine stands.deafen listening hkept fun h => ?_
            have hnone := (hlistening.1 h).2.2 rfl
            rw [hused] at hnone
            cases hnone
      · rw [stands.perform_poll_gone listening]
        refine stands.unchanged hkept (iff_of_false (fun h => ?_) listening)
        exact listening (hlistening.1 h).1
  | dropWaiter =>
      have hkept := huse.trans Option.or_none
      have hgone : ¬ Listening (history ++ [Command.dropWaiter]) := fun h => (hlistening.1 h).2.1 rfl
      by_cases listening : Listening history
      · rw [stands.perform_dropWaiter listening]
        exact stands.deafen listening hkept hgone
      · rw [stands.perform_dropWaiter_gone listening]
        exact stands.unchanged hkept (iff_of_false hgone listening)

end Perform

theorem stands_after (st : Store Unit) (history : List Command) :
    Stands history ((opened st).after history) := by
  induction history using List.reverseRecOn with
  | nil => exact stands_opened st
  | append_singleton history command ih =>
      rw [after_concat]
      exact ih.perform command

/-! ## What is reported -/

/-- A completion that comes after the waiter was dropped. -/
def Late (history : List Command) (command : Command) : Prop :=
  use? history = none ∧ .dropWaiter ∈ history ∧ ∃ result, command = .settle (some result)

theorem listening_iff_of_unused {history : List Command} (hunused : use? history = none) :
    Listening history ↔ .dropWaiter ∉ history := by
  refine ⟨Listening.kept, fun kept => ⟨kept, fun before later h => ?_⟩⟩
  rw [h, use?, List.findSome?_append, Option.or_eq_none_iff] at hunused
  exact hunused.1

theorem trace_complete {st : Store Unit} {h : Handle} {waiting : Bool}
    (hheld : st.channel? h = some ⟨.held, waiting⟩) (how : Completing) :
    (complete st h how).trace =
      if how.isSome ∧ waiting = false then st.trace.push ⟨.waiterGone, []⟩ else st.trace := by
  cases how with
  | none =>
      simp only [complete, Store.discard, hheld]
      rfl
  | some result =>
      simp only [complete, Store.settle]
      cases waiting <;> simp only [hheld] <;> rfl

section Report

variable {history : List Command} {s : OneShot} {command : Command}

theorem Stands.trace_late (stands : Stands history s) (late : Late history command) :
    (s.perform command).2.store.trace = s.store.trace.push ⟨.waiterGone, []⟩ := by
  obtain ⟨hunused, hdropped, result, rfl⟩ := late
  have hgone : ¬ Listening history := fun h => h.kept hdropped
  obtain ⟨-, sender, hchannel, hheld⟩ := stands.gone hgone
  rw [hheld hunused] at hchannel
  rw [stands.perform_settle_unused hunused]
  exact (trace_complete hchannel (some result)).trans (if_pos ⟨rfl, rfl⟩)

theorem Stands.trace_silent (stands : Stands history s) (silent : ¬ Late history command) :
    (s.perform command).2.store.trace = s.store.trace := by
  cases command with
  | isWaiting => rfl
  | settle how =>
      cases hused : use? history with
      | some first => rw [stands.perform_settle_used (by simp [hused])]
      | none =>
          rw [stands.perform_settle_unused hused]
          by_cases listening : Listening history
          · have hchannel := (stands.listening listening).2
            rw [hused] at hchannel
            exact (trace_complete hchannel how).trans (if_neg (by simp))
          · obtain ⟨-, sender, hchannel, hheld⟩ := stands.gone listening
            rw [hheld hused] at hchannel
            have hdropped : .dropWaiter ∈ history := by
              by_contra h
              exact listening ((listening_iff_of_unused hused).2 h)
            refine (trace_complete hchannel how).trans (if_neg fun h => ?_)
            obtain ⟨result, rfl⟩ := Option.isSome_iff_exists.1 h.1
            exact silent ⟨hused, hdropped, result, rfl⟩
  | poll =>
      by_cases listening : Listening history
      · cases hused : use? history with
        | none => rw [stands.perform_poll_pending listening hused]
        | some how =>
            rw [stands.perform_poll_found listening hused]
            rfl
      · rw [stands.perform_poll_gone listening]
  | dropWaiter =>
      by_cases listening : Listening history
      · rw [stands.perform_dropWaiter listening]
        rfl
      · rw [stands.perform_dropWaiter_gone listening]

end Report

/-- The answers of a pair after a history, and what it reports. -/
structure Answers (history : List Command) (s : OneShot) : Prop where
  uses : ∀ how, (s.perform (.settle how)).1 = .settled (use? history).isNone
  spent : use? history ≠ none → ∀ how, (s.perform (.settle how)).2 = s
  waits : use? history = none → ∃ waiting, (s.perform .isWaiting).1 = .waiting (some waiting) ∧
    (waiting = true ↔ .dropWaiter ∉ history)
  consumed : use? history ≠ none → (s.perform .isWaiting).1 = .waiting none
  pending : .dropWaiter ∉ history → use? history = none → (s.perform .poll).1 = .pending
  resolved : ∀ output, Listening history → use? history = some (.resolve output) →
    (s.perform .poll).1 = .found (.ok output.toValues)
  rejected : ∀ cause, Listening history → use? history = some (.reject cause) →
    (s.perform .poll).1 = .found (.error (.failed cause))
  abandoned : Listening history → use? history = some .drop →
    (s.perform .poll).1 = .found (.error .abandoned)
  gone : ¬ Listening history → (s.perform .poll).1 = .gone
  drops : ∃ there, (s.perform .dropWaiter).1 = .dropped there ∧ (there = true ↔ Listening history)
  late : ∀ command, Late history command →
    (s.perform command).2.store.trace = s.store.trace.push ⟨.waiterGone, []⟩
  silent : ∀ command, ¬ Late history command →
    (s.perform command).2.store.trace = s.store.trace

section Answers

variable {history : List Command} {s : OneShot}

theorem Stands.isWaiting_iff (stands : Stands history s) :
    s.store.isWaiting s.handle = true ↔ Listening history := by
  by_cases listening : Listening history
  · simp [Store.isWaiting, (stands.listening listening).2, listening]
  · obtain ⟨-, sender, hchannel, -⟩ := stands.gone listening
    simp [Store.isWaiting, hchannel, listening]

theorem Stands.perform_isWaiting (stands : Stands history s) : (s.perform .isWaiting).1 =
    .waiting (if (use? history).isNone then some (s.store.isWaiting s.handle) else none) := by
  rw [← stands.held]
  rfl

theorem Stands.answers (stands : Stands history s) : Answers history s where
  uses how := by
    cases hused : use? history with
    | none => rw [stands.perform_settle_unused hused, Option.isNone_none]
    | some first => rw [stands.perform_settle_used (by simp [hused]), Option.isNone_some]
  spent hused how := by rw [stands.perform_settle_used hused]
  waits hunused := by
    refine ⟨s.store.isWaiting s.handle, ?_, ?_⟩
    · rw [stands.perform_isWaiting, hunused, Option.isNone_none, if_pos rfl]
    · rw [stands.isWaiting_iff, listening_iff_of_unused hunused]
  consumed hused := by
    rw [stands.perform_isWaiting, if_neg (by simpa using hused)]
  pending kept hunused := by
    rw [stands.perform_poll_pending ((listening_iff_of_unused hunused).2 kept) hunused]
  resolved output listening hused := by
    rw [stands.perform_poll_found listening hused]
    rfl
  rejected cause listening hused := by
    rw [stands.perform_poll_found listening hused]
    rfl
  abandoned listening hused := by
    rw [stands.perform_poll_found listening hused]
    rfl
  gone hgone := by rw [stands.perform_poll_gone hgone]
  drops := by
    by_cases listening : Listening history
    · exact ⟨true, by rw [stands.perform_dropWaiter listening], by simp [listening]⟩
    · exact ⟨false, by rw [stands.perform_dropWaiter_gone listening], by simp [listening]⟩
  late _ := stands.trace_late
  silent _ := stands.trace_silent

end Answers

/--
After any history of a continuation and its waiter, every operation answers as the first use and the
drop of the waiter in the history say, and reports nothing unless it completes too late.  Completing
with a result is resolving or rejecting.
-/
theorem continuation_used_once (st : Store Unit) (history : List Command) (output : Output)
    (cause : Cause) :
    Answers history ((opened st).after history) ∧
      Completing.ofResult (.ok output) = .resolve output ∧
      Completing.ofResult (.error cause) = .reject cause :=
  ⟨(stands_after st history).answers, rfl, rfl⟩

end OneShot

end Session

end Stepwise
