import Stepwise.Host
import Stepwise.Proofs.Channels
import Stepwise.Proofs.Direct
import Stepwise.Proofs.Plan
/-!
# Driving programs to their end

Where a program comes to that is polled until it ends, with a turn after every poll that is pending.
The relation follows the tree of the program, so it is compositional, and it holds exactly if some
number of polls is enough.
-/

namespace Stepwise

variable {υ ρ α β : Type}

/-- Turns go by until a waiter finds a settlement. -/
inductive Store.Delivers (h : Handle) (s : Settlement) : Store υ → Store υ → Prop where
  | now {st : Store υ} (settled : st.settlement? h = some s) : Delivers h s st st
  | later {st last : Store υ} (unsettled : st.settlement? h = none)
      (rest : Delivers h s st.turn last) : Delivers h s st last

theorem Store.Delivers.unique {h : Handle} {s s' : Settlement} {st last last' : Store υ}
    (first : st.Delivers h s last) (second : st.Delivers h s' last') : s = s' ∧ last = last' := by
  induction first with
  | now settled =>
      cases second with
      | now settled' => exact ⟨Option.some.inj (settled.symm.trans settled'), rfl⟩
      | later unsettled => rw [settled] at unsettled; cases unsettled
  | later unsettled rest ih =>
      cases second with
      | now settled' => rw [unsettled] at settled'; cases settled'
      | later _ rest' => exact ih rest'

namespace Program

/-- A program polled to its end comes to a result, or unwinds, and leaves a store. -/
def Drives : Suspending υ α → Store υ → Except Panic α → Store υ → Prop
  | done value, st, r, last => r = .ok value ∧ last = st
  | panic payload, st, r, last => r = .error payload ∧ last = st
  | exhausted _, _, _, _ => False
  | user update next, st, r, last =>
      (next st.user).Drives { st with user := update st.user } r last
  | request spans q next, st, r, last =>
      (next (st.answer spans q).1).Drives (st.answer spans q).2 r last
  | pause _ _ next, st, r, last => (next ()).Drives st.turn r last
  | await _ _ h next, st, r, last => ∃ s mid, st.Delivers h s mid ∧ (next s).Drives mid r last

section Cases

variable {st last : Store υ} {r : Except Panic α}

theorem drives_done {value : α} :
    (done value : Suspending υ α).Drives st r last ↔ r = .ok value ∧ last = st := Iff.rfl

theorem drives_panic {payload : Panic} :
    (panic payload : Suspending υ α).Drives st r last ↔ r = .error payload ∧ last = st := Iff.rfl

theorem drives_await {may : Mode.suspending = .suspending} {onDrop : List Handle} {h : Handle}
    {next : Settlement → Suspending υ α} : (await may onDrop h next).Drives st r last ↔
      ∃ s mid, st.Delivers h s mid ∧ (next s).Drives mid r last := Iff.rfl

end Cases

theorem Drives.unique {p : Suspending υ α} {st last last' : Store υ} {r r' : Except Panic α}
    (first : p.Drives st r last) (second : p.Drives st r' last') : r = r' ∧ last = last' := by
  induction p generalizing st with
  | done value => exact ⟨first.1.trans second.1.symm, first.2.trans second.2.symm⟩
  | panic payload => exact ⟨first.1.trans second.1.symm, first.2.trans second.2.symm⟩
  | exhausted may => exact first.elim
  | user update next ih => exact ih _ first second
  | request spans q next ih => exact ih _ first second
  | pause may onDrop next ih => exact ih _ first second
  | await may onDrop h next ih =>
      obtain ⟨s, mid, delivers, rest⟩ := first
      obtain ⟨s', mid', delivers', rest'⟩ := second
      obtain ⟨rfl, rfl⟩ := delivers.unique delivers'
      exact ih s rest rest'

/-- A sequence of programs is driven through its first part, or ends where that one unwinds. -/
theorem drives_bind (p : Suspending υ α) (f : α → Suspending υ β) (st last : Store υ)
    (r : Except Panic β) :
    (p.bind f).Drives st r last ↔
      (∃ a mid, p.Drives st (.ok a) mid ∧ (f a).Drives mid r last) ∨
        ∃ payload, r = .error payload ∧ p.Drives st (.error payload) last := by
  induction p generalizing st with
  | done value => simp [drives_done]
  | panic payload =>
      simp only [panic_bind, drives_panic]
      constructor
      · rintro ⟨rfl, rfl⟩
        exact .inr ⟨payload, rfl, rfl, rfl⟩
      · rintro (⟨a, mid, ⟨ha, _⟩, _⟩ | ⟨payload', rfl, hpayload, rfl⟩)
        · cases ha
        · cases hpayload
          exact ⟨rfl, rfl⟩
  | exhausted may =>
      constructor
      · exact False.elim
      · rintro (⟨_, _, first, _⟩ | ⟨_, _, first⟩) <;> exact first
  | user update next ih => exact ih _ _
  | request spans q next ih => exact ih _ _
  | pause may onDrop next ih => exact ih _ _
  | await may onDrop h next ih =>
      refine drives_await.trans ?_
      simp only [drives_await, ih]
      constructor
      · rintro ⟨s, mid, delivers, ⟨a, late, first, rest⟩ | ⟨payload, rfl, first⟩⟩
        · exact .inl ⟨a, late, ⟨s, mid, delivers, first⟩, rest⟩
        · exact .inr ⟨payload, rfl, s, mid, delivers, first⟩
      · rintro (⟨a, late, ⟨s, mid, delivers, first⟩, rest⟩ | ⟨payload, rfl, s, mid, delivers, first⟩)
        · exact ⟨s, mid, delivers, .inl ⟨a, late, first, rest⟩⟩
        · exact ⟨s, mid, delivers, .inr ⟨payload, rfl, first⟩⟩

theorem Drives.bind {p : Suspending υ α} {f : α → Suspending υ β} {st mid last : Store υ} {a : α}
    {r : Except Panic β} (first : p.Drives st (.ok a) mid) (rest : (f a).Drives mid r last) :
    (p.bind f).Drives st r last :=
  (drives_bind p f st last r).2 (.inl ⟨a, mid, first, rest⟩)

theorem Drives.bind_error {p : Suspending υ α} {st last : Store υ} {payload : Panic}
    (first : p.Drives st (.error payload) last) (f : α → Suspending υ β) :
    (p.bind f).Drives st (.error payload) last :=
  (drives_bind p f st last _).2 (.inr ⟨payload, rfl, first⟩)

theorem Drives.caught {p : Suspending υ α} {st last : Store υ} {r : Except Panic α}
    (drives : p.Drives st r last) : p.caught.Drives st (.ok r) last := by
  induction p generalizing st with
  | done value =>
      obtain ⟨rfl, rfl⟩ := drives
      exact ⟨rfl, rfl⟩
  | panic payload =>
      obtain ⟨rfl, rfl⟩ := drives
      exact ⟨rfl, rfl⟩
  | exhausted may => exact drives
  | user update next ih => exact ih _ drives
  | request spans q next ih => exact ih _ drives
  | pause may onDrop next ih => exact ih _ drives
  | await may onDrop h next ih =>
      obtain ⟨s, mid, delivers, rest⟩ := drives
      exact ⟨s, mid, delivers, ih s rest⟩

theorem Drives.closing {p : Suspending υ α} {st last : Store υ} {r : Except Panic α}
    (drives : p.Drives st r last) (h : Handle) : (p.closing h).Drives st r (last.deafen h) := by
  induction p generalizing st with
  | done value =>
      obtain ⟨rfl, rfl⟩ := drives
      exact ⟨rfl, rfl⟩
  | panic payload =>
      obtain ⟨rfl, rfl⟩ := drives
      exact ⟨rfl, rfl⟩
  | exhausted may => exact drives
  | user update next ih => exact ih _ drives
  | request spans q next ih => exact ih _ drives
  | pause may onDrop next ih => exact ih _ drives
  | await may onDrop other next ih =>
      obtain ⟨s, mid, delivers, rest⟩ := drives
      exact ⟨s, mid, delivers, ih s rest⟩

theorem drives_relax (p : Direct υ α) (st last : Store υ) (r : Except Panic α) :
    (p.relax : Suspending υ α).Drives st r last ↔ p.run st = (r, last) := by
  induction p generalizing st with
  | done value =>
      constructor
      · rintro ⟨rfl, rfl⟩
        rfl
      · rintro ⟨⟩
        exact ⟨rfl, rfl⟩
  | panic payload =>
      constructor
      · rintro ⟨rfl, rfl⟩
        rfl
      · rintro ⟨⟩
        exact ⟨rfl, rfl⟩
  | exhausted may => cases may
  | user update next ih => exact ih _ _
  | request spans q next ih => exact ih _ _
  | pause may => cases may
  | await may => cases may

end Program

theorem Config.drives_guarded (config : Config) {p : Suspending υ α} {st last : Store υ}
    {r : Except Panic α} (drives : p.Drives st r last) :
    (config.guarded p).Drives st (config.guardedResult r) last := by
  unfold Config.guardedResult
  cases hcatch : config.catchPanics with
  | true =>
      rw [guarded_of_catching hcatch]
      refine drives.caught.bind ?_
      cases r <;> exact ⟨rfl, rfl⟩
  | false =>
      rw [guarded_of_not_catching hcatch]
      cases r with
      | ok a => exact drives.bind ⟨rfl, rfl⟩
      | error payload => exact drives.bind_error _

/-- A part of a run comes to what it comes to by itself. -/
theorem Program.Drives.inside {p : Suspending υ α} {st last : Store υ} {r : Except Panic α}
    {spans : List Span} {log outerLog : List Event} {outer : Store (υ × ρ)} {res : ρ}
    (drives : p.Drives st r last) (beside : st.Beside spans res log outerLog outer) :
    ∃ outerLast, (p.inside spans).Drives outer r outerLast ∧
      last.Beside spans res log outerLog outerLast := by
  induction p generalizing st outer with
  | done value =>
      obtain ⟨rfl, rfl⟩ := drives
      exact ⟨outer, ⟨rfl, rfl⟩, beside⟩
  | panic payload =>
      obtain ⟨rfl, rfl⟩ := drives
      exact ⟨outer, ⟨rfl, rfl⟩, beside⟩
  | exhausted may => exact drives.elim
  | user update next ih =>
      simp only [Program.inside, Drives, beside.user]
      exact ih _ drives (beside.update update)
  | request inner q next ih =>
      have hanswer := beside.answer inner q
      simp only [Program.inside, Drives, hanswer.1]
      exact ih _ drives hanswer.2
  | pause may onDrop next ih => exact ih _ drives beside.turn
  | await may onDrop h next ih =>
      obtain ⟨s, mid, delivers, rest⟩ := drives
      have houter : ∃ outerMid, outer.Delivers h s outerMid ∧
          mid.Beside spans res log outerLog outerMid := by
        clear rest
        induction delivers generalizing outer with
        | now settled => exact ⟨outer, .now (beside.settlement? h ▸ settled), beside⟩
        | later unsettled _ later =>
            obtain ⟨outerMid, delivers, hmid⟩ := later beside.turn
            exact ⟨outerMid, .later (beside.settlement? h ▸ unsettled) delivers, hmid⟩
      obtain ⟨outerMid, delivers', hmid⟩ := houter
      obtain ⟨outerLast, hdrives, hlast⟩ := ih s rest hmid
      exact ⟨outerLast, ⟨s, outerMid, delivers', hdrives⟩, hlast⟩

/-! ## Polls -/

/-- A poll that comes to an end. -/
def Progress.ofResult (last : Store υ) : Except Panic α → Progress υ α
  | .ok value => .done last value
  | .error payload => .panicked last payload

theorem Parked.advance_zero_ne (p : Parked υ α) (st last : Store υ) (r : Except Panic α) :
    p.advance st 0 ≠ .ofResult last r := by
  cases r <;> simp [Parked.advance, Progress.ofResult]

theorem Program.Drives.exists_advance {p : Suspending υ α} {st last : Store υ}
    {r : Except Panic α} (drives : p.Drives st r last) (onDrop : List Handle) :
    ∃ polls, Parked.advance ⟨p, onDrop⟩ st (polls + 1) = .ofResult last r := by
  induction p generalizing st onDrop with
  | done value =>
      obtain ⟨rfl, rfl⟩ := drives
      exact ⟨0, rfl⟩
  | panic payload =>
      obtain ⟨rfl, rfl⟩ := drives
      exact ⟨0, rfl⟩
  | exhausted may => exact drives.elim
  | user update next ih => exact ih _ drives onDrop
  | request spans q next ih => exact ih _ drives onDrop
  | pause may dropped next ih =>
      obtain ⟨polls, hpolls⟩ := ih () drives dropped
      exact ⟨polls + 1, hpolls⟩
  | await may dropped h next ih =>
      obtain ⟨s, mid, delivers, rest⟩ := drives
      induction delivers generalizing onDrop with
      | now settled =>
          obtain ⟨polls, hpolls⟩ := ih s rest onDrop
          refine ⟨polls, ?_⟩
          simp only [Parked.advance, Parked.poll, poll_await_of_settled settled] at hpolls ⊢
          exact hpolls
      | later unsettled _ later =>
          obtain ⟨polls, hpolls⟩ := later dropped rest
          refine ⟨polls + 1, ?_⟩
          rw [← hpolls, Parked.advance]
          simp only [Parked.poll, poll_await_of_unsettled unsettled]

theorem Parked.drives_of_advance {polls : Nat} {p : Suspending υ α} (onDrop : List Handle)
    {st last : Store υ} {r : Except Panic α}
    (hadvance : Parked.advance ⟨p, onDrop⟩ st polls = .ofResult last r) : p.Drives st r last := by
  induction polls generalizing p onDrop st with
  | zero => exact absurd hadvance (Parked.advance_zero_ne _ _ _ _)
  | succ polls later =>
      induction p generalizing st onDrop with
      | done value =>
          cases r <;> cases hadvance
          exact ⟨rfl, rfl⟩
      | panic payload =>
          cases r <;> cases hadvance
          exact ⟨rfl, rfl⟩
      | exhausted may => cases r <;> cases hadvance
      | user update next ih => exact ih _ onDrop hadvance
      | request spans q next ih => exact ih _ onDrop hadvance
      | pause may dropped next ih =>
          have hnext : Parked.advance ⟨next (), dropped⟩ st.turn polls = .ofResult last r := hadvance
          have drives := later dropped hnext
          exact drives
      | await may dropped h next ih =>
          cases hsettled : st.settlement? h with
          | some s =>
              simp only [Parked.advance, Parked.poll,
                Program.poll_await_of_settled hsettled] at hadvance
              have hnext : Parked.advance ⟨next s, onDrop⟩ st (polls + 1) = .ofResult last r := by
                simp only [Parked.advance, Parked.poll]
                exact hadvance
              exact ⟨s, st, .now hsettled, ih s onDrop hnext⟩
          | none =>
              simp only [Parked.advance, Parked.poll,
                Program.poll_await_of_unsettled hsettled] at hadvance
              obtain ⟨s, mid, delivers, rest⟩ := later dropped hadvance
              exact ⟨s, mid, .later hsettled delivers, rest⟩

/-- The outcome of a run that was polled to its end. -/
def Outcome.ofResult : Except Panic α → Outcome α
  | .ok value => .ended value
  | .error payload => .unwound payload

theorem Outcome.exists_result {outcome : Outcome α} (hended : outcome ≠ .pending) :
    ∃ r, outcome = .ofResult r := by
  cases outcome with
  | ended value => exact ⟨.ok value, rfl⟩
  | unwound payload => exact ⟨.error payload, rfl⟩
  | pending => exact absurd rfl hended

theorem Host.exec_of_advance {limit polls : Nat} {h : Host υ} {r : Except Panic Completion}
    {st : Store (υ × ResultSet)}
    (hadvance : (Parked.fresh (h.flow.exec limit)).advance h.inner polls = .ofResult st r) :
    h.exec limit polls = (.ofResult r, h.leave st) := by
  have hinner : (h.start limit).inner = h.inner := rfl
  unfold Host.exec Host.resume
  simp only [Host.start] at hinner ⊢
  rw [hinner, hadvance]
  cases r <;> rfl

/-- A flow comes to an end within some number of polls exactly if its run is driven there. -/
theorem Host.exec_iff_drives (limit : Nat) (h last : Host υ) (r : Except Panic Completion) :
    (∃ polls, h.exec limit polls = (.ofResult r, last)) ↔
      ∃ st, (h.flow.exec limit).Drives h.inner r st ∧ last = h.leave st := by
  constructor
  · rintro ⟨polls, hexec⟩
    have hended (st : Store (υ × ResultSet)) (r' : Except Panic Completion)
        (hadvance : (Parked.fresh (h.flow.exec limit)).advance h.inner polls = .ofResult st r') :
        ∃ st, (h.flow.exec limit).Drives h.inner r st ∧ last = h.leave st := by
      have hresult : (Outcome.ofResult r', h.leave st) = (Outcome.ofResult r, last) :=
        (Host.exec_of_advance hadvance).symm.trans hexec
      obtain ⟨houtcome, rfl⟩ := Prod.mk.inj hresult
      have hr : r' = r := by
        cases r' <;> cases r <;> cases houtcome <;> rfl
      exact ⟨st, Parked.drives_of_advance [] (hr ▸ hadvance), rfl⟩
    cases hadvance : (Parked.fresh (h.flow.exec limit)).advance h.inner polls with
    | done st value => exact hended st (.ok value) hadvance
    | panicked st payload => exact hended st (.error payload) hadvance
    | pending st rest =>
        exfalso
        have hinner : (h.start limit).inner = h.inner := rfl
        unfold Host.exec Host.resume at hexec
        simp only [Host.start] at hinner hexec
        rw [hinner, hadvance] at hexec
        cases r <;> cases hexec
    | exhausted st =>
        exfalso
        have hinner : (h.start limit).inner = h.inner := rfl
        unfold Host.exec Host.resume at hexec
        simp only [Host.start] at hinner hexec
        rw [hinner, hadvance] at hexec
        cases r <;> cases hexec
  · rintro ⟨st, drives, rfl⟩
    obtain ⟨polls, hpolls⟩ := drives.exists_advance []
    exact ⟨polls + 1, Host.exec_of_advance hpolls⟩

end Stepwise
