import Stepwise.Proofs.Course
/-!
# Completions that a run does not wait for

A program reads a channel only if it holds its waiting end.  So a completion through any other
continuation makes no difference to it: it comes to the same, and asks the store for the same, on
stores that differ only in channels it does not hold.
-/

namespace Stepwise

variable {υ ρ α β : Type}

namespace Store

/-- Stores that are the same for a program which holds these waiting ends. -/
structure SameFor (held : Set Handle) (st other : Store υ) : Prop where
  user : st.user = other.user
  ears : st.ears = other.ears
  due : st.due = other.due
  deferred : st.deferred = other.deferred
  reports : st.reports = other.reports
  channels : ∀ h ∈ held, st.channel? h = other.channel? h

variable {held : Set Handle} {st other : Store υ}

theorem SameFor.mono {fewer : Set Handle} (same : st.SameFor held other) (subset : fewer ⊆ held) :
    st.SameFor fewer other :=
  { same with channels := fun h hin => same.channels h (subset hin) }

theorem SameFor.completes {h : Handle} {later later' : Store υ} (same : st.SameFor held other)
    (completes : Completes {h} st later) (completes' : Completes {h} other later')
    (hdue : later.due = later'.due) (hdeferred : later.deferred = later'.deferred)
    (hchannel : st.channel? h = other.channel? h → later.channel? h = later'.channel? h) :
    later.SameFor held later' where
  user := by rw [completes.user, completes'.user, same.user]
  ears := by rw [completes.ears, completes'.ears, same.ears]
  due := hdue
  deferred := hdeferred
  reports := by rw [completes.reports, completes'.reports, same.reports]
  channels k hk := by
    by_cases heq : k = h
    · rw [heq] at hk ⊢
      exact hchannel (same.channels h hk)
    · rw [completes.others k heq, completes'.others k heq, same.channels k hk]

theorem SameFor.settle (same : st.SameFor held other) (spans : List Span) (h : Handle)
    (s : Settlement) : (st.settle spans h s).SameFor held (other.settle spans h s) := by
  apply same.completes (st.completes_settle spans h s) (other.completes_settle spans h s)
  · rw [due_settle, due_settle, same.due]
  · rw [deferred_settle, deferred_settle, same.deferred]
  · intro hsame
    rw [channel?_settle, channel?_settle, hsame]

theorem SameFor.discard (same : st.SameFor held other) (h : Handle) :
    (st.discard h).SameFor held (other.discard h) := by
  apply same.completes (st.completes_discard h) (other.completes_discard h)
  · rw [due_discard, due_discard, same.due]
  · rw [deferred_discard, deferred_discard, same.deferred]
  · intro hsame
    rw [channel?_discard, channel?_discard, hsame]

theorem SameFor.deafen (same : st.SameFor held other) (h : Handle) :
    (st.deafen h).SameFor held (other.deafen h) := by
  refine { same with ears := ?_, channels := fun k hk => ?_ }
  · rw [ears_deafen, ears_deafen, same.ears]
  · rw [channel?_deafen, channel?_deafen, same.channels k hk]

theorem SameFor.send (same : st.SameFor held other) (completions : List (Handle × Settlement)) :
    (Store.send completions st).SameFor held (Store.send completions other) := by
  induction completions generalizing st other with
  | nil => exact same
  | cons head rest ih => exact ih (same.settle [] head.1 head.2)

theorem SameFor.turn (same : st.SameFor held other) : st.turn.SameFor held other.turn := by
  unfold Store.turn
  rw [← same.due, ← same.deferred]
  apply send
  exact { same with due := rfl, deferred := rfl }

theorem SameFor.settlement? (same : st.SameFor held other) {h : Handle} (hheld : h ∈ held) :
    st.settlement? h = other.settlement? h := by
  unfold Store.settlement?
  rw [same.channels h hheld]

/-- The stores answer alike, and are the same for the program afterwards. -/
theorem SameFor.answer {known : Set Handle} (same : st.SameFor held other) (spans : List Span)
    (q : Request) (permitted : q.Permitted known held) :
    (st.answer spans q).1 = (other.answer spans q).1 ∧
      (st.answer spans q).2.SameFor (q.keep held (st.answer spans q).1)
        (other.answer spans q).2 := by
  cases q with
  | openChannel =>
      have hsize : st.channels.size = other.channels.size := by
        rw [← size_ears, ← size_ears, same.ears]
      have hhandle : st.openChannel.1 = other.openChannel.1 := congrArg Handle.mk hsize
      refine ⟨hhandle, { same with ears := ?_, channels := ?_ }⟩
      · simp only [Store.answer, ears_openChannel, same.ears]
      · intro h hin
        simp only [Store.answer, channel?_openChannel, ← hhandle]
        by_cases hnew : h = st.openChannel.1
        · rw [if_pos hnew, if_pos hnew]
        · rw [if_neg hnew, if_neg hnew]
          exact same.channels h (hin.resolve_left hnew)
  | settle h s => exact ⟨rfl, same.settle spans h s⟩
  | discard h => exact ⟨rfl, same.discard h⟩
  | deafen h => exact ⟨rfl, (same.deafen h).mono fun k hk => hk.1⟩
  | isWaiting h =>
      refine ⟨?_, same⟩
      simp only [Store.answer, isWaiting_eq_ears, same.ears]
  | defer h s =>
      refine ⟨rfl, { same with deferred := ?_ }⟩
      simp only [Store.answer, Store.defer, same.deferred]
  | report notice =>
      refine ⟨rfl, { same with reports := ?_ }⟩
      simp only [Store.answer, reports_report, same.reports]

/-- Completions through a continuation that the program does not wait for are such a difference. -/
theorem SameFor.of_completes {h : Handle} {later : Store υ} (completes : Completes {h} st later)
    (hdue : later.due = st.due) (hdeferred : later.deferred = st.deferred) (hheld : h ∉ held) :
    later.SameFor held st where
  user := completes.user
  ears := completes.ears
  due := hdue
  deferred := hdeferred
  reports := completes.reports
  channels k hk := completes.others k fun heq => hheld (heq ▸ hk)

end Store

/-- Courses that are the same for the program. -/
def Course.Same : Course υ α → Course υ α → Prop
  | ended st value left, other => ∃ st', other = ended st' value left ∧ st.SameFor ∅ st'
  | unwound st payload, other => ∃ st', other = unwound st' payload ∧ st.SameFor ∅ st'
  | pending st rest, other =>
      ∃ st', other = pending st' rest ∧ st.SameFor {h | h ∈ rest.onDrop} st'
  | exhausted st, other => ∃ st', other = exhausted st' ∧ st.SameFor ∅ st'

/-- An honest program comes to the same on stores that are the same for it. -/
theorem Program.Honest.same {keeps : υ → Set Handle} {older known held : Set Handle}
    {post : α → Set Handle → Prop} {p : Suspending υ α}
    (honest : p.Honest keeps ∅ post known held) {st other : Store υ}
    (serves : st.Serves keeps older known held) (same : st.SameFor held other) :
    (p.course [] st).Same (p.course [] other) := by
  induction p generalizing known held st other with
  | done value => exact ⟨other, rfl, same.mono (Set.empty_subset _)⟩
  | panic payload => exact ⟨other, rfl, same.mono (Set.empty_subset _)⟩
  | exhausted may => exact ⟨other, rfl, same.mono (Set.empty_subset _)⟩
  | user update next ih =>
      obtain ⟨hkeeps, hnext⟩ := honest st.user serves.user
      have hsame : ({ st with user := update st.user } : Store υ).SameFor held
          { other with user := update st.user } := { same with user := rfl }
      simp only [Program.course, ← same.user]
      exact ih st.user hnext { serves with user := hkeeps } hsame
  | request spans q next ih =>
      obtain ⟨hfresh, hserves⟩ := serves.answer spans honest.1
      obtain ⟨hreply, hsame⟩ := same.answer spans q honest.1
      simp only [Program.course, ← hreply]
      exact ih _ (honest.2 _ hfresh) hserves hsame
  | pause may onDrop next ih =>
      exact ⟨other.turn, rfl, same.turn.mono fun h hin => (honest.1 h).1 hin⟩
  | await may onDrop h next ih =>
      have hheld : h ∈ held := honest.2.1.resolve_right (Set.notMem_empty h)
      have hsame := same.settlement? hheld
      cases hsettled : st.settlement? h with
      | some s =>
          rw [course_await_of_settled hsettled, course_await_of_settled (hsame ▸ hsettled)]
          exact ih s (honest.2.2 known s (Set.Subset.refl _)) serves same
      | none =>
          rw [course_await_nil hsettled, course_await_nil (hsame ▸ hsettled)]
          exact ⟨other.turn, rfl, same.turn.mono fun h hin => (honest.1 h).1 hin⟩

end Stepwise
