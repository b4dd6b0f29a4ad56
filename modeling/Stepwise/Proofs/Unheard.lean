import Stepwise.Proofs.Calls
import Stepwise.Proofs.Frame
import Stepwise.Proofs.Genuine
import Stepwise.Proofs.Untraced
/-!
# Channels that nobody listens to

A sending end that was dropped stays so, and its waiter finds that it was abandoned.  A program that
does not ask whether somebody waits for a continuation does the same whether or not somebody does:
only what is sent there, and the report that it came too late, are different.
-/

namespace Stepwise

variable {υ α : Type}

/-! ## Sending ends that were dropped -/

namespace Store

/-- The sending end of the channel was dropped. -/
def Lost (k : Handle) (st : Store υ) : Prop := ∃ waiting, st.channel? k = some ⟨.dropped, waiting⟩

variable {k : Handle} {st : Store υ}

theorem Lost.settlement? (lost : st.Lost k) : st.settlement? k = some (.error .abandoned) := by
  obtain ⟨waiting, hchannel⟩ := lost
  rw [Store.settlement?, hchannel]
  rfl

theorem Lost.settle (lost : st.Lost k) (spans : List Span) (h : Handle) (s : Settlement) :
    (st.settle spans h s).Lost k := by
  obtain ⟨waiting, hchannel⟩ := lost
  by_cases hk : k = h
  · refine ⟨waiting, ?_⟩
    rw [← hk, Store.settle, hchannel]
    exact hchannel
  · exact ⟨waiting, ((st.completes_settle spans h s).others k hk).trans hchannel⟩

theorem Lost.discard (lost : st.Lost k) (h : Handle) : (st.discard h).Lost k := by
  obtain ⟨waiting, hchannel⟩ := lost
  by_cases hk : k = h
  · refine ⟨waiting, ?_⟩
    rw [← hk, Store.discard, hchannel]
    exact hchannel
  · exact ⟨waiting, ((st.completes_discard h).others k hk).trans hchannel⟩

theorem Lost.deafen (lost : st.Lost k) (h : Handle) : (st.deafen h).Lost k := by
  obtain ⟨waiting, hchannel⟩ := lost
  rw [Lost, channel?_deafen, hchannel]
  split
  · exact ⟨false, rfl⟩
  · exact ⟨waiting, rfl⟩

theorem Lost.turn (lost : st.Lost k) : st.turn.Lost k := by
  have hsend (completions : List (Handle × Settlement)) {st : Store υ} (lost : st.Lost k) :
      (Store.send completions st).Lost k := by
    induction completions generalizing st with
    | nil => exact lost
    | cons head rest ih => exact ih (lost.settle [] head.1 head.2)
  exact hsend st.due lost

theorem Lost.answer (lost : st.Lost k) (spans : List Span) (q : Request) :
    (st.answer spans q).2.Lost k := by
  cases q with
  | openChannel =>
      obtain ⟨waiting, hchannel⟩ := lost
      have hopen : k.id < st.channels.size := (st.channel?_isSome k).1 (hchannel ▸ rfl)
      have hne : k ≠ st.openChannel.1 := by
        rintro rfl
        exact Nat.lt_irrefl _ hopen
      exact ⟨waiting, (st.channel?_openChannel k).trans ((if_neg hne).trans hchannel)⟩
  | settle h s => exact lost.settle spans h s
  | discard h => exact lost.discard h
  | deafen h => exact lost.deafen h
  | isWaiting h => exact lost
  | defer h s => exact lost
  | report notice => exact lost

/-- The waiter of a continuation that was dropped finds just that. -/
theorem Lost.poll_waiter (lost : st.Lost k) :
    (Parked.waiter k).poll st = .done (st.deafen k) (.error .abandoned) := by
  simp only [Parked.poll, Parked.waiter, Program.settled, Program.closing, Program.poll,
    lost.settlement?]
  rfl

end Store

namespace Program

variable {k : Handle} {st : Store υ}

theorem lost_run (p : Direct υ α) (lost : st.Lost k) : (p.run st).2.Lost k := by
  induction p generalizing st with
  | done value => exact lost
  | panic payload => exact lost
  | exhausted may => cases may
  | user update next ih =>
      have hnext : Store.Lost k { st with user := update st.user } := lost
      exact ih _ hnext
  | request spans q next ih => exact ih _ (lost.answer spans q)
  | pause may => cases may
  | await may => cases may

end Program

/-- Where a program came to. -/
def Halt.store : Halt υ α → Store υ
  | ended st _ _ | unwound st _ | pending st _ | exhausted st => st

/-- Nothing that a program does, and nothing in between that keeps to it, brings a sending end back
that was dropped. -/
theorem Program.lost_course {k : Handle} (p : Suspending υ α) {acts : List (Act υ)}
    (keep : ∀ act ∈ acts, ∀ st, st.Lost k → (act st).Lost k) {st : Store υ} (lost : st.Lost k) :
    (p.course acts st).halt.store.Lost k := by
  induction p generalizing acts st with
  | done value => exact lost
  | panic payload => exact lost
  | exhausted may => exact lost
  | user update next ih =>
      have hnext : Store.Lost k { st with user := update st.user } := lost
      exact ih _ keep hnext
  | request spans q next ih => exact ih _ keep (lost.answer spans q)
  | pause may onDrop next ih =>
      cases acts with
      | nil => exact lost.turn
      | cons act acts =>
          obtain ⟨hact, hacts⟩ := List.forall_mem_cons.1 keep
          exact ih () hacts (hact _ lost.turn)
  | await may onDrop h next ih =>
      have hwait (acts : List (Act υ)) (keep : ∀ act ∈ acts, ∀ st, st.Lost k → (act st).Lost k)
          {st : Store υ} (lost : st.Lost k) : (st.waitAmid h acts).2.Lost k := by
        fun_induction Store.waitAmid h acts st with
        | case1 st s acts settled => exact lost
        | case2 st unsettled => exact lost.turn
        | case3 st act acts unsettled later =>
            obtain ⟨hact, hacts⟩ := List.forall_mem_cons.1 keep
            exact later hacts (hact _ lost.turn)
      have hlast := hwait acts keep lost
      simp only [course]
      rcases hfound : st.waitAmid h acts with ⟨_ | ⟨s, left⟩, last⟩ <;> rw [hfound] at hlast
      · exact hlast
      · have hsuffix := Store.left_suffix_of_waitAmid hfound
        exact ih s (fun act hact => keep act (hsuffix.subset hact)) hlast

/-- A future drops the continuation before anything else. -/
theorem Step.lost_called {step : Step υ} (hshape : step.shape = .future) (args : Values)
    (config : Config) (spans : List Span) (st : Store υ) :
    (step.called args config spans st.openChannel.1 st.openChannel.2).2.Lost st.openChannel.1 := by
  have hlost : (st.openChannel.2.discard st.openChannel.1).Lost st.openChannel.1 := by
    refine ⟨true, ?_⟩
    rw [Store.channel?_discard, Store.channel?_openChannel, if_pos rfl]
    rfl
  cases hstep : step.invoker with
  | sync body => rw [shape, hstep] at hshape; cases hshape
  | callback body => rw [shape, hstep] at hshape; cases hshape
  | future start =>
      have hrun := ((start args).under spans).lost_run hlost
      rw [called_future hstep]
      rcases hstart : ((start args).under spans).run
        (st.openChannel.2.discard st.openChannel.1) with ⟨payload | task, mid⟩
      all_goals rw [hstart] at hrun
      · dsimp only
        split <;> exact hrun
      · exact hrun

/-! ## Stores with and without a waiter -/

/-- The second channel is the first one if its waiting end is gone: what was sent is lost there. -/
inductive Channel.Unheard : Channel → Channel → Prop
  | same (sender : Sender) (waiting : Bool) : Unheard ⟨sender, waiting⟩ ⟨sender, false⟩
  | missed (s : Settlement) (waiting : Bool) : Unheard ⟨.sent s, waiting⟩ ⟨.dropped, false⟩

theorem Channel.Unheard.settle {c c' : Channel} (unheard : c.Unheard c') (s : Settlement) :
    (c.settle s).Unheard (c'.settle s) := by
  cases unheard with
  | missed sent waiting => exact .missed sent waiting
  | same sender waiting =>
      cases sender with
      | sent sent => exact .same _ waiting
      | dropped => exact .same _ waiting
      | held =>
          cases waiting with
          | true => exact .missed s true
          | false => exact .same _ false

theorem Channel.Unheard.discard {c c' : Channel} (unheard : c.Unheard c') :
    c.discard.Unheard c'.discard := by
  cases unheard with
  | missed s waiting => exact .missed s waiting
  | same sender waiting => cases sender <;> exact .same _ waiting

namespace Store

/-- The second store is the first one if nobody waits at the channel. -/
structure Unheard (k : Handle) (st other : Store υ) : Prop where
  user : other.user = st.user
  due : other.due = st.due
  deferred : other.deferred = st.deferred
  reports : other.reports = st.reports
  size : other.channels.size = st.channels.size
  others : ∀ h, h ≠ k → other.channel? h = st.channel? h
  channel : ∃ c c', st.channel? k = some c ∧ other.channel? k = some c' ∧ c.Unheard c'

variable {k : Handle} {st other : Store υ}

/-- Nobody waits any more. -/
theorem unheard_deafen (hopen : k ∈ st.opened) : st.Unheard k (st.deafen k) := by
  obtain ⟨⟨sender, waiting⟩, hchannel⟩ :=
    Option.isSome_iff_exists.1 ((st.channel?_isSome k).2 hopen)
  refine ⟨rfl, rfl, rfl, rfl, Array.size_modify, fun h hne => ?_, ?_⟩
  · rw [channel?_deafen, if_neg hne.symm]
  · refine ⟨_, ⟨sender, false⟩, hchannel, ?_, .same sender waiting⟩
    rw [channel?_deafen, if_pos rfl, hchannel]
    rfl

/-- Completions alike at both stores. -/
theorem Unheard.completes {h : Handle} {later later' : Store υ} (unheard : st.Unheard k other)
    (completes : Completes {h} st later) (completes' : Completes {h} other later')
    (hdue : later'.due = later.due) (hdeferred : later'.deferred = later.deferred)
    (hother : h ≠ k → later'.channel? h = later.channel? h)
    (hsame : h = k → ∃ c c', later.channel? k = some c ∧ later'.channel? k = some c' ∧
      c.Unheard c') : later.Unheard k later' where
  user := by rw [completes.user, completes'.user, unheard.user]
  due := hdue
  deferred := hdeferred
  reports := by rw [completes.reports, completes'.reports, unheard.reports]
  size := by rw [completes.size, completes'.size, unheard.size]
  others other hne := by
    by_cases heq : other = h
    · subst heq
      exact hother hne
    · rw [completes.others other heq, completes'.others other heq, unheard.others other hne]
  channel := by
    by_cases heq : h = k
    · exact hsame heq
    · obtain ⟨c, c', hc, hc', hchannel⟩ := unheard.channel
      refine ⟨c, c', ?_, ?_, hchannel⟩
      · rw [completes.others k (Ne.symm heq), hc]
      · rw [completes'.others k (Ne.symm heq), hc']

theorem Unheard.settle (unheard : st.Unheard k other) (spans : List Span) (h : Handle)
    (s : Settlement) : (st.settle spans h s).Unheard k (other.settle spans h s) := by
  apply unheard.completes (st.completes_settle spans h s) (other.completes_settle spans h s)
  · rw [due_settle, due_settle, unheard.due]
  · rw [deferred_settle, deferred_settle, unheard.deferred]
  · intro hne
    rw [channel?_settle, channel?_settle, unheard.others h hne]
  · rintro rfl
    obtain ⟨c, c', hc, hc', hchannel⟩ := unheard.channel
    refine ⟨c.settle s, c'.settle s, ?_, ?_, hchannel.settle s⟩
    · rw [channel?_settle, hc, Option.map_some]
    · rw [channel?_settle, hc', Option.map_some]

theorem Unheard.discard (unheard : st.Unheard k other) (h : Handle) :
    (st.discard h).Unheard k (other.discard h) := by
  apply unheard.completes (st.completes_discard h) (other.completes_discard h)
  · rw [due_discard, due_discard, unheard.due]
  · rw [deferred_discard, deferred_discard, unheard.deferred]
  · intro hne
    rw [channel?_discard, channel?_discard, unheard.others h hne]
  · rintro rfl
    obtain ⟨c, c', hc, hc', hchannel⟩ := unheard.channel
    refine ⟨c.discard, c'.discard, ?_, ?_, hchannel.discard⟩
    · rw [channel?_discard, hc, Option.map_some]
    · rw [channel?_discard, hc', Option.map_some]

theorem Unheard.deafen (unheard : st.Unheard k other) (h : Handle) :
    (st.deafen h).Unheard k (other.deafen h) where
  user := unheard.user
  due := unheard.due
  deferred := unheard.deferred
  reports := unheard.reports
  size := by
    have hsize (st : Store υ) : (st.deafen h).channels.size = st.channels.size := Array.size_modify
    rw [hsize, hsize, unheard.size]
  others other hne := by rw [channel?_deafen, channel?_deafen, unheard.others other hne]
  channel := by
    obtain ⟨c, c', hc, hc', hchannel⟩ := unheard.channel
    simp only [channel?_deafen, hc, hc']
    by_cases heq : h = k
    · simp only [if_pos heq, Option.map_some]
      refine ⟨_, _, rfl, rfl, ?_⟩
      cases hchannel with
      | same sender waiting => exact .same sender false
      | missed s waiting => exact .missed s false
    · simp only [if_neg heq]
      exact ⟨c, c', rfl, rfl, hchannel⟩

theorem Unheard.send (unheard : st.Unheard k other) (completions : List (Handle × Settlement)) :
    (Store.send completions st).Unheard k (Store.send completions other) := by
  induction completions generalizing st other with
  | nil => exact unheard
  | cons head rest ih => exact ih (unheard.settle [] head.1 head.2)

theorem Unheard.turn (unheard : st.Unheard k other) : st.turn.Unheard k other.turn := by
  have hlater : ({ st with due := st.deferred, deferred := [] } : Store υ).Unheard k
      { other with due := st.deferred, deferred := [] } :=
    { unheard with due := rfl, deferred := rfl }
  unfold Store.turn
  rw [unheard.due, unheard.deferred]
  exact hlater.send st.due

/-- To whoever does not ask for the waiter, the stores answer alike. -/
theorem Unheard.answer (unheard : st.Unheard k other) (spans : List Span) {q : Request}
    (quiet : q ≠ .isWaiting k) :
    (other.answer spans q).1 = (st.answer spans q).1 ∧
      (st.answer spans q).2.Unheard k (other.answer spans q).2 := by
  cases q with
  | openChannel =>
      have hhandle : other.openChannel.1 = st.openChannel.1 := congrArg Handle.mk unheard.size
      obtain ⟨c, c', hc, hc', hchannel⟩ := unheard.channel
      have hne : k ≠ st.openChannel.1 := by
        rintro rfl
        have hopen := (st.channel?_isSome st.openChannel.1).1 (hc ▸ rfl)
        exact Nat.lt_irrefl _ hopen
      refine ⟨hhandle, { unheard with size := ?_, others := fun h hh => ?_, channel := ?_ }⟩
      · simp only [Store.answer, openChannel, Array.size_push, unheard.size]
      · simp only [Store.answer, channel?_openChannel, hhandle, unheard.others h hh]
      · refine ⟨c, c', ?_, ?_, hchannel⟩
        · exact (st.channel?_openChannel k).trans ((if_neg hne).trans hc)
        · exact (other.channel?_openChannel k).trans ((if_neg (hhandle ▸ hne)).trans hc')
  | settle h s => exact ⟨rfl, unheard.settle spans h s⟩
  | discard h => exact ⟨rfl, unheard.discard h⟩
  | deafen h => exact ⟨rfl, unheard.deafen h⟩
  | isWaiting h =>
      have hne : h ≠ k := fun heq => quiet (congrArg Request.isWaiting heq)
      refine ⟨?_, unheard⟩
      simp only [Store.answer, isWaiting, unheard.others h hne]
  | defer h s =>
      refine ⟨rfl, { unheard with deferred := ?_ }⟩
      simp only [Store.answer, Store.defer, unheard.deferred]
  | report notice =>
      refine ⟨rfl, { unheard with reports := ?_ }⟩
      simp only [Store.answer, reports_report, unheard.reports]

/-- Nothing else is found where the sending end was dropped. -/
theorem Unheard.settlement? (unheard : st.Unheard k other) (lost : st.Lost k) (h : Handle) :
    other.settlement? h = st.settlement? h := by
  unfold Store.settlement?
  by_cases heq : h = k
  · obtain ⟨waiting, hlost⟩ := lost
    obtain ⟨c, c', hc, hc', hchannel⟩ := unheard.channel
    rw [heq, hlost, hc']
    rw [hlost] at hc
    cases hc
    cases hchannel
    rfl
  · rw [unheard.others h heq]

end Store

/-! ## Programs that do not ask for the waiter -/

/-- Leaves the channel be as far as the waiter goes: it does the same to stores with and without
one, and brings no sending end back that was dropped. -/
structure Act.Heedless (k : Handle) (act : Act υ) : Prop where
  unheard : ∀ st other, st.Unheard k other → (act st).Unheard k (act other)
  lost : ∀ st, st.Lost k → (act st).Lost k

/-- What is left is the same but for the store, which is without the waiter. -/
def Halt.Unheard (k : Handle) : Halt υ α → Halt υ α → Prop
  | ended st value left, other => ∃ st', other = ended st' value left ∧ st.Unheard k st'
  | unwound st payload, other => ∃ st', other = unwound st' payload ∧ st.Unheard k st'
  | pending st onDrop, other => ∃ st', other = pending st' onDrop ∧ st.Unheard k st'
  | exhausted st, other => ∃ st', other = exhausted st' ∧ st.Unheard k st'

section

variable {k : Handle} {st other : Store υ} {post : α → Prop}

/-- Whether somebody waits makes no difference to a plain function that does not ask. -/
theorem Program.Asks.run_unheard {p : Direct υ α} (asks : p.Asks (· ≠ .isWaiting k) post)
    (unheard : st.Unheard k other) (spans : List Span) :
    ((p.under spans).run other).1 = ((p.under spans).run st).1 ∧
      ((p.under spans).run st).2.Unheard k ((p.under spans).run other).2 ∧
        ∀ value, ((p.under spans).run st).1 = .ok value → post value := by
  induction p generalizing st other with
  | done a =>
      refine ⟨rfl, unheard, fun value hvalue => ?_⟩
      cases hvalue
      exact asks
  | panic payload => exact ⟨rfl, unheard, nofun⟩
  | exhausted may => cases may
  | user update next ih =>
      have hnext : Store.Unheard k { st with user := update st.user }
          { other with user := update other.user } :=
        { unheard with user := congrArg update unheard.user }
      simp only [Program.under, Program.run]
      rw [unheard.user] at hnext ⊢
      exact ih _ (asks st.user) hnext
  | request inner q next ih =>
      obtain ⟨hreply, hlast⟩ := unheard.answer (spans ++ inner) asks.1
      simp only [Program.under, Program.run, hreply]
      exact ih _ (asks.2 _) hlast
  | pause may => cases may
  | await may => cases may

theorem Store.Unheard.waitAmid {acts : List (Act υ)} (heedless : ∀ act ∈ acts, act.Heedless k)
    (unheard : st.Unheard k other) (lost : st.Lost k) (h : Handle) :
    (other.waitAmid h acts).1 = (st.waitAmid h acts).1 ∧
      (st.waitAmid h acts).2.Unheard k (other.waitAmid h acts).2 ∧
        (st.waitAmid h acts).2.Lost k := by
  fun_induction Store.waitAmid h acts st generalizing other with
  | case1 st s acts settled =>
      rw [waitAmid_of_settled ((unheard.settlement? lost h).trans settled)]
      exact ⟨rfl, unheard, lost⟩
  | case2 st unsettled =>
      rw [waitAmid_nil ((unheard.settlement? lost h).trans unsettled)]
      exact ⟨rfl, unheard.turn, lost.turn⟩
  | case3 st act acts unsettled ih =>
      rw [waitAmid_cons ((unheard.settlement? lost h).trans unsettled)]
      obtain ⟨hact, hacts⟩ := List.forall_mem_cons.1 heedless
      exact ih hacts (hact.unheard _ _ unheard.turn) (hact.lost _ lost.turn)

/-- Nor does it to a task, once the continuation was dropped. -/
theorem Program.Asks.course_unheard {p : Suspending υ α} (asks : p.Asks (· ≠ .isWaiting k) post)
    {acts : List (Act υ)} (heedless : ∀ act ∈ acts, act.Heedless k)
    (unheard : st.Unheard k other) (lost : st.Lost k) (spans : List Span) :
    ((p.under spans).course acts st).halt.Unheard k ((p.under spans).course acts other).halt := by
  induction p generalizing acts st other with
  | done a => exact ⟨other, rfl, unheard⟩
  | panic payload => exact ⟨other, rfl, unheard⟩
  | exhausted may => exact ⟨other, rfl, unheard⟩
  | user update next ih =>
      have hnext : Store.Unheard k { st with user := update st.user }
          { other with user := update other.user } :=
        { unheard with user := congrArg update unheard.user }
      have hlost : Store.Lost k { st with user := update st.user } := lost
      simp only [Program.under, Program.course]
      rw [unheard.user] at hnext ⊢
      exact ih _ (asks st.user) heedless hnext hlost
  | request inner q next ih =>
      obtain ⟨hreply, hlast⟩ := unheard.answer (spans ++ inner) asks.1
      simp only [Program.under, Program.course, hreply]
      exact ih _ (asks.2 _) heedless hlast (lost.answer _ q)
  | pause may onDrop next ih =>
      cases acts with
      | nil => exact ⟨other.turn, rfl, unheard.turn⟩
      | cons act acts =>
          obtain ⟨hact, hacts⟩ := List.forall_mem_cons.1 heedless
          exact ih () asks hacts (hact.unheard _ _ unheard.turn) (hact.lost _ lost.turn)
  | await may onDrop h next ih =>
      obtain ⟨hfound, hlast, hlost⟩ := unheard.waitAmid heedless lost h
      simp only [Program.under, Program.course]
      rcases hwait : st.waitAmid h acts with ⟨found, mid⟩
      rcases hwait' : other.waitAmid h acts with ⟨found', mid'⟩
      rw [hwait, hwait'] at hfound
      rw [hwait, hwait'] at hlast
      rw [hwait] at hlost
      obtain rfl : found' = found := hfound
      rcases found' with _ | ⟨s, left⟩
      · exact ⟨mid', rfl, hlast⟩
      · have hsuffix := Store.left_suffix_of_waitAmid hwait
        exact ih s (asks s) (fun act hact => heedless act (hsuffix.subset hact)) hlast hlost

end

end Stepwise
