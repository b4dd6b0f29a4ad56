import Mathlib.Data.Set.Insert
import Stepwise.Store
/-!
# Channels

What the operations on a store leave alone.  A completion is seen through the sending end of its own
channel only: the other channels, the waiting ends and what the engine reports stay as they are.
-/

namespace Stepwise

variable {υ ρ : Type}

/-- Whether the engine reports this of itself, and not of a completion that came too late. -/
def Notice.ofEngine : Notice → Bool
  | waiterGone => false
  | _ => true

namespace Store

/-- The events of the trace except those about completions that came too late. -/
def reports (st : Store υ) : List Event := st.trace.toList.filter (·.notice.ofEngine)

/-- For each channel, whether its waiting end is there. -/
def ears (st : Store υ) : Array Bool := st.channels.map Channel.waiting

theorem size_ears (st : Store υ) : st.ears.size = st.channels.size := by
  simp [ears]

theorem isWaiting_eq_ears (st : Store υ) (h : Handle) :
    st.isWaiting h = st.ears[h.id]?.getD false := by
  simp only [isWaiting, channel?, ears, Array.getElem?_map]
  cases st.channels[h.id]? <;> rfl

theorem channel?_isSome (st : Store υ) (h : Handle) :
    (st.channel? h).isSome ↔ h.id < st.channels.size := by
  simp [channel?]

/-! ## Changing one channel -/

theorem channel?_updateChannel (st : Store υ) (h other : Handle) (update : Channel → Channel) :
    (st.updateChannel h update).channel? other =
      if h = other then (st.channel? other).map update else st.channel? other := by
  simp only [updateChannel, channel?, Array.getElem?_modify]
  by_cases heq : h = other
  · simp [heq]
  · have hid : h.id ≠ other.id := fun hid => heq (by cases h; cases other; simp_all)
    simp [heq, hid]

theorem ears_updateChannel {st : Store υ} {h : Handle} {update : Channel → Channel}
    (keeps : ∀ c, st.channel? h = some c → (update c).waiting = c.waiting) :
    (st.updateChannel h update).ears = st.ears := by
  apply Array.ext_getElem?
  intro i
  simp only [ears, updateChannel, Array.getElem?_map, Array.getElem?_modify]
  split
  · rename_i hi
    subst hi
    cases hc : st.channels[h.id]? with
    | none => rfl
    | some c => simp [keeps c hc]
  · rfl

theorem reports_report (st : Store υ) (spans : List Span) (notice : Notice) :
    (st.report spans notice).reports =
      if notice.ofEngine then st.reports ++ [⟨notice, spans⟩] else st.reports := by
  simp only [reports, report, Array.toList_push, List.filter_append]
  by_cases hown : notice.ofEngine <;> simp [hown]

/-! ## Completions -/

/-- The store after some completions through the handles that are named. -/
structure Completes (named : Set Handle) (st later : Store υ) : Prop where
  user : later.user = st.user
  ears : later.ears = st.ears
  others : ∀ h, h ∉ named → later.channel? h = st.channel? h
  reports : later.reports = st.reports

theorem Completes.refl (named : Set Handle) (st : Store υ) : Completes named st st :=
  ⟨rfl, rfl, fun _ _ => rfl, rfl⟩

theorem Completes.trans {named : Set Handle} {st later last : Store υ}
    (first : Completes named st later) (second : Completes named later last) :
    Completes named st last where
  user := second.user.trans first.user
  ears := second.ears.trans first.ears
  others h hnot := (second.others h hnot).trans (first.others h hnot)
  reports := second.reports.trans first.reports

theorem Completes.mono {named wider : Set Handle} {st later : Store υ}
    (completes : Completes named st later) (widen : named ⊆ wider) : Completes wider st later :=
  { completes with others := fun h hnot => completes.others h fun hin => hnot (widen hin) }

theorem Completes.size {named : Set Handle} {st later : Store υ}
    (completes : Completes named st later) : later.channels.size = st.channels.size := by
  rw [← size_ears, completes.ears, size_ears]

theorem completes_updateSender (st : Store υ) (h : Handle) (sender : Sender) :
    Completes {h} st (st.updateChannel h ({ · with sender := sender })) where
  user := rfl
  ears := ears_updateChannel fun _ _ => rfl
  others other hnot := by
    rw [channel?_updateChannel, if_neg]
    exact fun heq => hnot heq.symm
  reports := rfl

theorem completes_settle (st : Store υ) (spans : List Span) (h : Handle) (s : Settlement) :
    Completes {h} st (st.settle spans h s) := by
  unfold settle
  split
  · exact st.completes_updateSender h (.sent s)
  · have hdrop := st.completes_updateSender h .dropped
    refine ⟨hdrop.user, hdrop.ears, hdrop.others, ?_⟩
    rw [reports_report]
    exact hdrop.reports
  · exact .refl _ _

theorem completes_discard (st : Store υ) (h : Handle) : Completes {h} st (st.discard h) := by
  unfold discard
  split
  · exact st.completes_updateSender h .dropped
  · exact .refl _ _

@[simp] theorem due_settle (st : Store υ) (spans : List Span) (h : Handle) (s : Settlement) :
    (st.settle spans h s).due = st.due := by
  unfold settle
  split <;> rfl

@[simp] theorem deferred_settle (st : Store υ) (spans : List Span) (h : Handle) (s : Settlement) :
    (st.settle spans h s).deferred = st.deferred := by
  unfold settle
  split <;> rfl

@[simp] theorem due_discard (st : Store υ) (h : Handle) : (st.discard h).due = st.due := by
  unfold discard
  split <;> rfl

@[simp] theorem deferred_discard (st : Store υ) (h : Handle) :
    (st.discard h).deferred = st.deferred := by
  unfold discard
  split <;> rfl

/-- The handles that completions are scheduled for. -/
def named (completions : List (Handle × Settlement)) : Set Handle := {h | ∃ s, (h, s) ∈ completions}

theorem send_cons (h : Handle) (s : Settlement) (completions : List (Handle × Settlement))
    (st : Store υ) :
    send ((h, s) :: completions) st = send completions (st.settle [] h s) := rfl

theorem send_append (first second : List (Handle × Settlement)) (st : Store υ) :
    send (first ++ second) st = send second (send first st) := by
  simp [send]

theorem completes_send (completions : List (Handle × Settlement)) (st : Store υ) :
    Completes (named completions) st (send completions st) := by
  induction completions generalizing st with
  | nil => exact .refl _ _
  | cons head rest ih =>
      obtain ⟨h, s⟩ := head
      rw [send_cons]
      have hfirst : Completes (named ((h, s) :: rest)) st (st.settle [] h s) := by
        apply (st.completes_settle [] h s).mono
        rintro other rfl
        exact ⟨s, List.mem_cons_self⟩
      apply hfirst.trans
      apply (ih _).mono
      rintro other ⟨s', hs'⟩
      exact ⟨s', List.mem_cons_of_mem _ hs'⟩

@[simp] theorem due_send (completions : List (Handle × Settlement)) (st : Store υ) :
    (send completions st).due = st.due := by
  induction completions generalizing st with
  | nil => rfl
  | cons head rest ih => rw [send_cons, ih, due_settle]

@[simp] theorem deferred_send (completions : List (Handle × Settlement)) (st : Store υ) :
    (send completions st).deferred = st.deferred := by
  induction completions generalizing st with
  | nil => rfl
  | cons head rest ih => rw [send_cons, ih, deferred_settle]

theorem completes_turn (st : Store υ) : Completes (named st.due) st st.turn := by
  have hsend := completes_send st.due { st with due := st.deferred, deferred := [] }
  exact ⟨hsend.user, hsend.ears, hsend.others, hsend.reports⟩

@[simp] theorem due_turn (st : Store υ) : st.turn.due = st.deferred := by
  simp [turn]

@[simp] theorem deferred_turn (st : Store υ) : st.turn.deferred = [] := by
  simp [turn]

/-! ## The other operations -/

theorem channel?_openChannel (st : Store υ) (h : Handle) :
    st.openChannel.2.channel? h =
      if h = st.openChannel.1 then some ⟨.held, true⟩ else st.channel? h := by
  simp only [openChannel, channel?, Array.getElem?_push]
  by_cases heq : h.id = st.channels.size
  · have : h = ⟨st.channels.size⟩ := by cases h; simp_all
    simp [this]
  · have : h ≠ ⟨st.channels.size⟩ := fun h' => heq (by rw [h'])
    simp [heq, this]

theorem ears_openChannel (st : Store υ) : st.openChannel.2.ears = st.ears.push true := by
  simp [openChannel, ears]

theorem channel?_deafen (st : Store υ) (h other : Handle) :
    (st.deafen h).channel? other =
      if h = other then (st.channel? other).map ({ · with waiting := false })
      else st.channel? other :=
  st.channel?_updateChannel h other _

theorem ears_deafen (st : Store υ) (h : Handle) :
    (st.deafen h).ears = st.ears.modify h.id fun _ => false := by
  apply Array.ext_getElem?
  intro i
  simp only [ears, deafen, updateChannel, Array.getElem?_map, Array.getElem?_modify]
  split <;> simp [Function.comp_def]

end Store

/-! ## The sending end of one channel -/

/-- The channel after a completion through it. -/
def Channel.settle (c : Channel) (s : Settlement) : Channel :=
  match c with
  | ⟨.held, true⟩ => ⟨.sent s, true⟩
  | ⟨.held, false⟩ => ⟨.dropped, false⟩
  | c => c

/-- The channel after its sending end was dropped. -/
def Channel.discard (c : Channel) : Channel :=
  match c with
  | ⟨.held, waiting⟩ => ⟨.dropped, waiting⟩
  | c => c

namespace Store

/-- What a completion makes of a channel depends on that channel alone. -/
theorem channel?_settle (st : Store υ) (spans : List Span) (h : Handle) (s : Settlement) :
    (st.settle spans h s).channel? h = (st.channel? h).map (·.settle s) := by
  have hupdate (update : Channel → Channel) :
      (st.updateChannel h update).channel? h = (st.channel? h).map update := by
    rw [channel?_updateChannel, if_pos rfl]
  unfold settle
  cases hc : st.channel? h with
  | none => exact hc
  | some c =>
      obtain ⟨sender, waiting⟩ := c
      rw [hc] at hupdate
      cases sender with
      | sent s' => exact hc
      | dropped => exact hc
      | held =>
          cases waiting with
          | true => exact hupdate _
          | false => exact hupdate _

theorem channel?_discard (st : Store υ) (h : Handle) :
    (st.discard h).channel? h = (st.channel? h).map Channel.discard := by
  unfold discard
  cases hc : st.channel? h with
  | none => exact hc
  | some c =>
      obtain ⟨sender, waiting⟩ := c
      cases sender with
      | sent s => exact hc
      | dropped => exact hc
      | held =>
          simp only [channel?_updateChannel, if_pos, hc]
          rfl

/-- What is sent while somebody waits is what they find. -/
theorem settlement?_settle_held {st : Store υ} {h : Handle} (s : Settlement) (spans : List Span)
    (hheld : st.channel? h = some ⟨.held, true⟩) : (st.settle spans h s).settlement? h = some s := by
  rw [settlement?, channel?_settle, hheld]
  rfl

end Store

/-! ## Parts of a run -/

/-- The event as reported from inside of further spans. -/
def Event.under (spans : List Span) (event : Event) : Event :=
  { event with spans := spans ++ event.spans }

namespace Store

/-- The store that a part of a run works on, and the store of the run around it: the run has a
component of state of its own, and what the part reports is under the spans it runs in. -/
structure Beside (spans : List Span) (res : ρ) (log outerLog : List Event) (st : Store υ)
    (outer : Store (υ × ρ)) : Prop where
  user : outer.user = (st.user, res)
  channels : outer.channels = st.channels
  due : outer.due = st.due
  deferred : outer.deferred = st.deferred
  reports : ∃ events, st.reports = log ++ events ∧
    outer.reports = outerLog ++ events.map (Event.under spans)

namespace Beside

variable {spans : List Span} {res : ρ} {log outerLog : List Event} {st : Store υ}
  {outer : Store (υ × ρ)}

theorem start (st : Store υ) (outer : Store (υ × ρ)) (huser : outer.user = (st.user, res))
    (hchannels : outer.channels = st.channels) (hdue : outer.due = st.due)
    (hdeferred : outer.deferred = st.deferred) :
    st.Beside spans res st.reports outer.reports outer :=
  ⟨huser, hchannels, hdue, hdeferred, [], by simp, by simp⟩

theorem channel? (beside : st.Beside spans res log outerLog outer) (h : Handle) :
    outer.channel? h = st.channel? h := by
  simp only [Store.channel?, beside.channels]

theorem settlement? (beside : st.Beside spans res log outerLog outer) (h : Handle) :
    outer.settlement? h = st.settlement? h := by
  simp only [Store.settlement?, beside.channel?]

theorem update (beside : st.Beside spans res log outerLog outer) (update : υ → υ) :
    Beside spans res log outerLog { st with user := update st.user }
      { outer with user := (update st.user, res) } :=
  { beside with user := rfl }

theorem updateChannel (beside : st.Beside spans res log outerLog outer) (h : Handle)
    (update : Channel → Channel) :
    (st.updateChannel h update).Beside spans res log outerLog (outer.updateChannel h update) := by
  refine { beside with channels := ?_ }
  simp only [Store.updateChannel, beside.channels]

theorem report (beside : st.Beside spans res log outerLog outer) {inner outerSpans : List Span}
    {notice : Notice} (hspans : notice.ofEngine → outerSpans = spans ++ inner) :
    (st.report inner notice).Beside spans res log outerLog (outer.report outerSpans notice) := by
  refine { beside with reports := ?_ }
  obtain ⟨events, hevents, houter⟩ := beside.reports
  rw [reports_report, reports_report]
  by_cases hown : notice.ofEngine
  · rw [if_pos hown, if_pos hown]
    refine ⟨events ++ [⟨notice, inner⟩], ?_, ?_⟩
    · rw [hevents, List.append_assoc]
    · rw [houter, hspans hown, List.map_append, List.append_assoc]
      rfl
  · rw [if_neg hown, if_neg hown]
    exact ⟨events, hevents, houter⟩

theorem settle (beside : st.Beside spans res log outerLog outer) (inner outerSpans : List Span)
    (h : Handle) (s : Settlement) :
    (st.settle inner h s).Beside spans res log outerLog (outer.settle outerSpans h s) := by
  unfold Store.settle
  rw [beside.channel?]
  split
  · exact beside.updateChannel h _
  · exact (beside.updateChannel h _).report fun hown => by cases hown
  · exact beside

theorem send (beside : st.Beside spans res log outerLog outer)
    (completions : List (Handle × Settlement)) :
    (Store.send completions st).Beside spans res log outerLog (Store.send completions outer) := by
  induction completions generalizing st outer with
  | nil => exact beside
  | cons head rest ih => exact ih (beside.settle [] [] head.1 head.2)

theorem turn (beside : st.Beside spans res log outerLog outer) :
    st.turn.Beside spans res log outerLog outer.turn := by
  unfold Store.turn
  rw [beside.due, beside.deferred]
  apply send
  exact { beside with due := rfl, deferred := rfl }

theorem answer (beside : st.Beside spans res log outerLog outer) (inner : List Span)
    (q : Request) :
    (outer.answer (spans ++ inner) q).1 = (st.answer inner q).1 ∧
      (st.answer inner q).2.Beside spans res log outerLog (outer.answer (spans ++ inner) q).2 := by
  cases q with
  | openChannel =>
      simp only [Store.answer, Store.openChannel, beside.channels]
      exact ⟨trivial, { beside with channels := rfl }⟩
  | settle h s => exact ⟨rfl, beside.settle _ _ h s⟩
  | discard h =>
      refine ⟨rfl, ?_⟩
      simp only [Store.answer, Store.discard]
      rw [beside.channel?]
      split
      · exact beside.updateChannel h _
      · exact beside
  | deafen h => exact ⟨rfl, beside.updateChannel h _⟩
  | isWaiting h =>
      refine ⟨?_, beside⟩
      simp only [Store.answer, Store.isWaiting, beside.channel?]
  | defer h s =>
      refine ⟨rfl, { beside with deferred := ?_ }⟩
      simp only [Store.answer, Store.defer, beside.deferred]
  | report notice => exact ⟨rfl, beside.report fun _ => rfl⟩

end Beside

/-- Beside a second component of the state a store answers as it does alone. -/
theorem answer_attach (st : Store (υ × ρ)) (spans : List Span) (q : Request) :
    (st.answer spans q).1 = (st.detach.2.answer spans q).1 ∧
      (st.answer spans q).2 = (st.detach.2.answer spans q).2.attach st.detach.1 := by
  cases q with
  | settle h s =>
      refine ⟨rfl, ?_⟩
      have hchannel : st.detach.2.channel? h = st.channel? h := rfl
      simp only [answer, Store.settle, hchannel]
      split <;> rfl
  | discard h =>
      refine ⟨rfl, ?_⟩
      have hchannel : st.detach.2.channel? h = st.channel? h := rfl
      simp only [answer, Store.discard, hchannel]
      split <;> rfl
  | openChannel => exact ⟨rfl, rfl⟩
  | deafen h => exact ⟨rfl, rfl⟩
  | isWaiting h => exact ⟨rfl, rfl⟩
  | defer h s => exact ⟨rfl, rfl⟩
  | report notice => exact ⟨rfl, rfl⟩

theorem send_attach (completions : List (Handle × Settlement)) (st : Store υ) (r : ρ) :
    send completions (st.attach r) = (send completions st).attach r := by
  induction completions generalizing st with
  | nil => rfl
  | cons head rest ih =>
      obtain ⟨h, s⟩ := head
      have hsettle : (st.attach r).settle [] h s = (st.settle [] h s).attach r :=
        ((st.attach r).answer_attach [] (.settle h s)).2
      rw [send_cons, send_cons, hsettle]
      exact ih _

theorem turn_attach (st : Store υ) (r : ρ) : (st.attach r).turn = st.turn.attach r :=
  send_attach st.due { st with due := st.deferred, deferred := [] } r

end Store

end Stepwise
