import Stepwise.Proofs.Channels
/-!
# What is sent

A property of settlements that holds of all that programs send holds of all that is found.  The
property is a parameter here, and so are the channels that are watched: one that was just opened, or
all of them.
-/

namespace Stepwise

variable {υ : Type} {P : Settlement → Prop} {on : Set Handle}

/-- Sends, now or later, settlements of the kind only. -/
def Request.Sends (P : Settlement → Prop) : Request → Prop
  | settle _ s | defer _ s => P s
  | _ => True

namespace Store

/-- What is scheduled is of the kind, and so is what was sent through the given handles. -/
structure Carries (P : Settlement → Prop) (on : Set Handle) (st : Store υ) : Prop where
  scheduled : ∀ c ∈ st.due ++ st.deferred, P c.2
  sent : ∀ h ∈ on, ∀ s waiting, st.channel? h = some ⟨.sent s, waiting⟩ → P s

variable {st : Store υ}

/-- What is found through a handle was sent through it, unless its sending end was dropped. -/
theorem Carries.found (carries : st.Carries P on) (lost : P (.error .abandoned)) {h : Handle}
    (hon : h ∈ on) {s : Settlement} (hfound : st.settlement? h = some s) : P s := by
  obtain ⟨⟨sender, waiting⟩, hchannel, hs⟩ := Option.bind_eq_some_iff.1 hfound
  cases sender with
  | held => cases hs
  | sent s' =>
      cases hs
      exact carries.sent h hon s waiting hchannel
  | dropped =>
      cases hs
      exact lost

theorem Carries.updateChannel (carries : st.Carries P on) (k : Handle) {update : Channel → Channel}
    (sends : ∀ c s, (update c).sender = .sent s → c.sender = .sent s ∨ P s) :
    (st.updateChannel k update).Carries P on where
  scheduled := carries.scheduled
  sent h hon s waiting hchannel := by
    rw [channel?_updateChannel] at hchannel
    split at hchannel
    · obtain ⟨c, hc, hupdate⟩ := Option.map_eq_some_iff.1 hchannel
      rcases sends c s (congrArg Channel.sender hupdate) with hsent | hnew
      · obtain ⟨sender, w⟩ := c
        obtain rfl : sender = .sent s := hsent
        exact carries.sent h hon s w hc
      · exact hnew
    · exact carries.sent h hon s waiting hchannel

theorem Carries.settle (carries : st.Carries P on) (spans : List Span) (k : Handle)
    {s : Settlement} (hs : P s) : (st.settle spans k s).Carries P on := by
  unfold Store.settle
  split
  · refine carries.updateChannel k fun c s' hsent => .inr ?_
    cases hsent
    exact hs
  · have hdropped : (st.updateChannel k ({ · with sender := .dropped })).Carries P on :=
      carries.updateChannel k nofun
    exact ⟨hdropped.scheduled, hdropped.sent⟩
  · exact carries

theorem Carries.discard (carries : st.Carries P on) (k : Handle) : (st.discard k).Carries P on := by
  unfold Store.discard
  split
  · exact carries.updateChannel k nofun
  · exact carries

theorem Carries.deafen (carries : st.Carries P on) (k : Handle) : (st.deafen k).Carries P on :=
  carries.updateChannel k fun _ _ hsent => .inl hsent

theorem Carries.drop {onDrop : List Handle} (carries : st.Carries P on) :
    (onDrop.foldl Store.deafen st).Carries P on := by
  induction onDrop generalizing st with
  | nil => exact carries
  | cons k rest ih => exact ih (carries.deafen k)

theorem Carries.send {completions : List (Handle × Settlement)} (carries : st.Carries P on)
    (hcompletions : ∀ c ∈ completions, P c.2) : (Store.send completions st).Carries P on := by
  induction completions generalizing st with
  | nil => exact carries
  | cons head rest ih =>
      obtain ⟨k, s⟩ := head
      obtain ⟨hs, hrest⟩ := List.forall_mem_cons.1 hcompletions
      exact ih (carries.settle [] k hs) hrest

theorem Carries.turn (carries : st.Carries P on) : st.turn.Carries P on := by
  obtain ⟨hdue, hdeferred⟩ := List.forall_mem_append.1 carries.scheduled
  have hlater : ({ st with due := st.deferred, deferred := [] } : Store υ).Carries P on :=
    ⟨List.forall_mem_append.2 ⟨hdeferred, nofun⟩, carries.sent⟩
  exact hlater.send hdue

theorem Carries.defer (carries : st.Carries P on) (k : Handle) {s : Settlement} (hs : P s) :
    (st.defer k s).Carries P on := by
  obtain ⟨hdue, hdeferred⟩ := List.forall_mem_append.1 carries.scheduled
  refine ⟨List.forall_mem_append.2 ⟨hdue, List.forall_mem_append.2 ⟨hdeferred, ?_⟩⟩, carries.sent⟩
  exact List.forall_mem_singleton.2 hs

theorem Carries.answer (carries : st.Carries P on) (spans : List Span) {r : Request}
    (hr : r.Sends P) : (st.answer spans r).2.Carries P on := by
  cases r with
  | openChannel =>
      refine ⟨carries.scheduled, fun h hon s waiting hchannel => ?_⟩
      simp only [Store.answer, channel?_openChannel] at hchannel
      split at hchannel
      · cases hchannel
      · exact carries.sent h hon s waiting hchannel
  | settle k s => exact carries.settle spans k hr
  | discard k => exact carries.discard k
  | deafen k => exact carries.deafen k
  | isWaiting k => exact carries
  | defer k s => exact carries.defer k hr
  | report notice => exact ⟨carries.scheduled, carries.sent⟩

end Store

end Stepwise
