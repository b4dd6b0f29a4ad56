import Mathlib.Data.List.Forall2
import Stepwise.Proofs.Performing
/-!
# Styles are interchangeable

Two sequences are alike if they differ only in the styles that the bodies of their steps are written
in, in labels, and in how often bodies are pending.  Flows of alike sequences come to the same
outcomes, results and states of user code, and report the same but for labels and shapes.
-/

namespace Stepwise

variable {m : Mode} {υ ρ α β : Type}

/-! ## Sequences that are alike -/

/-- Two steps made, each in a style of its own, from bodies that perform the same work. -/
def Step.Alike (step other : Step υ) : Prop := ∃ work, step.Performs work ∧ other.Performs work

structure Slot.Alike (slot other : Slot υ) : Prop where
  predicate : slot.predicate.Alike other.predicate
  actions : List.Forall₂ Step.Alike slot.actions other.actions

structure Item.Alike (item other : Item υ) : Prop where
  kind : item.kind = other.kind
  closed : item.closed = other.closed
  slots : List.Forall₂ Slot.Alike item.slots other.slots

def Sequence.Alike (s other : Sequence υ) : Prop := List.Forall₂ Item.Alike s.items other.items

theorem Step.Alike.symm {step other : Step υ} (alike : step.Alike other) : other.Alike step := by
  obtain ⟨work, first, second⟩ := alike
  exact ⟨work, second, first⟩

theorem Sequence.Alike.symm {s other : Sequence υ} (alike : s.Alike other) : other.Alike s := by
  have hslot (slot other : Slot υ) (alike : slot.Alike other) : other.Alike slot :=
    ⟨alike.predicate.symm, (alike.actions.imp fun _ _ h => h.symm).flip⟩
  have hitem (item other : Item υ) (alike : item.Alike other) : other.Alike item :=
    ⟨alike.kind.symm, alike.closed.symm, (alike.slots.imp hslot).flip⟩
  exact (List.Forall₂.imp hitem alike).flip

/-! ## Stores that agree -/

/-- The notice without the label and the shape of the step it is about. -/
def Notice.anonymous : Notice → Notice
  | runningAction position _ _ => runningAction position none .sync
  | notice => notice

def Event.anonymous (event : Event) : Event := { event with notice := event.notice.anonymous }

namespace Store

/-- What the engine reported, without labels and shapes. -/
def account (st : Store υ) : List Event := st.reports.map Event.anonymous

/-- Stores that no plain function can tell apart. -/
structure Agree (st other : Store υ) : Prop where
  user : st.user = other.user
  ears : st.ears = other.ears
  account : st.account = other.account

theorem Agree.completes {st other later later' : Store υ} {named named' : Set Handle}
    (agree : st.Agree other) (completes : Completes named st later)
    (completes' : Completes named' other later') : later.Agree later' where
  user := by rw [completes.user, completes'.user, agree.user]
  ears := by rw [completes.ears, completes'.ears, agree.ears]
  account := by
    unfold Store.account
    rw [completes.reports, completes'.reports]
    exact agree.account

theorem account_report (st : Store υ) (spans : List Span) (notice : Notice) :
    (st.report spans notice).account =
      if notice.ofEngine then st.account ++ [⟨notice.anonymous, spans⟩] else st.account := by
  unfold account
  rw [reports_report]
  by_cases hown : notice.ofEngine
  · rw [if_pos hown, if_pos hown, List.map_append]
    rfl
  · rw [if_neg hown, if_neg hown]

theorem ofEngine_anonymous (notice : Notice) : notice.anonymous.ofEngine = notice.ofEngine := by
  cases notice <;> rfl

theorem Agree.report {st other : Store υ} (agree : st.Agree other) (spans : List Span)
    {notice notice' : Notice} (hnotice : notice.anonymous = notice'.anonymous) :
    (st.report spans notice).Agree (other.report spans notice') := by
  have hown : notice.ofEngine = notice'.ofEngine := by
    rw [← ofEngine_anonymous notice, hnotice, ofEngine_anonymous]
  refine ⟨agree.user, agree.ears, ?_⟩
  rw [account_report, account_report, hown, hnotice, agree.account]

/-- Agreeing stores answer alike and agree afterwards. -/
theorem Agree.answer {st other : Store υ} (agree : st.Agree other) (spans : List Span)
    (q : Request) :
    (st.answer spans q).1 = (other.answer spans q).1 ∧
      (st.answer spans q).2.Agree (other.answer spans q).2 := by
  cases q with
  | openChannel =>
      have hsize : st.channels.size = other.channels.size := by
        rw [← size_ears, ← size_ears, agree.ears]
      refine ⟨congrArg Handle.mk hsize, agree.user, ?_, agree.account⟩
      simp only [Store.answer, ears_openChannel, agree.ears]
  | settle h s =>
      exact ⟨rfl, agree.completes (st.completes_settle spans h s)
        (other.completes_settle spans h s)⟩
  | discard h =>
      exact ⟨rfl, agree.completes (st.completes_discard h) (other.completes_discard h)⟩
  | deafen h =>
      refine ⟨rfl, agree.user, ?_, agree.account⟩
      simp only [Store.answer, ears_deafen, agree.ears]
  | isWaiting h =>
      refine ⟨?_, agree⟩
      simp only [Store.answer, isWaiting_eq_ears, agree.ears]
  | defer h s => exact ⟨rfl, agree.user, agree.ears, agree.account⟩
  | report notice => exact ⟨rfl, agree.report spans rfl⟩

/-- Of steps that perform the same work, invocations lead to stores that agree again. -/
theorem Agree.invoked {u : υ} {st other last last' : Store υ} (agree : st.Agree other)
    (invoked : Step.Invoked u st last) (invoked' : Step.Invoked u other last') :
    last.Agree last' where
  user := by rw [invoked.user, invoked'.user]
  ears := by rw [invoked.ears, invoked'.ears, agree.ears]
  account := by
    unfold Store.account
    rw [invoked.reports, invoked'.reports]
    exact agree.account

end Store

/-- A plain function, as a part of a run, does the same on stores that agree. -/
theorem Program.Drives.agree {p : Direct υ α} {st other last : Store (υ × ρ)}
    {r : Except Panic α} (drives : (p.relax.beside : Suspending (υ × ρ) α).Drives st r last)
    (agree : st.Agree other) :
    ∃ last', (p.relax.beside : Suspending (υ × ρ) α).Drives other r last' ∧ last.Agree last' := by
  induction p generalizing st other with
  | done value =>
      obtain ⟨rfl, rfl⟩ := drives
      exact ⟨other, ⟨rfl, rfl⟩, agree⟩
  | panic payload =>
      obtain ⟨rfl, rfl⟩ := drives
      exact ⟨other, ⟨rfl, rfl⟩, agree⟩
  | exhausted may => cases may
  | user update next ih =>
      simp only [relax, beside, Drives, ← agree.user] at drives ⊢
      exact ih _ drives ⟨rfl, agree.ears, agree.account⟩
  | request spans q next ih =>
      have hanswer := agree.answer spans q
      simp only [relax, beside, Drives, ← hanswer.1] at drives ⊢
      exact ih _ drives hanswer.2
  | pause may => cases may
  | await may => cases may

/-! ## Plans that are alike -/

/-- Plans with alike steps, which report the same but for labels and shapes. -/
inductive Plan.Alike : Plan υ α → Plan υ α → Prop where
  | done (value : α) : Alike (.done value) (.done value)
  | exhausted : Alike .exhausted .exhausted
  | report (spans : List Span) {notice notice' : Notice} {p q : Plan υ α}
      (same : notice.anonymous = notice'.anonymous) (rest : Alike p q) :
      Alike (.report spans notice p) (.report spans notice' q)
  | results (update : ResultSet → ResultSet) {p q : ResultSet → Plan υ α}
      (rest : ∀ r, Alike (p r) (q r)) : Alike (.results update p) (.results update q)
  | invoke (spans : List Span) {step other : Step υ} (args : Values)
      {p q : Settlement → Plan υ α} (steps : step.Alike other) (rest : ∀ s, Alike (p s) (q s)) :
      Alike (.invoke spans step args p) (.invoke spans other args q)

namespace Plan.Alike

theorem bind {p q : Plan υ α} {f g : α → Plan υ β} (alike : p.Alike q)
    (rest : ∀ a, (f a).Alike (g a)) : (p.bind f).Alike (q.bind g) := by
  induction alike with
  | done value => exact rest value
  | exhausted => exact .exhausted
  | report spans same _ ih => exact .report spans same ih
  | results update _ ih => exact .results update ih
  | invoke spans args steps _ ih => exact .invoke spans args steps ih

theorem within {p q : Plan υ α} (alike : p.Alike q) (span : Span) :
    (p.within span).Alike (q.within span) := by
  induction alike with
  | done value => exact .done value
  | exhausted => exact .exhausted
  | report spans same _ ih => exact .report _ same ih
  | results update _ ih => exact .results update ih
  | invoke spans args steps _ ih => exact .invoke _ args steps ih

/-- Plans that are alike come to the same from stores that agree. -/
theorem drives {p q : Plan υ α} (alike : p.Alike q) (config : Config)
    {st other last : Store (υ × ResultSet)} {r : Except Panic α} (agree : st.Agree other)
    (scheduled : st.Scheduled) (scheduled' : other.Scheduled)
    (drives : (p.toProgram config).Drives st r last) :
    ∃ last', (q.toProgram config).Drives other r last' ∧ last.Agree last' := by
  induction alike generalizing st other with
  | done value =>
      obtain ⟨rfl, rfl⟩ := drives
      exact ⟨other, ⟨rfl, rfl⟩, agree⟩
  | exhausted => exact drives.elim
  | report spans same _ ih => exact ih (agree.report spans same) scheduled scheduled' drives
  | results update _ ih =>
      have hagree : ({ st with user := (st.user.1, update st.user.2) } : Store _).Agree
          { other with user := (st.user.1, update st.user.2) } :=
        ⟨rfl, agree.ears, agree.account⟩
      simp only [toProgram, Program.Drives, ← agree.user] at drives ⊢
      exact ih _ hagree scheduled scheduled' drives
  | invoke spans args steps _ ih =>
      obtain ⟨work, performs, performs'⟩ := steps
      obtain ⟨mid, hdrives, hmid⟩ := performs.drives_invoke_inside config args spans scheduled
      obtain ⟨mid', hdrives', hmid'⟩ := performs'.drives_invoke_inside config args spans scheduled'
      rw [← agree.user] at hdrives' hmid'
      have hagree : mid.Agree mid' := agree.invoked hmid hmid'
      rcases (Program.drives_bind _ _ _ _ _).1 drives with ⟨s, late, hfirst, hrest⟩ | ⟨payload, rfl, hfirst⟩
      · obtain ⟨hverdict, rfl⟩ := hfirst.unique hdrives
        obtain ⟨last', hlast, hagree'⟩ := ih s hagree hmid.scheduled hmid'.scheduled hrest
        rw [← hverdict] at hdrives'
        exact ⟨last', hdrives'.bind hlast, hagree'⟩
      · obtain ⟨hverdict, rfl⟩ := hfirst.unique hdrives
        rw [← hverdict] at hdrives'
        exact ⟨mid', hdrives'.bind_error _, hagree⟩

end Plan.Alike

/-! ## Flows that are alike -/

theorem actionsPlan_alike (position : Nat) {actions others : List (Step υ)}
    (alike : List.Forall₂ Step.Alike actions others) (carried : Values) :
    (actionsPlan position actions carried).Alike (actionsPlan position others carried) := by
  induction alike generalizing position carried with
  | nil => exact .done _
  | cons head _ ih =>
      refine .report [] rfl (.invoke [] carried head fun s => ?_)
      cases s with
      | ok output => exact ih (position + 1) output
      | error e => exact .done _

theorem slotPlan_alike {actions others : List (Step υ)}
    (alike : List.Forall₂ Step.Alike actions others) (input : Values) :
    (slotPlan actions input).Alike (slotPlan others input) := by
  unfold slotPlan
  cases alike with
  | nil => exact .done _
  | cons head rest => exact actionsPlan_alike 0 (.cons head rest) input

namespace Item

theorem evaluatePlan_alike (branch : Nat) {slots others : List (Slot υ)}
    (alike : List.Forall₂ Slot.Alike slots others) :
    (evaluatePlan branch slots).Alike (evaluatePlan branch others) := by
  induction alike generalizing branch with
  | nil => exact .report [] rfl (.done _)
  | cons head _ ih =>
      refine .invoke [] .empty head.predicate fun s => ?_
      cases s with
      | error e => exact .done _
      | ok verdict =>
          by_cases htruthy : verdict.isTruthy
          · simp only [if_pos htruthy]
            exact .report [] rfl ((slotPlan_alike head.actions _).bind fun _ => .done _)
          · simp only [if_neg htruthy]
            exact .report [] rfl (ih (branch + 1))

theorem repeatPlan_alike (config : Config) {slot other : Slot υ} (alike : slot.Alike other)
    (passes : Nat) (last : Option Values) (limit : Nat) :
    (repeatPlan config slot passes last limit).Alike
      (repeatPlan config other passes last limit) := by
  induction limit generalizing passes last with
  | zero => exact .exhausted
  | succ limit ih =>
      refine .invoke [] .empty alike.predicate fun s => ?_
      cases s with
      | error e => exact .done _
      | ok verdict =>
          by_cases htruthy : verdict.isTruthy
          · simp only [if_pos htruthy]
            refine (slotPlan_alike alike.actions _).bind fun s => ?_
            cases s with
            | ok output => exact ih (passes + 1) (some output)
            | error e => exact .done _
          · simp only [if_neg htruthy]
            exact .report [] rfl (.done _)

theorem plan_alike (limit : Nat) (config : Config) {item other : Item υ} (alike : item.Alike other) :
    (item.plan limit config).Alike (other.plan limit config) := by
  rcases item with ⟨kind, slots, closed⟩
  rcases other with ⟨kind', slots', closed'⟩
  obtain ⟨rfl, _, hslots⟩ := alike
  cases kind with
  | chain => exact evaluatePlan_alike 0 hslots
  | condition => exact evaluatePlan_alike 0 hslots
  | loop =>
      cases hslots with
      | nil => exact .done _
      | cons head _ => exact repeatPlan_alike config head 0 none limit

end Item

theorem itemsPlan_alike (limit : Nat) (config : Config) (index : Nat) {items others : List (Item υ)}
    (alike : List.Forall₂ Item.Alike items others) :
    (itemsPlan limit config index items).Alike (itemsPlan limit config index others) := by
  induction alike generalizing index with
  | nil => exact .done _
  | cons head _ ih =>
      unfold itemsPlan
      rw [← head.kind]
      refine ((Item.plan_alike limit config head).within _).bind fun s => ?_
      rcases s with e | _ | values
      · exact .report [] rfl (.done _)
      · exact ih (index + 1)
      · exact .results _ fun _ => ih (index + 1)

theorem Flow.plan_alike (limit : Nat) (flow : Flow υ) {s : Sequence υ}
    (alike : flow.sequence.Alike s) :
    (flow.plan limit).Alike (({ flow with sequence := s } : Flow υ).plan limit) := by
  have hlength : flow.sequence.length = s.length := List.Forall₂.length_eq alike
  refine .results _ fun _ => .within ?_ _
  simp only [← hlength]
  cases flow.buildError with
  | some error => exact .report [] rfl (.done _)
  | none =>
      refine .report [] rfl ((itemsPlan_alike limit flow.config 0 alike).bind fun r => ?_)
      cases r with
      | ok _ => exact .results _ fun results => .report [] rfl (.done _)
      | error e => exact .report [] rfl (.done _)

namespace Host

/-- What a run leaves behind that user code and traces can tell of it. -/
def view (h : Host υ) : υ × ResultSet × List Event :=
  (h.store.user, h.flow.results, h.store.account)

def withSequence (s : Sequence υ) (h : Host υ) : Host υ :=
  { h with flow := { h.flow with sequence := s } }

theorem exec_of_alike {limit : Nat} {h : Host υ} (scheduled : h.store.Scheduled) {s : Sequence υ}
    (alike : h.flow.sequence.Alike s) {r : Except Panic Completion} {last : Host υ}
    (hexec : ∃ polls, h.exec limit polls = (.ofResult r, last)) :
    ∃ polls last', (h.withSequence s).exec limit polls = (.ofResult r, last') ∧
      last'.view = last.view := by
  obtain ⟨st, drives, rfl⟩ := (exec_iff_drives limit h last r).1 hexec
  have hagree : h.inner.Agree h.inner := ⟨rfl, rfl, rfl⟩
  have hplan := Flow.plan_alike limit h.flow alike
  suffices hdrives : ∃ st', ((h.withSequence s).flow.exec limit).Drives h.inner r st' ∧
      st.Agree st' by
    obtain ⟨st', drives', agree⟩ := hdrives
    obtain ⟨polls, hpolls⟩ := (exec_iff_drives limit (h.withSequence s)
      ((h.withSequence s).leave st') r).2 ⟨st', drives', rfl⟩
    refine ⟨polls, _, hpolls, ?_⟩
    have huser : (st.user.1, st.user.2, st.account) = (st'.user.1, st'.user.2, st'.account) := by
      rw [agree.user, agree.account]
    exact huser.symm
  rw [Flow.exec_eq_plan] at drives ⊢
  rcases (Program.drives_bind _ _ _ _ _).1 drives with ⟨c, mid, first, rest⟩ | ⟨payload, rfl, first⟩
  · obtain ⟨mid', first', hmid⟩ := hplan.drives h.flow.config hagree scheduled scheduled first
    rcases (Program.drives_bind _ _ _ _ _).1 rest with ⟨_, late, told, ended⟩ | ⟨payload, rfl, told⟩
    · obtain ⟨rfl, rfl⟩ := ended
      obtain ⟨late', told', hlate⟩ := told.agree hmid
      exact ⟨late', first'.bind (told'.bind ⟨rfl, rfl⟩), hlate⟩
    · obtain ⟨late', told', hlate⟩ := told.agree hmid
      exact ⟨late', first'.bind (told'.bind_error _), hlate⟩
  · obtain ⟨mid', first', hmid⟩ := hplan.drives h.flow.config hagree scheduled scheduled first
    exact ⟨mid', first'.bind_error _, hmid⟩

/-- Calling conventions are interchangeable.  Where one of two alike flows, polled to its end,
comes to an outcome, so does the other, and with it to the same state of user code, in which bodies
and resolvers note what they are told, to the same results, and to the same reports but for labels
and shapes. -/
theorem exec_restyled (limit : Nat) (h : Host υ) (scheduled : h.store.Scheduled) (s : Sequence υ)
    (alike : h.flow.sequence.Alike s) (outcome : Outcome Completion) (ended : outcome ≠ .pending)
    (view : υ × ResultSet × List Event) :
    (∃ polls last, h.exec limit polls = (outcome, last) ∧ last.view = view) ↔
      ∃ polls last, (h.withSequence s).exec limit polls = (outcome, last) ∧ last.view = view := by
  obtain ⟨r, rfl⟩ := Outcome.exists_result ended
  constructor
  · rintro ⟨polls, last, hexec, rfl⟩
    exact exec_of_alike scheduled alike ⟨polls, hexec⟩
  · rintro ⟨polls, last, hexec, rfl⟩
    have hback : (h.withSequence s).withSequence h.flow.sequence = h := rfl
    have := exec_of_alike (h := h.withSequence s) scheduled alike.symm ⟨polls, hexec⟩
    rwa [hback] at this

end Host

/-- A body that notes its arguments and passes them on. -/
def noting : Body (List Values) := fun _ args held =>
  .user (fun log => log ++ [args]) fun _ => .done (held, .output args)

/-- The same, but where it is awaited it takes its time. -/
def notingLate : Body (List Values) := fun m args held =>
  match m with
  | .direct => noting .direct args held
  | .suspending => (Program.pauses 2).bind fun _ => noting .suspending args held

/-- A chain of one value and one action. -/
def passingOn (action : Step (List Values)) : Sequence (List Values) :=
  ⟨[⟨.chain, [⟨.always, [.constant (.single (.int 7)), action]⟩], true⟩]⟩

def passingHost : Host (List Values) :=
  { store := { user := [] }, flow := { sequence := passingOn (Style.toStep noting .sync) } }

theorem performs_noting : Body.Performs noting fun args log => (.output args, log ++ [args]) := by
  intro m args held log
  exact ⟨rfl, rfl⟩

theorem performs_notingLate :
    Body.Performs notingLate fun args log => (.output args, log ++ [args]) := by
  intro m args held log
  cases m <;> exact ⟨rfl, rfl⟩

/-- A plain function that notes its arguments, and a task of a named kind that does so after a
while. -/
theorem exec_restyled_later :
    ∃ polls last,
      (passingHost.withSequence (passingOn (Style.toStep notingLate (.named "later")))).exec 1 polls =
        (.ended (.ok ⟨[.int 7]⟩), last) ∧ last.view = (passingHost.exec 1 1).2.view := by
  have hscheduled : passingHost.store.Scheduled := fun c hc => by cases hc
  have halways : (Step.always : Step (List Values)).Alike .always :=
    ⟨_, Step.performs_always, Step.performs_always⟩
  have hconstant : (Step.constant (.single (.int 7)) : Step (List Values)).Alike
      (.constant (.single (.int 7))) :=
    ⟨_, Step.performs_constant _, Step.performs_constant _⟩
  have hnoting : (Style.toStep noting .sync).Alike (Style.toStep notingLate (.named "later")) :=
    ⟨_, ⟨.sync, noting, performs_noting, rfl⟩, ⟨.named "later", notingLate, performs_notingLate, rfl⟩⟩
  have halike : passingHost.flow.sequence.Alike
      (passingOn (Style.toStep notingLate (.named "later"))) :=
    .cons ⟨rfl, rfl, .cons ⟨halways, .cons hconstant (.cons hnoting .nil)⟩ .nil⟩ .nil
  have houtcome : (passingHost.exec 1 1).1 = .ended (.ok ⟨[.int 7]⟩) := rfl
  have hended : Outcome.ended (.ok ⟨[.int 7]⟩ : Completion) ≠ .pending := by simp
  exact (Host.exec_restyled 1 passingHost hscheduled _ halike _ hended _).1
    ⟨1, _, Prod.ext houtcome rfl, rfl⟩

end Stepwise
