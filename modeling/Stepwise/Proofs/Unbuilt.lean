import Stepwise.Proofs.FirstFailure
import Stepwise.Proofs.Genuine
import Stepwise.Proofs.History
import Stepwise.Proofs.Scripts
import Stepwise.Proofs.Untraced
/-!
# Nobody makes up mistakes in a declaration

User code completes a continuation with an output or with a cause of its own, and the engine with
nothing but what user code made of it, with a panic, or because the continuation was lost.  So what
is found is never a mistake in a declaration, whatever was done with a flow before, and a run of a
flow that was declared rightly does not fail with one.
-/

namespace Stepwise

variable {m : Mode} {υ α β : Type} {P : Settlement → Prop} {post : α → Prop} {after : β → Prop}

/-! ## Programs that pass on what they find -/

namespace Program

/-- As long as it finds settlements of the kind only, the program sends no others, and what it
returns satisfies `post`. -/
def Relays (P : Settlement → Prop) (post : α → Prop) : Program m υ α → Prop
  | done value => post value
  | panic _ => True
  | exhausted _ => True
  | user _ next => ∀ u, (next u).Relays P post
  | request _ r next => r.Sends P ∧ ∀ x, (next x).Relays P post
  | pause _ _ next => (next ()).Relays P post
  | await _ _ _ next => ∀ s, P s → (next s).Relays P post

/-- A program that sends settlements of the kind whatever it finds, before one that passes them on.
-/
theorem Asks.relays_bind {p : Program m υ α} {f : α → Program m υ β}
    (asks : p.Asks (Request.Sends P) post) (rest : ∀ a, post a → (f a).Relays P after) :
    (p.bind f).Relays P after := by
  induction p with
  | done value => exact rest value asks
  | panic payload => trivial
  | exhausted may => trivial
  | user update next ih => exact fun u => ih u (asks u)
  | request spans r next ih => exact ⟨asks.1, fun x => ih x (asks.2 x)⟩
  | pause may onDrop next ih => exact ih () asks
  | await may onDrop h next ih => exact fun s _ => ih s (asks s)

theorem Relays.closing {p : Program m υ α} (relays : p.Relays P post) (h : Handle) :
    (p.closing h).Relays P post := by
  induction p with
  | done value => exact ⟨trivial, fun _ => relays⟩
  | panic payload => exact ⟨trivial, fun _ => trivial⟩
  | exhausted may => trivial
  | user update next ih => exact fun u => ih u (relays u)
  | request spans r next ih => exact ⟨relays.1, fun x => ih x (relays.2 x)⟩
  | pause may onDrop next ih => exact ih () relays
  | await may onDrop k next ih => exact fun s hs => ih s (relays s hs)

theorem Relays.under {p : Program m υ α} (relays : p.Relays P post) (spans : List Span) :
    (p.under spans).Relays P post := by
  induction p with
  | done value => exact relays
  | panic payload => trivial
  | exhausted may => trivial
  | user update next ih => exact fun u => ih u (relays u)
  | request inner r next ih => exact ⟨relays.1, fun x => ih x (relays.2 x)⟩
  | pause may onDrop next ih => exact ih () relays
  | await may onDrop h next ih => exact fun s hs => ih s (relays s hs)

end Program

/-- The outside world sends settlements of the kind only. -/
def Act.Carries (P : Settlement → Prop) (act : Act υ) : Prop :=
  ∀ st, Store.Carries P Set.univ st → (act st).Carries P Set.univ

/-- The store that is left carries settlements of the kind only, and what was returned satisfies
`post`. -/
def Halt.Carries (P : Settlement → Prop) (post : α → Prop) : Halt υ α → Prop
  | ended st value _ => st.Carries P Set.univ ∧ post value
  | unwound st _ | pending st _ | exhausted st => st.Carries P Set.univ

theorem Store.Carries.waitAmid {acts : List (Act υ)} (hacts : ∀ act ∈ acts, act.Carries P)
    (lost : P (.error .abandoned)) {st : Store υ} (carries : st.Carries P Set.univ) (h : Handle) :
    (st.waitAmid h acts).2.Carries P Set.univ ∧
      ∀ found ∈ (st.waitAmid h acts).1, P found.1 := by
  fun_induction Store.waitAmid h acts st with
  | case1 st s acts settled =>
      refine ⟨carries, fun found hmem => ?_⟩
      obtain rfl := Option.mem_some_iff.1 hmem
      exact carries.found lost (Set.mem_univ h) settled
  | case2 st unsettled =>
      exact ⟨carries.turn, fun found hmem => absurd hmem (Option.not_mem_none found)⟩
  | case3 st act acts unsettled ih =>
      obtain ⟨hact, hrest⟩ := List.forall_mem_cons.1 hacts
      exact ih hrest (hact _ carries.turn)

namespace Program

/-- What a program relays is what a run of it leaves. -/
theorem Relays.course {p : Suspending υ α} (relays : p.Relays P post)
    (lost : P (.error .abandoned)) {acts : List (Act υ)} (hacts : ∀ act ∈ acts, act.Carries P)
    {st : Store υ} (carries : st.Carries P Set.univ) : (p.course acts st).halt.Carries P post := by
  induction p generalizing acts st with
  | done value => exact ⟨carries, relays⟩
  | panic payload => exact carries
  | exhausted may => exact carries
  | user update next ih =>
      have hnext : Store.Carries P Set.univ { st with user := update st.user } :=
        ⟨carries.scheduled, carries.sent⟩
      exact ih _ (relays _) hacts hnext
  | request spans r next ih => exact ih _ (relays.2 _) hacts (carries.answer spans relays.1)
  | pause may onDrop next ih =>
      cases acts with
      | nil => exact carries.turn
      | cons act acts =>
          obtain ⟨hact, hrest⟩ := List.forall_mem_cons.1 hacts
          exact ih () relays hrest (hact _ carries.turn)
  | await may onDrop h next ih =>
      obtain ⟨hlast, hfound⟩ := carries.waitAmid hacts lost h
      simp only [Program.course]
      rcases hwait : st.waitAmid h acts with ⟨_ | ⟨s, left⟩, last⟩ <;> rw [hwait] at hlast hfound
      · exact hlast
      · have hleft := Store.left_suffix_of_waitAmid hwait
        exact ih s (relays s (hfound _ rfl)) (fun act hact => hacts act (hleft.subset hact)) hlast

/-- What a plain function sends is what it leaves. -/
theorem Asks.run {p : Direct υ α} (asks : p.Asks (Request.Sends P) post) {on : Set Handle}
    {st : Store υ} (carries : st.Carries P on) : (p.run st).2.Carries P on := by
  induction p generalizing st with
  | done value => exact carries
  | panic payload => exact carries
  | exhausted may => cases may
  | user update next ih =>
      have hnext : Store.Carries P on { st with user := update st.user } :=
        ⟨carries.scheduled, carries.sent⟩
      exact ih _ (asks _) hnext
  | request spans r next ih => exact ih _ (asks.2 _) (carries.answer spans asks.1)
  | pause may => cases may
  | await may => cases may

end Program

/-! ## Steps that complete with what user code makes -/

namespace Settlement

/-- The settlement is no mistake in a declaration. -/
def Unbuilt (s : Settlement) : Prop := ∀ e, s = .error e → e.isBuild = false

theorem unbuilt_error {e : FlowError} (he : e.isBuild = false) : Unbuilt (.error e) := by
  intro e' hsame
  cases hsame
  exact he

theorem unbuilt_ofResult (r : Except Cause Values) : (ofResult r).Unbuilt := by
  cases r with
  | ok output => exact nofun
  | error cause => exact unbuilt_error rfl

end Settlement

abbrev Request.Unbuilt : Request → Prop := Sends Settlement.Unbuilt

abbrev Store.Unbuilt (st : Store υ) : Prop := st.Carries Settlement.Unbuilt Set.univ

abbrev Act.Unbuilt (act : Act υ) : Prop := act.Carries Settlement.Unbuilt

/-- A step whose code, and its tasks with what they run, completes no continuation with a mistake in
a declaration.  If user code has outputs and causes only to complete with, every step is of this
kind. -/
def Step.Unbuilt (step : Step υ) : Prop :=
  match step.invoker with
  | .sync body => ∀ args, (body args).Asks Request.Unbuilt fun _ => True
  | .callback body => ∀ args done, (body args done).Asks Request.Unbuilt fun _ => True
  | .future start => ∀ args, (start args).Asks Request.Unbuilt fun task =>
      task.Asks Request.Unbuilt fun _ => True

/-- Guarded code fails with a panic at most. -/
theorem Config.asks_guarded_unbuilt (config : Config) {allowed : Request → Prop}
    {p : Program m υ α} (asks : p.Asks allowed post) :
    (config.guarded p).Asks allowed fun r =>
      (∀ a, r = .ok a → post a) ∧ ∀ e, r = .error e → e.isBuild = false := by
  have hok (a : α) (hpost : post a) :
      (Program.done (.ok a) : Program m υ (Except FlowError α)).Asks allowed fun r =>
        (∀ a, r = .ok a → post a) ∧ ∀ e, r = .error e → e.isBuild = false := by
    refine ⟨fun b hb => ?_, nofun⟩
    cases hb
    exact hpost
  unfold Config.guarded
  split
  · refine asks.caught.bind fun r hr => ?_
    cases r with
    | ok a => exact hok a (hr a rfl)
    | error payload =>
        refine ⟨nofun, fun e he => ?_⟩
        cases he
        rfl
  · exact asks.bind hok

namespace Step

theorem Unbuilt.call {step : Step υ} (unbuilt : step.Unbuilt) (args : Values) (done : Handle)
    (config : Config) : (step.call args done config).Asks Request.Unbuilt fun task =>
      ∀ p, task = some p → p.Asks Request.Unbuilt Settlement.Unbuilt := by
  have hfailed (e : FlowError) (he : e.isBuild = false) :
      ∀ p : Suspending υ Settlement, some (Program.done (.error e)) = some p →
        p.Asks Request.Unbuilt Settlement.Unbuilt := by
    intro p hp
    cases hp
    exact Settlement.unbuilt_error he
  obtain ⟨invoker, label⟩ := step
  cases invoker with
  | sync body =>
      have hguarded := (config.asks_guarded_unbuilt (unbuilt args)).onPanic
        (r := .discard done) trivial
      refine hguarded.bind fun result hresult => ⟨?_, fun _ _ hp => nomatch hp⟩
      cases result with
      | ok r => exact Settlement.unbuilt_ofResult r
      | error e => exact Settlement.unbuilt_error (hresult.2 e rfl)
  | callback body =>
      refine (config.asks_guarded_unbuilt (unbuilt args done)).bind fun result hresult => ?_
      cases result with
      | ok value => exact fun p hp => nomatch hp
      | error e => exact hfailed e (hresult.2 e rfl)
  | future start =>
      have hguarded := config.asks_guarded_unbuilt (unbuilt args)
      refine ⟨trivial, fun _ => hguarded.bind fun result hresult => ?_⟩
      cases result with
      | ok task =>
          intro p hp
          cases hp
          exact (hresult.1 task rfl).bind fun r _ => Settlement.unbuilt_ofResult r
      | error e => exact hfailed e (hresult.2 e rfl)

/-- An invocation comes to no mistake in a declaration. -/
theorem Unbuilt.invoke {step : Step υ} (unbuilt : step.Unbuilt) (args : Values) (config : Config) :
    (step.invoke args config).Relays Settlement.Unbuilt Settlement.Unbuilt := by
  refine ⟨trivial, fun done => Program.Relays.closing ?_ done⟩
  refine (unbuilt.call args done config).relax.relays_bind fun task htask => ?_
  cases task with
  | none => exact fun s hs => hs
  | some p =>
      refine (config.asks_guarded_unbuilt (htask p rfl)).relays_bind fun result hresult => ?_
      cases result with
      | ok s => exact hresult.1 s rfl
      | error e => exact Settlement.unbuilt_error (hresult.2 e rfl)

end Step

/-! ## Runs -/

namespace Entry

/-- The invocation, and all that was sent before or may be sent meanwhile, is of such a kind. -/
structure Unbuilt (e : Entry υ) : Prop where
  step : e.step.Unbuilt
  store : e.store.Unbuilt
  acts : ∀ act ∈ e.acts, act.Unbuilt

theorem Unbuilt.course {e : Entry υ} (unbuilt : e.Unbuilt) (config : Config) :
    (e.course config).halt.Carries Settlement.Unbuilt Settlement.Unbuilt :=
  ((unbuilt.step.invoke e.args config).under e.spans).course
    (Settlement.unbuilt_error rfl) unbuilt.acts unbuilt.store

theorem Unbuilt.settled {e : Entry υ} (unbuilt : e.Unbuilt) {config : Config} {s : Settlement}
    (hsettled : e.settlement? config = some s) : s.Unbuilt := by
  obtain ⟨st, left, hcourse⟩ := Course.ended_of_value? hsettled
  have hcarries := unbuilt.course config
  rw [hcourse] at hcarries
  exact hcarries.2

end Entry

/-- A plan comes to invocations of the kind only, and leaves nothing else. -/
theorem Plan.Invokes.unbuilt {p : Plan υ α} (invokes : p.Invokes Step.Unbuilt) (config : Config)
    {acts : List (Act υ)} (hacts : ∀ act ∈ acts, act.Unbuilt) {st : Store υ}
    (hst : st.Unbuilt) (r : ResultSet) :
    (∀ e ∈ (p.account config acts st r).entries, e.Unbuilt) ∧
      (p.account config acts st r).halt.Carries Settlement.Unbuilt fun _ => True := by
  induction p generalizing acts st r with
  | done value => exact ⟨nofun, hst, trivial⟩
  | exhausted => exact ⟨nofun, hst⟩
  | report spans notice next ih =>
      have hreported : (st.report spans notice).Unbuilt :=
        ⟨hst.scheduled, hst.sent⟩
      exact ih invokes hacts hreported r
  | results update next ih => exact ih r (invokes r) hacts hst (update r)
  | invoke spans step args next ih =>
      have hentry : Entry.Unbuilt ⟨⟨step, args⟩, spans, acts, st⟩ := ⟨invokes.1, hst, hacts⟩
      have hcarries := hentry.course config
      rw [account_invoke]
      cases hcourse : Entry.course config ⟨⟨step, args⟩, spans, acts, st⟩ with
      | ended mid s left =>
          rw [hcourse] at hcarries
          have hleft := Program.left_suffix hcourse
          obtain ⟨hentries, hhalt⟩ := ih s (invokes.2 s)
            (fun act hact => hacts act (hleft.subset hact)) hcarries.1 r
          exact ⟨List.forall_mem_cons.2 ⟨hentry, hentries⟩, hhalt⟩
      | unwound mid payload =>
          rw [hcourse] at hcarries
          exact ⟨List.forall_mem_singleton.2 hentry, hcarries⟩
      | pending mid rest =>
          rw [hcourse] at hcarries
          exact ⟨List.forall_mem_singleton.2 hentry, hcarries⟩
      | exhausted mid =>
          rw [hcourse] at hcarries
          exact ⟨List.forall_mem_singleton.2 hentry, hcarries⟩

/-- A resolver that completes no continuation with a mistake in a declaration. -/
def Resolver.Unbuilt (resolver : Resolver υ) : Prop :=
  ∀ completion, (resolver completion).Asks Request.Unbuilt fun _ => True

theorem Flow.asks_notify_unbuilt {resolvers : List (Resolver υ)}
    (unbuilt : ∀ resolver ∈ resolvers, Resolver.Unbuilt resolver) (completion : Completion) :
    (notify completion resolvers).Asks Request.Unbuilt fun _ => True := by
  induction resolvers with
  | nil => trivial
  | cons resolver rest ih =>
      refine (unbuilt resolver List.mem_cons_self completion).bind fun _ _ => ?_
      exact ih fun other hother => unbuilt other (List.mem_cons_of_mem _ hother)

theorem Halt.Carries.told {halt : Halt υ Completion}
    (carries : halt.Carries Settlement.Unbuilt fun _ => True) (spans : List Span)
    {resolvers : List (Resolver υ)}
    (unbuilt : ∀ resolver ∈ resolvers, Resolver.Unbuilt resolver) :
    (halt.told spans resolvers).Carries Settlement.Unbuilt fun _ => True := by
  cases halt with
  | ended st completion left =>
      have hrun := ((Flow.asks_notify_unbuilt unbuilt completion).under spans).run carries.1
      simp only [Halt.told]
      rcases hnotify : ((Flow.notify completion resolvers).under spans).run st with
        ⟨payload | ⟨⟩, last⟩ <;> rw [hnotify] at hrun
      · exact hrun
      · exact ⟨hrun, trivial⟩
  | unwound st payload => exact carries
  | pending st onDrop => exact carries
  | exhausted st => exact carries

/-! ## Histories -/

/-- Nothing in the host, and nothing that was sent in it, is a mistake in a declaration that user
code made up. -/
structure Host.Unbuilt (h : Host υ) : Prop where
  steps : ∀ step ∈ h.flow.sequence.steps, step.Unbuilt
  resolvers : ∀ resolver ∈ h.flow.resolvers, Resolver.Unbuilt resolver
  store : h.store.Unbuilt

/-- The same of what a command brings in. -/
def Command.Unbuilt : Command υ → Prop
  | declare clause => ∀ step ∈ clause.steps, step.Unbuilt
  | configure _ => True
  | onComplete resolver => Resolver.Unbuilt resolver
  | exec _ acts => ∀ act ∈ acts, act.Unbuilt
  | execWith _ resolver acts => Resolver.Unbuilt resolver ∧ ∀ act ∈ acts, act.Unbuilt
  | act f => f.Unbuilt

namespace Host

variable {h : Host υ}

theorem Unbuilt.scene (unbuilt : h.Unbuilt) (limit : Nat) {acts : List (Act υ)}
    (hacts : ∀ act ∈ acts, act.Unbuilt) :
    (∀ e ∈ (h.scene limit acts).entries, e.Unbuilt) ∧
      (h.scene limit acts).halt.Carries Settlement.Unbuilt fun _ => True := by
  have hinvokes := ((h.flow.plan_invokes limit).mono unbuilt.steps).under []
  obtain ⟨hentries, hhalt⟩ := hinvokes.unbuilt h.flow.config hacts unbuilt.store h.flow.results
  exact ⟨hentries, hhalt.told [] unbuilt.resolvers⟩

theorem Unbuilt.watch (unbuilt : h.Unbuilt) (limit : Nat) {acts : List (Act υ)}
    (hacts : ∀ act ∈ acts, act.Unbuilt) : ((h.start limit).watch acts).2.Unbuilt := by
  obtain ⟨-, hhalt⟩ := unbuilt.scene limit hacts
  rw [watch_eq_halt]
  cases hstand : (h.scene limit acts).halt <;> rw [hstand] at hhalt
  · exact ⟨unbuilt.steps, unbuilt.resolvers, hhalt.1⟩
  · exact ⟨unbuilt.steps, unbuilt.resolvers, hhalt⟩
  · exact ⟨unbuilt.steps, unbuilt.resolvers, hhalt.drop⟩
  · exact ⟨unbuilt.steps, unbuilt.resolvers, hhalt⟩

theorem Unbuilt.onComplete (unbuilt : h.Unbuilt) {resolver : Resolver υ}
    (hresolver : Resolver.Unbuilt resolver) : (h.onComplete resolver).Unbuilt where
  steps := unbuilt.steps
  resolvers := List.forall_mem_append.2
    ⟨unbuilt.resolvers, List.forall_mem_singleton.2 hresolver⟩
  store := unbuilt.store

theorem Unbuilt.declare (unbuilt : h.Unbuilt) {clause : Clause υ}
    (hclause : ∀ step ∈ clause.steps, step.Unbuilt) : (h.declare clause).Unbuilt := by
  rw [declare_eq]
  unfold Flow.extend
  cases hdeclare : h.flow.sequence.declare clause with
  | ok s =>
      refine ⟨fun step hstep => ?_, unbuilt.resolvers, unbuilt.store⟩
      rw [Sequence.steps_declare hdeclare] at hstep
      exact List.forall_mem_append.2 ⟨unbuilt.steps, hclause⟩ step hstep
  | error error =>
      exact ⟨unbuilt.steps, unbuilt.resolvers, unbuilt.store.scheduled, unbuilt.store.sent⟩

theorem Unbuilt.obey (unbuilt : h.Unbuilt) {c : Command υ} (hc : c.Unbuilt) :
    (c.obey h).2.Unbuilt := by
  cases c with
  | declare clause => exact unbuilt.declare hc
  | configure config => exact ⟨unbuilt.steps, unbuilt.resolvers, unbuilt.store⟩
  | onComplete resolver => exact unbuilt.onComplete hc
  | exec limit acts => exact unbuilt.watch limit hc
  | execWith limit resolver acts => exact (unbuilt.onComplete hc.1).watch limit hc.2
  | act f => exact ⟨unbuilt.steps, unbuilt.resolvers, hc _ unbuilt.store⟩

/-- Whatever is done with a flow, nobody makes up a mistake. -/
theorem Unbuilt.live (unbuilt : h.Unbuilt) {history : List (Command υ)}
    (hhistory : ∀ c ∈ history, c.Unbuilt) : (h.live history).2.Unbuilt := by
  induction history generalizing h with
  | nil => exact unbuilt
  | cons c history ih =>
      obtain ⟨hc, hrest⟩ := List.forall_mem_cons.1 hhistory
      exact ih (unbuilt.obey hc) hrest

/-- A run of a flow that was declared rightly does not fail with a mistake in its declaration. -/
theorem Unbuilt.not_build (unbuilt : h.Unbuilt) (declared : h.flow.buildError = none) (limit : Nat)
    {acts : List (Act υ)} (hacts : ∀ act ∈ acts, act.Unbuilt) (error : BuildError) :
    ((h.start limit).watch acts).1 ≠ .ended (.error (.build error)) := by
  intro hended
  obtain ⟨st, left, hhalt⟩ := (returns_iff_watch.2 hended).account
  rcases (h.scene limit acts).succeeds_or_failsWith declared hhalt with
    ⟨hok, -⟩ | ⟨e, entry, firsts, failing, hfailed, hfails⟩
  · cases hok
  · cases hfailed
    have hentry := (unbuilt.scene limit hacts).1 entry hfails.mem
    cases hentry.settled hfails.settled (.build error) rfl

end Host

end Stepwise
