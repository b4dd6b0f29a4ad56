import Stepwise.Proofs.Account
/-!
# Runs without their traces

No program can look at the trace.  So what comes of a plan depends neither on what was reported
before, nor on the spans that it is carried out under, nor on what it reports itself.
-/

namespace Stepwise

variable {υ α β : Type}

namespace Store

/-- All that a program can find out about the store. -/
def untraced (st : Store υ) : Store υ := { st with trace := #[] }

theorem untraced_settle (st : Store υ) (spans spans' : List Span) (h : Handle) (s : Settlement) :
    (st.settle spans h s).untraced = (st.untraced.settle spans' h s).untraced := by
  have hsame : st.untraced.channel? h = st.channel? h := rfl
  unfold settle
  rw [hsame]
  split <;> rfl

theorem untraced_discard (st : Store υ) (h : Handle) :
    (st.discard h).untraced = (st.untraced.discard h).untraced := by
  have hsame : st.untraced.channel? h = st.channel? h := rfl
  unfold discard
  rw [hsame]
  split <;> rfl

theorem untraced_send (completions : List (Handle × Settlement)) (st : Store υ) :
    (st.send completions).untraced = (st.untraced.send completions).untraced := by
  induction completions generalizing st with
  | nil => rfl
  | cons c completions ih =>
      obtain ⟨h, s⟩ := c
      rw [send_cons, send_cons, ih, ih (st.untraced.settle [] h s), st.untraced_settle [] [] h s]

theorem untraced_turn (st : Store υ) : st.turn.untraced = st.untraced.turn.untraced :=
  untraced_send st.due { st with due := st.deferred, deferred := [] }

/-- What a program is answered, and what it leaves, does not depend on spans and traces. -/
theorem answer_untraced {st st' : Store υ} (hst : st.untraced = st'.untraced)
    (spans spans' : List Span) (q : Request) :
    (st.answer spans q).1 = (st'.answer spans' q).1 ∧
      (st.answer spans q).2.untraced = (st'.answer spans' q).2.untraced := by
  have hanswer (st : Store υ) (spans : List Span) :
      (st.answer spans q).1 = (st.untraced.answer [] q).1 ∧
        (st.answer spans q).2.untraced = (st.untraced.answer [] q).2.untraced := by
    cases q with
    | openChannel => exact ⟨rfl, rfl⟩
    | settle h s => exact ⟨rfl, st.untraced_settle spans [] h s⟩
    | discard h => exact ⟨rfl, st.untraced_discard h⟩
    | deafen h => exact ⟨rfl, rfl⟩
    | isWaiting h => exact ⟨rfl, rfl⟩
    | defer h s => exact ⟨rfl, rfl⟩
    | report notice => exact ⟨rfl, rfl⟩
  obtain ⟨hreply, hlast⟩ := hanswer st spans
  obtain ⟨hreply', hlast'⟩ := hanswer st' spans'
  rw [hst] at hreply hlast
  exact ⟨hreply.trans hreply'.symm, hlast.trans hlast'.symm⟩

end Store

/-- The outside world does not look at the trace. -/
def Act.Blind (act : Act υ) : Prop :=
  ∀ st st' : Store υ, st.untraced = st'.untraced → (act st).untraced = (act st').untraced

/-! ## Courses -/

def Halt.untraced : Halt υ α → Halt υ α
  | ended st value left => .ended st.untraced value left
  | unwound st payload => .unwound st.untraced payload
  | pending st onDrop => .pending st.untraced onDrop
  | exhausted st => .exhausted st.untraced

theorem Store.turn_untraced {st st' : Store υ} (hst : st.untraced = st'.untraced) :
    st.turn.untraced = st'.turn.untraced := by
  rw [untraced_turn, hst, ← untraced_turn]

theorem Store.waitAmid_untraced (h : Handle) {acts : List (Act υ)}
    (blind : ∀ act ∈ acts, act.Blind) {st st' : Store υ} (hst : st.untraced = st'.untraced) :
    (st.waitAmid h acts).1 = (st'.waitAmid h acts).1 ∧
      (st.waitAmid h acts).2.untraced = (st'.waitAmid h acts).2.untraced := by
  have hsame {st st' : Store υ} (hst : st.untraced = st'.untraced) :
      st'.settlement? h = st.settlement? h := (congrArg (settlement? · h) hst.symm :)
  fun_induction waitAmid h acts st generalizing st' with
  | case1 st s acts settled =>
      rw [waitAmid_of_settled ((hsame hst).trans settled)]
      exact ⟨rfl, hst⟩
  | case2 st unsettled =>
      rw [waitAmid_nil ((hsame hst).trans unsettled)]
      exact ⟨rfl, turn_untraced hst⟩
  | case3 st act acts unsettled ih =>
      rw [waitAmid_cons ((hsame hst).trans unsettled)]
      obtain ⟨hact, hacts⟩ := List.forall_mem_cons.1 blind
      exact ih hacts (hact _ _ (turn_untraced hst))

/-- What the outside world does while something is waited for comes first. -/
theorem Store.left_suffix_of_waitAmid {h : Handle} {acts left : List (Act υ)} {st last : Store υ}
    {s : Settlement} (hwait : st.waitAmid h acts = (some (s, left), last)) : left <:+ acts := by
  fun_induction Store.waitAmid h acts st with
  | case1 st found acts settled =>
      cases hwait
      exact List.suffix_rfl
  | case2 st unsettled => cases hwait
  | case3 st act acts unsettled ih => exact (ih hwait).trans (List.suffix_cons act acts)

namespace Program

theorem left_suffix {p : Suspending υ α} {acts left : List (Act υ)} {st last : Store υ} {value : α}
    (hended : p.course acts st = .ended last value left) : left <:+ acts := by
  induction p generalizing acts st with
  | done a =>
      cases hended
      exact List.suffix_rfl
  | panic payload => cases hended
  | exhausted may => cases hended
  | user update next ih => exact ih _ hended
  | request spans q next ih => exact ih _ hended
  | pause may onDrop next ih =>
      cases acts with
      | nil => cases hended
      | cons act acts => exact (ih () hended).trans (List.suffix_cons act acts)
  | await may onDrop h next ih =>
      simp only [course] at hended
      rcases hwait : st.waitAmid h acts with ⟨_ | ⟨s, rest⟩, mid⟩
      · rw [hwait] at hended
        cases hended
      · rw [hwait] at hended
        exact (ih s hended).trans (Store.left_suffix_of_waitAmid hwait)

/-- How far a program comes depends neither on its spans nor on the trace before it. -/
theorem course_untraced (p : Suspending υ α) (spans spans' : List Span) {acts : List (Act υ)}
    (blind : ∀ act ∈ acts, act.Blind) {st st' : Store υ} (hst : st.untraced = st'.untraced) :
    ((p.under spans).course acts st).halt.untraced =
      ((p.under spans').course acts st').halt.untraced := by
  induction p generalizing acts st st' with
  | done value =>
      simp only [under, course, Course.halt, Halt.untraced, hst]
  | panic payload =>
      simp only [under, course, Course.halt, Halt.untraced, hst]
  | exhausted may =>
      simp only [under, course, Course.halt, Halt.untraced, hst]
  | user update next ih =>
      have huser : st.user = st'.user := (congrArg Store.user hst :)
      simp only [under, course, huser]
      exact ih _ blind (congrArg (fun s : Store υ => { s with user := update st'.user }) hst)
  | request inner q next ih =>
      obtain ⟨hreply, hlast⟩ := Store.answer_untraced hst (spans ++ inner) (spans' ++ inner) q
      simp only [under, course, hreply]
      exact ih _ blind hlast
  | pause may onDrop next ih =>
      have hturn := Store.turn_untraced hst
      cases acts with
      | nil => simp only [under, course, Course.halt, Halt.untraced, hturn]
      | cons act acts =>
          obtain ⟨hact, hacts⟩ := List.forall_mem_cons.1 blind
          exact ih () hacts (hact _ _ hturn)
  | await may onDrop h next ih =>
      obtain ⟨hfound, hlast⟩ := Store.waitAmid_untraced h blind hst
      simp only [under, course]
      rcases hwait : st.waitAmid h acts with ⟨found, mid⟩
      rcases hwait' : st'.waitAmid h acts with ⟨found', mid'⟩
      rw [hwait, hwait'] at hfound hlast
      obtain rfl : found = found' := hfound
      cases found with
      | none => exact congrArg (Halt.pending · onDrop) hlast
      | some found =>
          have hsuffix := Store.left_suffix_of_waitAmid hwait
          exact ih found.1 (fun act hact => blind act (hsuffix.subset hact)) hlast

/-- What a plain function comes to depends neither on its spans nor on the trace before it. -/
theorem run_untraced (p : Direct υ α) (spans spans' : List Span) {st st' : Store υ}
    (hst : st.untraced = st'.untraced) :
    ((p.under spans).run st).1 = ((p.under spans').run st').1 ∧
      ((p.under spans).run st).2.untraced = ((p.under spans').run st').2.untraced := by
  induction p generalizing st st' with
  | done value => exact ⟨rfl, hst⟩
  | panic payload => exact ⟨rfl, hst⟩
  | exhausted may => cases may
  | user update next ih =>
      have huser : st.user = st'.user := (congrArg Store.user hst :)
      simp only [under, run, huser]
      exact ih _ (congrArg (fun s : Store υ => { s with user := update st'.user }) hst)
  | request inner q next ih =>
      obtain ⟨hreply, hlast⟩ := Store.answer_untraced hst (spans ++ inner) (spans' ++ inner) q
      simp only [under, run, hreply]
      exact ih _ hlast
  | pause may => cases may
  | await may => cases may

end Program

/-- Resolvers are told the same. -/
theorem Halt.told_untraced {halt halt' : Halt υ Completion} (hhalt : halt.untraced = halt'.untraced)
    (spans spans' : List Span) (resolvers : List (Resolver υ)) :
    (halt.told spans resolvers).untraced = (halt'.told spans' resolvers).untraced := by
  cases halt <;> cases halt' <;>
    simp only [untraced, reduceCtorEq, ended.injEq, unwound.injEq, pending.injEq,
      exhausted.injEq] at hhalt
  case ended.ended st completion left st' completion' left' =>
      obtain ⟨hst, rfl, rfl⟩ := hhalt
      obtain ⟨hresult, hlast⟩ :=
        Program.run_untraced (Flow.notify completion resolvers) spans spans' hst
      simp only [told]
      rcases hrun : ((Flow.notify completion resolvers).under spans).run st with ⟨result, last⟩
      rcases hrun' : ((Flow.notify completion resolvers).under spans').run st' with ⟨result', last'⟩
      rw [hrun, hrun'] at hresult hlast
      obtain rfl : result = result' := hresult
      cases result with
      | ok done => exact congrArg (Halt.ended · completion left) hlast
      | error payload => exact congrArg (Halt.unwound · payload) hlast
  all_goals simp only [told, untraced, hhalt]

/-! ## Accounts -/

/-- The invocation as it is made, without the trace before it. -/
def Entry.untraced (e : Entry υ) : Entry υ := { e with spans := [], store := e.store.untraced }

def Account.untraced (a : Account υ α) : Account υ α :=
  ⟨a.entries.map Entry.untraced, a.results, a.halt.untraced⟩

/-- Where the one goes on as the other, so do they together. -/
theorem Account.andThen_untraced {a a' : Account υ α} (ha : a.untraced = a'.untraced)
    {f g : α → List (Act υ) → Store υ → ResultSet → Account υ β}
    (rest : ∀ st st' value left, a.halt = .ended st value left → st.untraced = st'.untraced →
      (f value left st a.results).untraced = (g value left st' a.results).untraced) :
    (a.andThen f).untraced = (a'.andThen g).untraced := by
  obtain ⟨entries, results, halt⟩ := a
  obtain ⟨entries', results', halt'⟩ := a'
  simp only [Account.untraced, Account.mk.injEq] at ha
  obtain ⟨hentries, rfl, hhalt⟩ := ha
  cases halt <;> cases halt' <;>
    simp only [Halt.untraced, reduceCtorEq, Halt.ended.injEq, Halt.unwound.injEq,
      Halt.pending.injEq, Halt.exhausted.injEq] at hhalt
  case ended.ended st value left st' value' left' =>
      obtain ⟨hst, rfl, rfl⟩ := hhalt
      have hrest := rest st st' value left rfl hst
      simp only [Account.untraced, Account.mk.injEq] at hrest
      obtain ⟨hlater, hresults, hhalt⟩ := hrest
      simp only [andThen, Account.untraced, List.map_append, hentries, hlater, hresults, hhalt]
  all_goals simp only [andThen, Account.untraced, Halt.untraced, hentries, hhalt]

namespace Plan

/-- The plan without its reports and spans. -/
def silent : Plan υ α → Plan υ α
  | done value => done value
  | exhausted => exhausted
  | report _ _ next => next.silent
  | results update next => results update fun r => (next r).silent
  | invoke _ step args next => invoke [] step args fun s => (next s).silent

theorem silent_bind (p : Plan υ α) (f : α → Plan υ β) :
    (p.bind f).silent = p.silent.bind fun a => (f a).silent := by
  induction p with
  | done => rfl
  | exhausted => rfl
  | report spans notice next ih => exact ih
  | results update next ih => exact congrArg (results update) (funext ih)
  | invoke spans step args next ih => exact congrArg (invoke [] step args) (funext ih)

theorem silent_under (spans : List Span) (p : Plan υ α) : (p.under spans).silent = p.silent := by
  induction p with
  | done => rfl
  | exhausted => rfl
  | report inner notice next ih => exact ih
  | results update next ih => exact congrArg (results update) (funext ih)
  | invoke inner step args next ih => exact congrArg (invoke [] step args) (funext ih)

theorem left_suffix {config : Config} {p : Plan υ α} {acts left : List (Act υ)} {st last : Store υ}
    {r : ResultSet} {value : α}
    (hended : (p.account config acts st r).halt = .ended last value left) : left <:+ acts := by
  induction p generalizing acts st r with
  | done a =>
      cases hended
      exact List.suffix_rfl
  | exhausted => cases hended
  | report spans notice next ih => exact ih hended
  | results update next ih => exact ih r hended
  | invoke spans step args next ih =>
      simp only [account, Account.ofEntry, Account.andThen] at hended
      cases hcourse : Entry.course config ⟨⟨step, args⟩, spans, acts, st⟩ <;>
        rw [hcourse] at hended
      case ended mid s rest => exact (ih s hended).trans (Program.left_suffix hcourse)
      all_goals cases hended

/-- The account of a plan is that of the silent plan. -/
theorem account_silent (config : Config) (p : Plan υ α) {acts : List (Act υ)}
    (blind : ∀ act ∈ acts, act.Blind) {st st' : Store υ} (hst : st.untraced = st'.untraced)
    (r : ResultSet) :
    (p.account config acts st r).untraced = (p.silent.account config acts st' r).untraced := by
  induction p generalizing acts st st' r with
  | done value => simp only [silent, account, Account.untraced, Halt.untraced, hst]
  | exhausted => simp only [silent, account, Account.untraced, Halt.untraced, hst]
  | report spans notice next ih =>
      have hreported : (st.report spans notice).untraced = st'.untraced := hst
      exact ih blind hreported r
  | results update next ih => exact ih r blind hst (update r)
  | invoke spans step args next ih =>
      have hcourse := (step.invoke args config).course_untraced spans [] blind hst
      refine Account.andThen_untraced ?_ fun mid mid' s left hended hmid => ?_
      · simp only [Account.ofEntry, Account.untraced, List.map_singleton, Entry.untraced, hst,
          Entry.course, hcourse]
      · have hsuffix := Program.left_suffix (Course.ended_of_halt hended)
        exact ih s (fun act hact => blind act (hsuffix.subset hact)) hmid r

end Plan

end Stepwise
