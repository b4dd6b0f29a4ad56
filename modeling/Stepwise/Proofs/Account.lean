import Stepwise.Proofs.Course
import Stepwise.Proofs.Position
import Stepwise.Proofs.Spans
/-!
# The account of a run

A run works on the store with its results beside the state of user code.  Its account is kept on the
store of user code alone: the invocations that it makes, each with the moment at which it is made,
its results, and how far it comes.  The run comes exactly as far as its account says.
-/

namespace Stepwise

variable {m : Mode} {υ ρ α β : Type}

/-! ## Courses beside a second component of the state -/

/-- The course of a program as a part of a run that has a component of state of its own. -/
def Course.beside (r : ρ) : Course υ α → Course (υ × ρ) α
  | ended st value left => .ended (st.attach r) value (left.map Act.aside)
  | unwound st payload => .unwound (st.attach r) payload
  | pending st rest => .pending (st.attach r) ⟨rest.program.beside, rest.onDrop⟩
  | exhausted st => .exhausted (st.attach r)

theorem Store.attach_injective (r : ρ) : Function.Injective fun st : Store υ => st.attach r :=
  fun _ _ heq => congrArg (fun st => st.detach.2) heq

theorem Act.aside_inj (r : ρ) {f g : Act υ} (heq : (f.aside : Act (υ × ρ)) = g.aside) : f = g := by
  funext st
  exact Store.attach_injective r (congrFun heq (st.attach r))

theorem Store.waitAmid_attach (h : Handle) (acts : List (Act υ)) (st : Store υ) (r : ρ) :
    (st.attach r).waitAmid h (acts.map Act.aside) =
      match st.waitAmid h acts with
      | (some (s, left), last) => (some (s, left.map Act.aside), last.attach r)
      | (none, last) => (none, last.attach r) := by
  have hsame {st : Store υ} : (st.attach r).settlement? h = st.settlement? h := rfl
  fun_induction waitAmid h acts st with
  | case1 st s acts settled => exact waitAmid_of_settled (hsame.trans settled) _
  | case2 st unsettled =>
      exact (waitAmid_nil (hsame.trans unsettled)).trans (congrArg _ (turn_attach st r))
  | case3 st act acts unsettled ih =>
      refine (waitAmid_cons (hsame.trans unsettled) act.aside _).trans ?_
      rw [turn_attach]
      exact ih

/-- Beside a second component of the state a program comes as far as it comes alone. -/
theorem Program.course_attach (p : Suspending υ α) (acts : List (Act υ)) (st : Store υ) (r : ρ) :
    (p.beside : Suspending (υ × ρ) α).course (acts.map Act.aside) (st.attach r) =
      (p.course acts st).beside r := by
  induction p generalizing acts st with
  | done value => rfl
  | panic payload => rfl
  | exhausted may => rfl
  | user update next ih => exact ih st.user acts { st with user := update st.user }
  | request spans q next ih =>
      obtain ⟨hreply, hstore⟩ := (st.attach r).answer_attach spans q
      simp only [beside, course]
      rw [hreply, hstore]
      exact ih _ _ _
  | pause may onDrop next ih =>
      simp only [beside, course, Store.turn_attach]
      cases acts with
      | nil => rfl
      | cons act acts => exact ih _ _ _
  | await may onDrop h next ih =>
      simp only [beside, course, Store.waitAmid_attach]
      rcases st.waitAmid h acts with ⟨_ | ⟨s, left⟩, last⟩
      · rfl
      · exact ih _ _ _

/-- A plain function under spans, as a part of a run. -/
theorem Program.under_relax_beside (spans : List Span) (p : Direct υ α) :
    (p.relax.beside : Suspending (υ × ρ) α).under spans = ((p.under spans).relax).beside := by
  rw [beside_eq_inside, under_inside, List.append_nil, ← beside_under, relax_under]

/-- The value that a program came to. -/
def Course.value? : Course υ α → Option α
  | ended _ value _ => some value
  | _ => none

theorem Course.ended_of_value? {c : Course υ α} {value : α} (hvalue : c.value? = some value) :
    ∃ st left, c = .ended st value left := by
  cases c <;> cases hvalue
  exact ⟨_, _, rfl⟩

/-! ## How far a run comes -/

/-- A course without what is left of a program that is suspended. -/
inductive Halt (υ α : Type) where
  | ended (store : Store υ) (value : α) (left : List (Act υ))
  | unwound (store : Store υ) (payload : Panic)
  | pending (store : Store υ) (onDrop : List Handle)
  | exhausted (store : Store υ)

def Course.halt : Course υ α → Halt υ α
  | ended st value left => .ended st value left
  | unwound st payload => .unwound st payload
  | pending st rest => .pending st rest.onDrop
  | exhausted st => .exhausted st

theorem Course.ended_of_halt {c : Course υ α} {st : Store υ} {value : α} {left : List (Act υ)}
    (hended : c.halt = .ended st value left) : c = .ended st value left := by
  cases c <;> cases hended
  rfl

namespace Halt

/-- As a run sees it, which has the results beside the state of user code. -/
def beside (r : ρ) : Halt υ α → Halt (υ × ρ) α
  | ended st value left => .ended (st.attach r) value (left.map Act.aside)
  | unwound st payload => .unwound (st.attach r) payload
  | pending st onDrop => .pending (st.attach r) onDrop
  | exhausted st => .exhausted (st.attach r)

def map (f : α → β) : Halt υ α → Halt υ β
  | ended st value left => .ended st (f value) left
  | unwound st payload => .unwound st payload
  | pending st onDrop => .pending st onDrop
  | exhausted st => .exhausted st

end Halt

theorem Halt.beside_injective (r : ρ) : Function.Injective (Halt.beside r : Halt υ α → _) := by
  have hattach (st st' : Store υ) : st.attach r = st'.attach r ↔ st = st' :=
    (Store.attach_injective r).eq_iff
  have hmap (acts acts' : List (Act υ)) :
      acts.map (Act.aside : Act υ → Act (υ × ρ)) = acts'.map Act.aside ↔ acts = acts' :=
    List.map_inj_right fun _ _ => Act.aside_inj r
  intro halt halt' heq
  cases halt <;> cases halt' <;>
    simp_all only [beside, reduceCtorEq, ended.injEq, unwound.injEq, pending.injEq,
      exhausted.injEq]

theorem Course.halt_beside (c : Course υ α) (r : ρ) : (c.beside r).halt = c.halt.beside r := by
  cases c <;> rfl

/-! ## Accounts of plans -/

/-- An invocation that a run makes, and the moment at which it makes it. -/
structure Entry (υ : Type) extends Invocation υ where
  spans : List Span
  /-- What the outside world does from then on. -/
  acts : List (Act υ)
  store : Store υ

namespace Entry

/-- What becomes of the invocation. -/
def course (config : Config) (e : Entry υ) : Course υ Settlement :=
  ((e.step.invoke e.args config).under e.spans).course e.acts e.store

/-- The settlement that it comes to, if it comes to one. -/
def settlement? (config : Config) (e : Entry υ) : Option Settlement := (e.course config).value?

end Entry

/-- What a run did: the invocations that it made, in order, its results, and how far it came. -/
structure Account (υ α : Type) where
  entries : List (Entry υ)
  results : ResultSet
  halt : Halt υ α

namespace Account

/-- The account of what goes on where another one ended. -/
def andThen (f : α → List (Act υ) → Store υ → ResultSet → Account υ β) (a : Account υ α) :
    Account υ β :=
  match a.halt with
  | .ended st value left =>
      let rest := f value left st a.results
      { rest with entries := a.entries ++ rest.entries }
  | .unwound st payload => ⟨a.entries, a.results, .unwound st payload⟩
  | .pending st onDrop => ⟨a.entries, a.results, .pending st onDrop⟩
  | .exhausted st => ⟨a.entries, a.results, .exhausted st⟩

/-- The account of one invocation. -/
def ofEntry (config : Config) (e : Entry υ) (results : ResultSet) : Account υ Settlement :=
  ⟨[e], results, (e.course config).halt⟩

/-- How far the run comes that has its results beside the state of user code. -/
def outer (a : Account υ α) : Halt (υ × ResultSet) α := a.halt.beside a.results

theorem andThen_andThen {γ : Type} (a : Account υ α)
    (f : α → List (Act υ) → Store υ → ResultSet → Account υ β)
    (g : β → List (Act υ) → Store υ → ResultSet → Account υ γ) :
    (a.andThen f).andThen g =
      a.andThen fun value left st results => (f value left st results).andThen g := by
  obtain ⟨entries, results, halt⟩ := a
  cases halt with
  | ended st value left =>
      simp only [andThen]
      cases (f value left st results).halt <;> simp
  | unwound st payload => rfl
  | pending st onDrop => rfl
  | exhausted st => rfl

/-- Nothing is added to an account where nothing follows. -/
theorem andThen_eq_self {a : Account υ α} {f : α → List (Act υ) → Store υ → ResultSet → Account υ α}
    (nothing : ∀ st value left, a.halt = .ended st value left →
      f value left st a.results = ⟨[], a.results, .ended st value left⟩) : a.andThen f = a := by
  obtain ⟨entries, results, halt⟩ := a
  cases halt with
  | ended st value left => simp [andThen, nothing st value left rfl]
  | unwound st payload => rfl
  | pending st onDrop => rfl
  | exhausted st => rfl

end Account

namespace Plan

/-- The account of carrying out a plan, which begins with the given results. -/
def account (config : Config) :
    Plan υ α → List (Act υ) → Store υ → ResultSet → Account υ α
  | done value, acts, st, r => ⟨[], r, .ended st value acts⟩
  | exhausted, _, st, r => ⟨[], r, .exhausted st⟩
  | report spans notice next, acts, st, r => next.account config acts (st.report spans notice) r
  | results update next, acts, st, r => (next r).account config acts st (update r)
  | invoke spans step args next, acts, st, r =>
      (Account.ofEntry config ⟨⟨step, args⟩, spans, acts, st⟩ r).andThen fun s left st r =>
        (next s).account config left st r

theorem account_bind (config : Config) (p : Plan υ α) (f : α → Plan υ β) (acts : List (Act υ))
    (st : Store υ) (r : ResultSet) :
    (p.bind f).account config acts st r =
      (p.account config acts st r).andThen fun a left st r => (f a).account config left st r := by
  induction p generalizing acts st r with
  | done value => rfl
  | exhausted => rfl
  | report spans notice next ih => exact ih _ _ _
  | results update next ih => exact ih _ _ _ _
  | invoke spans step args next ih => simp only [bind, account, Account.andThen_andThen, ih]

theorem account_map (config : Config) (p : Plan υ α) (f : α → β) (acts : List (Act υ))
    (st : Store υ) (r : ResultSet) :
    (p.bind fun a => .done (f a)).account config acts st r =
      ⟨(p.account config acts st r).entries, (p.account config acts st r).results,
        (p.account config acts st r).halt.map f⟩ := by
  rw [account_bind]
  obtain ⟨entries, results, halt⟩ := p.account config acts st r
  cases halt <;> simp [Account.andThen, account, Halt.map]

/-- Carried out, a plan comes as far as its account says. -/
theorem halt_course (config : Config) (p : Plan υ α) (acts : List (Act υ)) (st : Store υ)
    (r : ResultSet) :
    ((p.toProgram config).course (acts.map Act.aside) (st.attach r)).halt =
      (p.account config acts st r).outer := by
  induction p generalizing acts st r with
  | done value => rfl
  | exhausted => rfl
  | report spans notice next ih => exact ih acts (st.report spans notice) r
  | results update next ih => exact ih r acts st (update r)
  | invoke spans step args next ih =>
      have hcourse := ((step.invoke args config).under spans).course_attach acts st r
      rw [Program.beside_under] at hcourse
      simp only [toProgram, Program.course_bind, hcourse, account, Account.ofEntry, Entry.course]
      cases ((step.invoke args config).under spans).course acts st with
      | ended mid s left => exact ih s left mid r
      | unwound mid payload => rfl
      | pending mid rest => rfl
      | exhausted mid => rfl

end Plan

/-! ## Accounts of runs -/

/-- A run of a flow: the spans that it is under, what the outside world does between its polls, and
the store that it begins in. -/
structure Scene (υ : Type) where
  limit : Nat
  flow : Flow υ
  spans : List Span
  acts : List (Act υ)
  store : Store υ

/-- How far a run comes that tells its resolvers where its plan ends. -/
def Halt.told (spans : List Span) (resolvers : List (Resolver υ)) :
    Halt υ Completion → Halt υ Completion
  | .ended st completion left =>
      match ((Flow.notify completion resolvers).under spans).run st with
      | (.ok _, last) => .ended last completion left
      | (.error payload, last) => .unwound last payload
  | halt => halt

/-- Resolvers are told of no other completion than that of the plan. -/
theorem Halt.ended_of_told {spans : List Span} {resolvers : List (Resolver υ)}
    {halt : Halt υ Completion} {st : Store υ} {completion : Completion} {left : List (Act υ)}
    (htold : halt.told spans resolvers = .ended st completion left) :
    ∃ mid, halt = .ended mid completion left := by
  cases halt with
  | ended mid value rest =>
      simp only [told] at htold
      rcases hrun : ((Flow.notify value resolvers).under spans).run mid with ⟨payload | ⟨⟩, last⟩
      all_goals
        rw [hrun] at htold
        cases htold
      exact ⟨mid, rfl⟩
  | unwound mid payload => cases htold
  | pending mid onDrop => cases htold
  | exhausted mid => cases htold

namespace Scene

/-- What becomes of the run. -/
def course (S : Scene υ) : Course (υ × ResultSet) Completion :=
  ((S.flow.exec S.limit).under S.spans).course (S.acts.map Act.aside)
    (S.store.attach S.flow.results)

/-- The account of the run before its resolvers are told. -/
def account (S : Scene υ) : Account υ Completion :=
  ((S.flow.plan S.limit).under S.spans).account S.flow.config S.acts S.store S.flow.results

/-- How far the run comes, with its resolvers. -/
def halt (S : Scene υ) : Halt υ Completion := S.account.halt.told S.spans S.flow.resolvers

/-- The invocations that the run makes. -/
def entries (S : Scene υ) : List (Entry υ) := S.account.entries

/-- A run comes as far as its account says. -/
theorem halt_course (S : Scene υ) : S.course.halt = S.halt.beside S.account.results := by
  have hplan := Plan.halt_course S.flow.config ((S.flow.plan S.limit).under S.spans) S.acts S.store
    S.flow.results
  rw [Plan.toProgram_under] at hplan
  unfold course halt account
  rw [Flow.exec_eq_plan, Program.under_bind, Program.course_bind]
  rcases hcourse : (((S.flow.plan S.limit).toProgram S.flow.config).under S.spans).course
    (S.acts.map Act.aside) (S.store.attach S.flow.results) with
    ⟨st, completion, left⟩ | ⟨st, payload⟩ | ⟨st, rest⟩ | st
  all_goals
    rw [hcourse] at hplan
    rcases haccount : ((S.flow.plan S.limit).under S.spans).account S.flow.config S.acts S.store
      S.flow.results with ⟨entries, results, ⟨st', completion', left'⟩ | ⟨st', payload'⟩ |
        ⟨st', onDrop'⟩ | st'⟩
    all_goals
      rw [haccount] at hplan
      cases hplan
  · simp only [Course.andThen, Program.under_bind, Program.under_relax_beside, Program.course_bind,
      Program.course_beside, Halt.told]
    rcases hrun : ((Flow.notify completion S.flow.resolvers).under S.spans).run st' with
      ⟨_ | _, last⟩
    all_goals
      have hdetach : (st'.attach results).detach = (results, st') := rfl
      simp only [hdetach, hrun]
      rfl
  · rfl
  · rfl
  · rfl

theorem course_of_halt {S : Scene υ} {st : Store υ} {completion : Completion} {left : List (Act υ)}
    (hended : S.halt = .ended st completion left) :
    S.course = .ended (st.attach S.account.results) completion (left.map Act.aside) := by
  have hcourse := S.halt_course
  rw [hended] at hcourse
  exact Course.ended_of_halt hcourse

/-- The run returns with the given completion. -/
def Returns (S : Scene υ) (completion : Completion) : Prop :=
  ∃ st left, S.course = .ended st completion left

theorem returns_iff_halt {S : Scene υ} {completion : Completion} :
    S.Returns completion ↔ ∃ st left, S.halt = .ended st completion left := by
  constructor
  · rintro ⟨st, left, hended⟩
    have hcourse := S.halt_course
    rw [hended] at hcourse
    cases hhalt : S.halt <;> rw [hhalt] at hcourse <;> cases hcourse
    exact ⟨_, _, rfl⟩
  · rintro ⟨st, left, hended⟩
    exact ⟨_, _, course_of_halt hended⟩

/-- A run that returns has ended its plan before it told its resolvers. -/
theorem Returns.account {S : Scene υ} {completion : Completion} (returns : S.Returns completion) :
    ∃ st left, S.account.halt = .ended st completion left := by
  obtain ⟨st, left, hhalt⟩ := returns_iff_halt.1 returns
  obtain ⟨mid, hended⟩ := Halt.ended_of_told hhalt
  exact ⟨mid, left, hended⟩

end Scene

/-! ## Hosts -/

namespace Host

/-- The next run of a host. -/
def scene (limit : Nat) (acts : List (Act υ)) (h : Host υ) : Scene υ :=
  { limit, flow := h.flow, spans := [], acts, store := h.store }

theorem course_scene (limit : Nat) (h : Host υ) (acts : List (Act υ)) :
    (h.scene limit acts).course = (h.flow.exec limit).course (acts.map Act.aside) h.inner := by
  unfold Scene.course scene
  simp only [Program.under_nil]
  rfl

/-- What becomes of a host whose run came so far: its outcome, the store and the results. -/
def outcomeOf (h : Host υ) (results : ResultSet) : Halt υ Completion → Outcome Completion × Host υ
  | .ended st completion _ => (.ended completion, h.leave (st.attach results))
  | .unwound st payload => (.unwound payload, h.leave (st.attach results))
  | .pending st onDrop => (.pending, h.leave ((onDrop.foldl Store.deafen st).attach results))
  | .exhausted st => (.pending, h.leave (st.attach results))

end Host

theorem Store.drop_attach (onDrop : List Handle) (st : Store υ) (r : ρ) :
    onDrop.foldl Store.deafen (st.attach r) = (onDrop.foldl Store.deafen st).attach r := by
  induction onDrop generalizing st with
  | nil => rfl
  | cons h rest ih => exact ih (st.deafen h)

/-- A run that is started and polled, and dropped if it is pending in the end, comes as far as its
account says. -/
theorem Host.watch_eq_halt (limit : Nat) (h : Host υ) (acts : List (Act υ)) :
    (h.start limit).watch acts =
      h.outcomeOf (h.scene limit acts).account.results (h.scene limit acts).halt := by
  have hcourse := (h.scene limit acts).halt_course
  rw [course_scene] at hcourse
  rw [Host.watch_start]
  generalize (h.scene limit acts).account.results = results at hcourse ⊢
  rcases hstand : (h.flow.exec limit).course (acts.map Act.aside) h.inner with
    ⟨st, completion, left⟩ | ⟨st, payload⟩ | ⟨st, rest⟩ | st
  all_goals
    rw [hstand] at hcourse
    rcases hhalt : (h.scene limit acts).halt with
      ⟨st', completion', left'⟩ | ⟨st', payload'⟩ | ⟨st', onDrop'⟩ | st'
    all_goals
      rw [hhalt] at hcourse
      cases hcourse
  · rfl
  · rfl
  · simp only [Host.conclude, Host.outcomeOf, Parked.drop, Store.drop_attach]
    rfl
  · rfl

/-- A host whose next run returns. -/
theorem Host.returns_iff_watch {limit : Nat} {h : Host υ} {acts : List (Act υ)}
    {completion : Completion} :
    (h.scene limit acts).Returns completion ↔
      ((h.start limit).watch acts).1 = .ended completion := by
  rw [Scene.returns_iff_halt, watch_eq_halt]
  cases (h.scene limit acts).halt <;> simp [outcomeOf]

end Stepwise
