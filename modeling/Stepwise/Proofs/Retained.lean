import Stepwise.Proofs.MirroredRuns
import Stepwise.Proofs.Passages
/-!
# What a run leaves in its flow

At every moment from its first poll on the results of a flow are those of the items that the run in
progress has finished, and the rest of the flow is as it was.  So what earlier runs left makes no
difference to the next one.
-/

namespace Stepwise

variable {υ α : Type}

/-! ## Passages so far -/

/-- A run comes to its items in order, and it finishes all of those that it comes to, but for the
last one. -/
theorem passages_in_order (limit : Nat) (config : Config) (spans : List Span) (index : Nat)
    (items : List (Item υ)) (acts : List (Act υ)) (st : Store υ) :
    (passages limit config spans index items acts st).map Passage.item <+: items ∧
      ∀ p ∈ (passages limit config spans index items acts st).dropLast, p.Finishes := by
  induction items generalizing index acts st with
  | nil => exact ⟨List.prefix_rfl, List.forall_mem_nil _⟩
  | cons item rest ih =>
      rw [passages]
      have hitem : (item.passage limit config (spans ++ [Span.item index item.kind]) acts st).item =
          item := rfl
      generalize item.passage limit config (spans ++ [Span.item index item.kind]) acts st = p
        at hitem ⊢
      subst hitem
      -- The run stays in an item that it does not finish.
      have hlast : [p].map Passage.item <+: p.item :: rest ∧ ∀ q ∈ [p].dropLast, q.Finishes :=
        ⟨⟨rest, rfl⟩, List.forall_mem_nil _⟩
      obtain ⟨item, entries, ⟨mid, _ | output, left⟩ | _ | _ | _⟩ := p
      · exact hlast
      · obtain ⟨hfinished, hfinishes⟩ := ih (index + 1) left mid
        refine ⟨(List.prefix_cons_inj _).2 hfinished, ?_⟩
        dsimp only
        generalize passages limit config spans (index + 1) rest left mid = ps at hfinishes ⊢
        cases ps with
        | nil => exact hlast.2
        | cons q qs => exact List.forall_mem_cons.2 ⟨⟨mid, output, left, rfl⟩, hfinishes⟩
      · exact hlast
      · exact hlast
      · exact hlast

theorem Scene.passages_in_order (S : Scene υ) :
    S.passages.map Passage.item <+: S.flow.sequence.items ∧
      ∀ p ∈ S.passages.dropLast, p.Finishes := by
  unfold Scene.passages
  cases S.flow.buildError with
  | some error => exact ⟨List.nil_prefix, List.forall_mem_nil _⟩
  | none => exact Stepwise.passages_in_order _ _ _ _ _ _ _

/-! ## A host at every moment of a run -/

/-- The store that a program came to. -/
def Course.store : Course υ α → Store υ
  | ended st _ _ | unwound st _ | pending st _ | exhausted st => st

theorem Halt.results_of_beside {c : Course (υ × ResultSet) α} {halt : Halt υ α} {r : ResultSet}
    (hhalt : c.halt = halt.beside r) : c.store.detach.1 = r := by
  cases c <;> cases halt <;> cases hhalt <;> rfl

namespace Host

/-- Polls the run in progress, and once more after every act, and leaves it as it is then. -/
def observe (acts : List (Act υ)) (h : Host υ) : Host υ :=
  match acts with
  | [] => (h.resume 1).2
  | f :: acts => ((h.resume 1).2.act f).observe acts

theorem resume_idle {h : Host υ} (idle : h.run = none) (polls : Nat) :
    h.resume polls = (none, h) := by
  unfold resume
  rw [idle]

theorem flow_observe_idle {h : Host υ} (idle : h.run = none) (acts : List (Act υ)) :
    (h.observe acts).flow = h.flow := by
  induction acts generalizing h with
  | nil =>
      unfold observe
      rw [resume_idle idle]
  | cons f acts ih =>
      unfold observe
      rw [resume_idle idle]
      exact ih (h := h.act f) idle

theorem flow_observe {h : Host υ} {run : Parked (υ × ResultSet) Completion}
    (hrun : h.run = some run) (acts : List (Act υ)) :
    (h.observe acts).flow =
      { h.flow with
        results := (run.program.course (acts.map Act.aside) h.inner).store.detach.1 } := by
  induction acts generalizing h run with
  | nil =>
      rw [Program.course_of_poll]
      unfold observe resume
      simp only [hrun, Parked.advance, Parked.poll]
      cases run.program.poll h.inner <;> rfl
  | cons f acts ih =>
      rw [Program.course_of_poll]
      unfold observe resume
      simp only [hrun, Parked.advance, Parked.poll]
      cases run.program.poll h.inner with
      | done st completion => exact flow_observe_idle rfl acts
      | panicked st payload => exact flow_observe_idle rfl acts
      | exhausted st => exact flow_observe_idle rfl acts
      | pending st rest => exact ih rfl

/-- To drop a run does not touch its flow. -/
theorem flow_drop (h : Host υ) : h.drop.flow = h.flow := by
  unfold drop
  split
  · rfl
  · simp only [Host.leave, inner, Parked.drop, Store.drop_attach]
    rfl

theorem flow_observe_start (limit : Nat) (h : Host υ) (acts : List (Act υ)) :
    ((h.start limit).observe acts).flow =
      { h.flow with results := ⟨(h.scene limit acts).passages.filterMap Passage.value?⟩ } := by
  have hcourse := (h.scene limit acts).halt_course
  rw [course_scene, (h.scene limit acts).account_passages.2.1] at hcourse
  have hresults := Halt.results_of_beside hcourse
  have hrun : (h.start limit).run = some (.fresh (h.flow.exec limit)) := rfl
  rw [flow_observe hrun]
  exact congrArg (fun results => { h.flow with results }) hresults

end Host

/-! ## Reruns -/

/-- A run begins without results, whatever an earlier one left. -/
theorem Flow.course_exec_attach (limit : Nat) (flow : Flow υ)
    (acts : List (Act (υ × ResultSet))) (st : Store υ) (left : ResultSet) :
    (flow.exec limit).course acts (st.attach left) =
      (flow.exec limit).course acts (st.attach .empty) := by
  rw [exec_eq_plan]
  rfl

/-- Nobody knows any handle any more. -/
def Pairing.none : Pairing where
  Pairs _ _ := False
  right_unique pairs := pairs.elim
  left_unique pairs := pairs.elim

/-- If the states of user code are alike that keep no handles, and nothing is scheduled, then it
does not matter which channels were opened before. -/
theorem Store.mirrors_none {like : Likeness υ υ} {st st' : Store υ}
    (user : like.Alike .none st.user st'.user) (due : st.due = [] ∧ st'.due = [])
    (deferred : st.deferred = [] ∧ st'.deferred = []) :
    st.Mirrors like st.trace st'.trace .none st' where
  user := user
  channels _ _ pairs := pairs.elim
  unopened _ _ pairs := pairs.elim
  due := by rw [due.1, due.2]; exact .nil
  deferred := by rw [deferred.1, deferred.2]; exact .nil
  trace := ⟨#[], Array.append_empty.symm, Array.append_empty.symm⟩

namespace Host

/-- At every moment from the first poll of a run on, whether it is suspended or has ended, unwound
or been dropped, the flow is as it was before, with the first values of the outputs of those items
as its results that this run has finished, in order.  So a run on another host, which is the same up
to the results that earlier runs left there and up to handles that nobody knows any more, comes to
the same: the outcome, the reports, the results, and a state of user code that is alike.  The code
of any flow is uniform where every handle stands for itself (`Flow.uniform_same`). -/
theorem results_of_this_run (limit : Nat) (h : Host υ) (acts : List (Act υ)) :
    let run := h.scene limit acts
    let now := (h.start limit).observe acts
    (now.flow = { h.flow with results := ⟨run.passages.filterMap Passage.value?⟩ } ∧
      now.drop.flow = now.flow ∧ run.passages.map Passage.item <+: h.flow.sequence.items ∧
      ∀ p ∈ run.passages.dropLast, p.Finishes) ∧
    ∀ (other : Host υ) (like : Likeness υ υ) (R : Pairing),
      other.flow = { h.flow with results := other.flow.results } → h.flow.Uniform like R →
      h.store.Mirrors like h.store.trace other.store.trace R other.store →
      (∀ act ∈ acts, act.Mirrors like h.store.trace other.store.trace R act) →
      let first := (h.start limit).watch acts
      let second := (other.start limit).watch acts
      first.1 = second.1 ∧ first.2.flow = second.2.flow ∧ ∃ more, R ≤ more ∧
        first.2.store.Mirrors like h.store.trace other.store.trace more second.2.store := by
  intro run now
  refine ⟨⟨flow_observe_start limit h acts, flow_drop now, run.passages_in_order⟩, ?_⟩
  intro other like R hflow uniform stores hacts first second
  have hexec : other.flow.exec limit = h.flow.exec limit := by
    rw [hflow]
    rfl
  have hmirrors := (uniform.exec limit le_rfl).course le_rfl
    (List.forall₂_map_left_iff.2 (List.forall₂_map_right_iff.2
      (List.forall₂_same.2 fun act hact => (hacts act hact).aside)))
    (stores.attach ResultSet.empty)
  have hfirst : first = (h.start limit).conclude _ := watch_start limit h acts
  have hsecond : second = (other.start limit).conclude _ := watch_start limit other acts
  rw [inner, Flow.course_exec_attach] at hfirst hsecond
  rw [hexec] at hsecond
  have hleave (st st' : Store (υ × ResultSet)) (hsame : st.detach.1 = st'.detach.1) :
      ((h.start limit).leave st).flow = ((other.start limit).leave st').flow := by
    simp only [leave, start, hsame]
    rw [hflow]
  rw [hfirst, hsecond]
  generalize (h.flow.exec limit).course (acts.map Act.aside) (h.store.attach .empty) = c
    at hmirrors ⊢
  generalize (h.flow.exec limit).course (acts.map Act.aside) (other.store.attach .empty) = c'
    at hmirrors ⊢
  cases hmirrors with
  | ended le hstores hpost _ =>
      obtain ⟨hst, hsame⟩ := hstores.detach
      exact ⟨congrArg Outcome.ended hpost, hleave _ _ hsame, _, le, hst⟩
  | unwound le hstores payload =>
      obtain ⟨hst, hsame⟩ := hstores.detach
      exact ⟨rfl, hleave _ _ hsame, _, le, hst⟩
  | pending le hstores drops =>
      obtain ⟨hst, hsame⟩ := (hstores.drop drops).detach
      exact ⟨rfl, hleave _ _ hsame, _, le, hst⟩
  | exhausted le hstores =>
      obtain ⟨hst, hsame⟩ := hstores.detach
      exact ⟨rfl, hleave _ _ hsame, _, le, hst⟩

end Host

/-- A chain whose action completes through its continuation, after a chain that yields a result. -/
def repeatedHost : Host Nat :=
  { store := { user := 0 }
    flow := { sequence := { items := [.chain (.single (.int 1)),
      ⟨.chain, [⟨.always, [.callback fun _ k => .settle k (.ok (.single (.int 3)))]⟩], true⟩] } } }

def repeatedOnce : Host Nat := ((repeatedHost.start 1).watch []).2

/-- Run once more, with four channels open and two results left, it comes to the same. -/
theorem results_of_this_run_again :
    repeatedOnce.store.channels.size = 4 ∧ repeatedOnce.flow.results = ⟨[.int 1, .int 3]⟩ ∧
      ((repeatedHost.start 1).watch []).1 = ((repeatedOnce.start 1).watch []).1 ∧
      repeatedOnce.flow = ((repeatedOnce.start 1).watch []).2.flow := by
  have uniform : repeatedHost.flow.Uniform (.equal Nat) .none := by
    refine ⟨fun step hstep => ?_, List.forall_mem_nil _⟩
    have hcases : step = .always ∨ step = .constant (.single (.int 1)) ∨ step = .always ∨
        step = .callback fun _ k => .settle k (.ok (.single (.int 3))) := by
      simpa [repeatedHost, Sequence.steps, Item.steps, Slot.steps, Item.chain, Slot.otherwise] using
        hstep
    rcases hcases with rfl | rfl | rfl | rfl
    · exact .sync fun _ _ _ => .done rfl
    · exact .sync fun _ _ _ => .done rfl
    · exact .sync fun _ _ _ => .done rfl
    · exact .callback fun _ _ _ _ _ pairs => .request (.settle pairs _) fun _ _ _ _ => .done rfl
  have hsize : repeatedOnce.store.channels.size = 4 := by decide +kernel
  have hflow : repeatedOnce.flow =
      { repeatedHost.flow with results := repeatedOnce.flow.results } := rfl
  have stores : repeatedHost.store.Mirrors (.equal Nat) repeatedHost.store.trace
      repeatedOnce.store.trace .none repeatedOnce.store :=
    Store.mirrors_none rfl ⟨rfl, rfl⟩ ⟨rfl, rfl⟩
  obtain ⟨houtcome, hlast, -⟩ := (Host.results_of_this_run 1 repeatedHost []).2 repeatedOnce _ _
    hflow uniform stores (List.forall_mem_nil _)
  exact ⟨hsize, rfl, houtcome, hlast⟩

end Stepwise
