import Stepwise.Proofs.Retained
import Stepwise.Proofs.Untraced
/-!
# Sequences one after the other

To run a sequence that goes on as another one is to run the first and then, if it succeeds, the
second from where the first ended.  What a run does depends on the results that it begins with only
in that it adds its own to them.
-/

namespace Stepwise

variable {υ α β : Type}

/-- Goes on with a plan if there was no error. -/
def Plan.unlessError (p : Plan υ (Except FlowError Unit)) :
    Except FlowError Unit → Plan υ (Except FlowError Unit)
  | .ok () => p
  | .error e => .done (.error e)

theorem itemsPlan_append (limit : Nat) (config : Config) (index : Nat)
    (items others : List (Item υ)) :
    itemsPlan limit config index (items ++ others) =
      (itemsPlan limit config index items).bind
        (itemsPlan limit config (index + items.length) others).unlessError := by
  induction items generalizing index with
  | nil => rfl
  | cons item rest ih =>
      have hlength : index + (item :: rest).length = index + 1 + rest.length := by
        rw [List.length_cons]
        omega
      rw [List.cons_append, itemsPlan, itemsPlan, Plan.bind_assoc, hlength]
      congr 1
      funext r
      rcases r with e | _ | values
      · rfl
      · exact ih (index + 1)
      · simp only [Plan.bind, ih]

/-- Numbered otherwise, the items are the same but for their reports. -/
theorem silent_itemsPlan (limit : Nat) (config : Config) (index index' : Nat)
    (items : List (Item υ)) :
    (itemsPlan limit config index items).silent = (itemsPlan limit config index' items).silent := by
  induction items generalizing index index' with
  | nil => rfl
  | cons item rest ih =>
      simp only [itemsPlan, Plan.silent_bind, Plan.within_eq_under, Plan.silent_under]
      congr 1
      funext r
      rcases r with e | _ | values
      · rfl
      · exact ih _ _
      · simp only [Plan.silent, ih (index + 1) (index' + 1)]

namespace Sequence

instance : Append (Sequence υ) where
  append s t := { items := s.items ++ t.items }

/-- The account of running a sequence, which begins with the given results. -/
def account (limit : Nat) (config : Config) (s : Sequence υ) (acts : List (Act υ)) (st : Store υ)
    (r : ResultSet) : Account υ (Except FlowError Unit) :=
  (itemsPlan limit config 0 s.items).account config acts st r

/-- A sequence comes as far as its account says. -/
theorem halt_course (limit : Nat) (config : Config) (s : Sequence υ) (acts : List (Act υ))
    (st : Store υ) (r : ResultSet) :
    ((s.run limit config).course (acts.map Act.aside) (st.attach r)).halt =
      (s.account limit config acts st r).outer := by
  unfold run account
  rw [runItemsFrom_eq_plan]
  exact Plan.halt_course config _ acts st r

end Sequence

/-- What goes on with a sequence if there was no error. -/
def Account.followedBy (limit : Nat) (config : Config) (t : Sequence υ)
    (a : Account υ (Except FlowError Unit)) : Account υ (Except FlowError Unit) :=
  match a.halt with
  | .ended st (.ok ()) left =>
      let rest := t.account limit config left st a.results
      { rest with entries := a.entries ++ rest.entries }
  | _ => a

theorem Sequence.account_append (limit : Nat) (config : Config) (s t : Sequence υ)
    {acts : List (Act υ)} (blind : ∀ act ∈ acts, act.Blind) (st : Store υ) (r : ResultSet) :
    ((s ++ t).account limit config acts st r).untraced =
      ((s.account limit config acts st r).followedBy limit config t).untraced := by
  have hfollowed : (s.account limit config acts st r).followedBy limit config t =
      (s.account limit config acts st r).andThen fun outcome left mid results =>
        ((itemsPlan limit config 0 t.items).unlessError outcome).account config left mid
          results := by
    unfold Account.followedBy Account.andThen
    rcases s.account limit config acts st r with
      ⟨entries, results, ⟨mid, _ | ⟨⟩, left⟩ | _ | _ | _⟩ <;>
        simp [Plan.unlessError, Plan.account, account]
  have hwhole : (s ++ t).account limit config acts st r =
      (s.account limit config acts st r).andThen fun outcome left mid results =>
        ((itemsPlan limit config (0 + s.items.length) t.items).unlessError outcome).account config
          left mid results := by
    unfold account
    rw [← Plan.account_bind, ← itemsPlan_append]
    rfl
  rw [hfollowed, hwhole]
  refine Account.andThen_untraced rfl fun mid mid' outcome left hended hmid => ?_
  have hblind : ∀ act ∈ left, act.Blind := fun act hact =>
    blind act ((Plan.left_suffix hended).subset hact)
  cases outcome with
  | error e => simp only [Plan.unlessError, Plan.account, Account.untraced, Halt.untraced, hmid]
  | ok done =>
      have hfrom : (itemsPlan limit config (0 + s.items.length) t.items).silent =
          (itemsPlan limit config 0 t.items).silent := silent_itemsPlan limit config _ 0 t.items
      refine (Plan.account_silent config _ hblind hmid _).trans ?_
      simp only [Plan.unlessError, hfrom]
      exact (Plan.account_silent config _ hblind rfl _).symm


/-! ## Results -/

/-- The results that a run begins with make no difference to how far it comes. -/
theorem halt_account_itemsPlan (limit : Nat) (config : Config) (index : Nat) (items : List (Item υ))
    (acts : List (Act υ)) (st : Store υ) (r r' : ResultSet) :
    ((itemsPlan limit config index items).account config acts st r).halt =
      ((itemsPlan limit config index items).account config acts st r').halt := by
  induction items generalizing index acts st r r' with
  | nil => rfl
  | cons item rest ih =>
      simp only [itemsPlan, Plan.account_bind, Plan.within_eq_under, Item.account_plan]
      cases (item.passage limit config [.item index item.kind] acts st).course with
      | ended mid outcome left =>
          rcases outcome with e | _ | values
          · rfl
          · exact ih (index + 1) left mid r r'
          · exact ih (index + 1) left mid (r.pushFirst values) (r'.pushFirst values)
      | unwound mid payload => rfl
      | pending mid part => rfl
      | exhausted mid => rfl

/-- What a run does in the items of a sequence that it comes to. -/
def Sequence.passages (limit : Nat) (config : Config) (s : Sequence υ) (acts : List (Act υ))
    (st : Store υ) : List (Passage υ) :=
  Stepwise.passages limit config [] 0 s.items acts st

/-- The account of a sequence is that of its passages, with their results after those that it begins
with. -/
theorem Sequence.account_passages (limit : Nat) (config : Config) (s : Sequence υ)
    (acts : List (Act υ)) (st : Store υ) (r : ResultSet) :
    s.account limit config acts st r =
      ⟨(s.passages limit config acts st).flatMap Passage.entries,
        ⟨r.toList ++ (s.passages limit config acts st).filterMap Passage.value?⟩,
        (s.account limit config acts st .empty).halt⟩ := by
  obtain ⟨hentries, hresults, -⟩ := account_itemsPlan limit config [] 0 s.items acts st r
  rw [Plan.under_nil] at hentries hresults
  have hhalt := halt_account_itemsPlan limit config 0 s.items acts st r .empty
  unfold account passages
  rw [← hentries, ← hresults, ← hhalt]

/-! ## Runs of flows -/

/-- How far a run of a flow comes before its resolvers are told, if its sequence comes so far. -/
def Account.completion (a : Account υ (Except FlowError Unit)) : Halt υ Completion :=
  a.halt.map (Except.map fun () => a.results)

/-- Ends a run of a flow with the results that it has. -/
def Plan.conclude : Except FlowError Unit → Plan υ Completion
  | .ok () => .results id fun results => .done (.ok results)
  | .error e => .done (.error e)

theorem Flow.silent_plan (limit : Nat) {flow : Flow υ} (declared : flow.buildError = none) :
    (flow.plan limit).silent = .results (fun _ => .empty) fun _ =>
      (itemsPlan limit flow.config 0 flow.sequence.items).silent.bind Plan.conclude := by
  unfold plan
  rw [declared]
  simp only [Plan.silent, Plan.within_eq_under, Plan.silent_under, Plan.silent_bind]
  congr 1
  funext _
  congr 1
  funext outcome
  rcases outcome with e | ⟨⟩ <;> rfl

/-- A run of a flow does what a run of its sequence does that begins without results. -/
theorem Scene.account_untraced {S : Scene υ} (declared : S.flow.buildError = none)
    (blind : ∀ act ∈ S.acts, act.Blind) :
    let run := S.flow.sequence.account S.limit S.flow.config S.acts S.store .empty
    S.account.untraced = Account.untraced ⟨run.entries, run.results, run.completion⟩ := by
  intro run
  have hsilent := Plan.account_silent S.flow.config ((S.flow.plan S.limit).under S.spans) blind
    (rfl : S.store.untraced = S.store.untraced) S.flow.results
  rw [Plan.silent_under, Flow.silent_plan S.limit declared] at hsilent
  simp only [Plan.account, Plan.account_bind] at hsilent
  have hrun := Plan.account_silent S.flow.config
    (itemsPlan S.limit S.flow.config 0 S.flow.sequence.items) blind
    (rfl : S.store.untraced = S.store.untraced) .empty
  refine hsilent.trans ?_
  have hconclude : (run.andThen fun outcome left mid results =>
      (Plan.conclude outcome).account S.flow.config left mid results) =
        ⟨run.entries, run.results, run.completion⟩ := by
    rcases run with ⟨entries, results, ⟨mid, _ | ⟨⟩, left⟩ | _ | _ | _⟩ <;>
      simp [Account.andThen, Account.completion, Halt.map, Plan.conclude, Plan.account, Except.map]
  rw [← hconclude]
  refine Account.andThen_untraced hrun.symm fun mid mid' outcome left hended hmid => ?_
  cases outcome <;> simp only [Plan.conclude, Plan.account, Account.untraced, Halt.untraced, hmid]

theorem Store.drop_untraced (onDrop : List Handle) {st st' : Store υ}
    (hst : st.untraced = st'.untraced) :
    (onDrop.foldl Store.deafen st).untraced = (onDrop.foldl Store.deafen st').untraced := by
  induction onDrop generalizing st st' with
  | nil => exact hst
  | cons handle rest ih => exact ih (congrArg (Store.deafen · handle) hst)

namespace Host

/-- The host without the trace of its store. -/
def untraced (h : Host υ) : Host υ := { h with store := h.store.untraced }

theorem outcomeOf_untraced (h : Host υ) (results : ResultSet) {halt halt' : Halt υ Completion}
    (hhalt : halt.untraced = halt'.untraced) :
    (h.outcomeOf results halt).1 = (h.outcomeOf results halt').1 ∧
      (h.outcomeOf results halt).2.untraced = (h.outcomeOf results halt').2.untraced := by
  have hleave {st st' : Store υ} (hst : st.untraced = st'.untraced) :
      (h.leave (st.attach results)).untraced = (h.leave (st'.attach results)).untraced :=
    congrArg (fun st => { h.leave (st.attach results) with store := st }) hst
  cases halt <;> cases halt' <;>
    simp only [Halt.untraced, reduceCtorEq, Halt.ended.injEq, Halt.unwound.injEq,
      Halt.pending.injEq, Halt.exhausted.injEq] at hhalt
  · obtain ⟨hst, rfl, rfl⟩ := hhalt
    exact ⟨rfl, hleave hst⟩
  · obtain ⟨hst, rfl⟩ := hhalt
    exact ⟨rfl, hleave hst⟩
  · obtain ⟨hst, rfl⟩ := hhalt
    exact ⟨rfl, hleave (Store.drop_untraced _ hst)⟩
  · exact ⟨rfl, hleave hhalt⟩

end Host

/-- A run of two sequences, one after the other, does what a run of the first does and then, if that
succeeds, a run of the second from there: they make the same invocations at the same moments, come
equally far and have the same results.  A run has the results that it begins with, and then, in the
order of the items, at most one for each that it comes to, whatever it begins with and however it
ends.  To run a flow is to run its sequence without results and to tell the resolvers where it
ends. -/
theorem Sequence.runs_compose (limit : Nat) (config : Config) (s t : Sequence υ)
    {acts : List (Act υ)} (blind : ∀ act ∈ acts, act.Blind) (st : Store υ) (r : ResultSet) :
    let run := s.account limit config acts st
    let fresh := run .empty
    let ps := s.passages limit config acts st
    ((s.run limit config).course (acts.map Act.aside) (st.attach r)).halt = (run r).outer ∧
    ((s ++ t).account limit config acts st r).untraced =
      ((run r).followedBy limit config t).untraced ∧
    run r = { fresh with results := ⟨r.toList ++ fresh.results.toList⟩ } ∧
    (fresh.results = ⟨ps.filterMap Passage.value?⟩ ∧ ps.map Passage.item <+: s.items ∧
      ∀ p ∈ ps.dropLast, p.Finishes) ∧
    ∀ h : Host υ, h.store = st → h.flow.config = config → h.flow.sequence = s →
      h.flow.buildError = none →
        let exec := (h.start limit).watch acts
        let alone := h.outcomeOf fresh.results (fresh.completion.told [] h.flow.resolvers)
        exec.1 = alone.1 ∧ exec.2.untraced = alone.2.untraced := by
  intro run fresh ps
  have hrun : run r = _ := s.account_passages limit config acts st r
  have hfresh : fresh = _ := s.account_passages limit config acts st .empty
  have hentries : fresh.entries = ps.flatMap Passage.entries := congrArg Account.entries hfresh
  have hresults : fresh.results = ⟨ps.filterMap Passage.value?⟩ := congrArg Account.results hfresh
  refine ⟨s.halt_course limit config acts st r, s.account_append limit config t blind st r, ?_,
    ⟨hresults, passages_in_order limit config [] 0 s.items acts st⟩, ?_⟩
  · rw [hrun, hresults, hentries]
  · rintro h rfl rfl rfl declared exec alone
    have haccount : (h.scene limit acts).account.untraced =
        Account.untraced ⟨fresh.entries, fresh.results, fresh.completion⟩ :=
      (h.scene limit acts).account_untraced declared blind
    simp only [Account.untraced, Account.mk.injEq] at haccount
    obtain ⟨-, hleft, hhalt⟩ := haccount
    have hsame : exec = h.outcomeOf fresh.results (h.scene limit acts).halt := by
      rw [← hleft]
      exact h.watch_eq_halt limit acts
    rw [hsame]
    exact h.outcomeOf_untraced _ (Halt.told_untraced hhalt [] [] h.flow.resolvers)

/-- A chain, and a condition whose action is suspended once and reads the state then. -/
def suspendedSequence : Sequence Nat :=
  { items := [.chain (.single (.int 1)), ⟨.condition, [⟨.always, [.task fun _ =>
      .pause rfl [] fun _ => .user (· + 1) fun n => .done (.ok (.single (.int n)))]⟩], true⟩] }

/-- A chain that panics, between two that do not. -/
def tornSequence : Sequence Nat :=
  { items := [.chain (.single (.int 3)),
      ⟨.chain, [⟨.always, [.sync fun _ => .panic (.text "torn")]⟩], true⟩,
      .chain (.single (.int 4))] }

/-- The outside world counts on while a run is suspended. -/
def countOn : Act Nat := fun st => { st with user := st.user + 5 }

/-- The second sequence goes on from the store and the results that the first one leaves. -/
theorem runs_compose_torn :
    let st : Store Nat := { user := 2 }
    let first := suspendedSequence.account 1 {} [countOn] st ⟨[.int 0]⟩
    let whole := (suspendedSequence ++ tornSequence).account 1 {} [countOn] st ⟨[.int 0]⟩
    whole.untraced = (first.followedBy 1 {} tornSequence).untraced ∧
      first.results = ⟨[.int 0, .int 1, .int 7]⟩ ∧
      whole.results = ⟨[.int 0, .int 1, .int 7, .int 3]⟩ ∧ whole.entries.length = 8 := by
  intro st first whole
  have blind : ∀ act ∈ [countOn], act.Blind := by
    rintro act hact
    obtain rfl := List.mem_singleton.1 hact
    exact fun st st' hst => congrArg (fun st : Store Nat => { st with user := st.user + 5 }) hst
  have hcompose := (Sequence.runs_compose 1 {} suspendedSequence tornSequence blind st
    ⟨[.int 0]⟩).2.1
  have hfirst : first.results.ints = [0, 1, 7].map some := by decide +kernel
  have hwhole : whole.results.ints = [0, 1, 7, 3].map some := by decide +kernel
  have hcount : whole.entries.length = 8 := by decide +kernel
  exact ⟨hcompose, ResultSet.eq_of_ints hfirst, ResultSet.eq_of_ints hwhole, hcount⟩

end Stepwise
