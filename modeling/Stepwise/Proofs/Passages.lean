import Stepwise.Proofs.Account
import Stepwise.Proofs.Failing
/-!
# Passages of a run through its items

A run passes its items one after the other.  Its results are the first values of the outputs of the
items that it finished, in order, and it goes no further than an item that it does not finish.  In
an item that fails it goes no further than the invocation that failed.
-/

namespace Stepwise

variable {υ ρ α β : Type}

/-! ## Accounts of plans that pass errors on -/

/-- The invocation comes to an output. -/
def Entry.Succeeds (config : Config) (e : Entry υ) : Prop :=
  ∃ output, e.settlement? config = some (.ok output)

/-- What was done fails with the first invocation that fails, which is the last one made. -/
def Account.FailsFirst (config : Config) (a : Account υ (Except FlowError α)) : Prop :=
  match a.halt with
  | .ended _ (.ok _) _ => ∀ e ∈ a.entries, e.Succeeds config
  | .ended _ (.error error) _ => ∃ before last, a.entries = before ++ [last] ∧
      last.settlement? config = some (.error error) ∧ ∀ e ∈ before, e.Succeeds config
  | _ => True

/-- An invocation that succeeds may come first. -/
theorem Account.FailsFirst.cons {config : Config} {a : Account υ (Except FlowError α)} {e : Entry υ}
    (first : e.Succeeds config) (failsFirst : a.FailsFirst config) :
    { a with entries := e :: a.entries }.FailsFirst config := by
  obtain ⟨entries, results, ⟨st, _ | value, left⟩ | _ | _ | _⟩ := a
  · obtain ⟨before, last, rfl, hlast, hbefore⟩ := failsFirst
    exact ⟨e :: before, last, rfl, hlast, List.forall_mem_cons.2 ⟨first, hbefore⟩⟩
  · exact List.forall_mem_cons.2 ⟨first, failsFirst⟩
  · trivial
  · trivial
  · trivial

namespace Plan

/-- The account of a plan that begins with an invocation. -/
theorem account_invoke (config : Config) (spans : List Span) (step : Step υ) (args : Values)
    (next : Settlement → Plan υ α) (acts : List (Act υ)) (st : Store υ) (r : ResultSet) :
    let entry : Entry υ := ⟨⟨step, args⟩, spans, acts, st⟩
    (invoke spans step args next).account config acts st r =
      match entry.course config with
      | .ended mid s left =>
          let rest := (next s).account config left mid r
          { rest with entries := entry :: rest.entries }
      | .unwound mid payload => ⟨[entry], r, .unwound mid payload⟩
      | .pending mid rest => ⟨[entry], r, .pending mid rest.onDrop⟩
      | .exhausted mid => ⟨[entry], r, .exhausted mid⟩ := by
  intro entry
  simp only [account, Account.ofEntry, Account.andThen, entry]
  cases Entry.course config ⟨⟨step, args⟩, spans, acts, st⟩ <;> rfl

/-- The first invocation is in the account, and if it comes to a settlement then so are those that
follow. -/
theorem mem_account_invoke {config : Config} {spans : List Span} {step : Step υ} {args : Values}
    {next : Settlement → Plan υ α} {acts : List (Act υ)} {st : Store υ} {r : ResultSet}
    {entry : Entry υ} :
    entry ∈ ((invoke spans step args next).account config acts st r).entries ↔
      entry = ⟨⟨step, args⟩, spans, acts, st⟩ ∨ ∃ mid s left,
        Entry.course config ⟨⟨step, args⟩, spans, acts, st⟩ = .ended mid s left ∧
          entry ∈ ((next s).account config left mid r).entries := by
  rw [account_invoke]
  cases Entry.course config ⟨⟨step, args⟩, spans, acts, st⟩ with
  | ended mid s left =>
      refine List.mem_cons.trans (or_congr_right ⟨fun hmem => ⟨mid, s, left, rfl, hmem⟩, ?_⟩)
      rintro ⟨mid, s, left, hcourse, hmem⟩
      cases hcourse
      exact hmem
  | unwound mid payload => simp
  | pending mid rest => simp
  | exhausted mid => simp

theorem Fails.account {p : Plan υ (Except FlowError α)} {e : FlowError} (fails : p.Fails e)
    (config : Config) (acts : List (Act υ)) (st : Store υ) :
    ∃ last, ∀ r, p.account config acts st r = ⟨[], r, .ended last (.error e) acts⟩ := by
  induction p generalizing st with
  | done r =>
      obtain rfl : r = .error e := fails
      exact ⟨st, fun _ => rfl⟩
  | exhausted => exact fails.elim
  | report spans notice next ih => exact ih fails _
  | results update next ih => exact fails.elim
  | invoke spans step args next ih => exact fails.elim

/-- What is done does not depend on the results, which stay as they are. -/
theorem Strict.account {p : Plan υ (Except FlowError α)} (strict : p.Strict) (config : Config)
    (acts : List (Act υ)) (st : Store υ) (r : ResultSet) :
    p.account config acts st r =
      ⟨(p.account config acts st .empty).entries, r, (p.account config acts st .empty).halt⟩ := by
  induction p generalizing acts st with
  | done a => rfl
  | exhausted => rfl
  | report spans notice next ih => exact ih strict acts (st.report spans notice)
  | results update next ih => exact strict.elim
  | invoke spans step args next ih =>
      simp only [account_invoke]
      cases Entry.course config ⟨⟨step, args⟩, spans, acts, st⟩ with
      | ended mid s left =>
          cases s with
          | ok output => simp only [ih _ (strict.2 output) left mid]
          | error e =>
              obtain ⟨last, hlast⟩ := (strict.1 e).account config left mid
              simp only [hlast]
      | unwound mid payload => rfl
      | pending mid rest => rfl
      | exhausted mid => rfl

theorem Strict.failsFirst {p : Plan υ (Except FlowError α)} (strict : p.Strict) (config : Config)
    (acts : List (Act υ)) (st : Store υ) (r : ResultSet) :
    (p.account config acts st r).FailsFirst config := by
  induction p generalizing acts st with
  | done a =>
      obtain ⟨a, rfl⟩ := strict
      exact fun e he => nomatch he
  | exhausted => trivial
  | report spans notice next ih => exact ih strict acts (st.report spans notice)
  | results update next ih => exact strict.elim
  | invoke spans step args next ih =>
      rw [account_invoke]
      cases hcourse : Entry.course config ⟨⟨step, args⟩, spans, acts, st⟩ with
      | ended mid s left =>
          have hsettled : Entry.settlement? config ⟨⟨step, args⟩, spans, acts, st⟩ = some s := by
            unfold Entry.settlement?
            rw [hcourse]
            rfl
          cases s with
          | ok output => exact (ih _ (strict.2 output) left mid).cons ⟨output, hsettled⟩
          | error e =>
              obtain ⟨last, hlast⟩ := (strict.1 e).account config left mid
              simp only [hlast]
              exact ⟨[], _, rfl, hsettled, fun e he => nomatch he⟩
      | unwound mid payload => trivial
      | pending mid rest => trivial
      | exhausted mid => trivial

end Plan

/-! ## Passages -/

/-- What a run does in one item. -/
structure Passage (υ : Type) where
  item : Item υ
  /-- The invocations that it makes there. -/
  entries : List (Entry υ)
  course : Course υ (Except FlowError (Option Values))

namespace Passage

/-- The run finishes the item, whether or not there is an output. -/
def Finishes (p : Passage υ) : Prop := ∃ st output left, p.course = .ended st (.ok output) left

def FailsWith (p : Passage υ) (e : FlowError) : Prop :=
  ∃ st left, p.course = .ended st (.error e) left

/-- The result of an item that is finished: the first value of its output. -/
def value? (p : Passage υ) : Option Value :=
  match p.course with
  | .ended _ (.ok (some output)) _ => output.first?
  | _ => none

theorem filterMap_value?_cons (p : Passage υ) (ps : List (Passage υ)) :
    (p :: ps).filterMap value? = p.value?.toList ++ ps.filterMap value? := by
  cases hvalue : p.value? with
  | none => rw [List.filterMap_cons_none hvalue, Option.toList_none, List.nil_append]
  | some value =>
      rw [List.filterMap_cons_some hvalue, Option.toList_some, List.singleton_append]

theorem value?_of_failsWith {p : Passage υ} {e : FlowError} (fails : p.FailsWith e) :
    p.value? = none := by
  obtain ⟨st, left, hcourse⟩ := fails
  unfold value?
  rw [hcourse]

end Passage

/-- What a run does in an item that it comes to. -/
def Item.passage (limit : Nat) (config : Config) (spans : List Span) (acts : List (Act υ))
    (st : Store υ) (item : Item υ) : Passage υ where
  item := item
  entries := (((item.plan limit config).under spans).account config acts st .empty).entries
  course := ((item.run limit config).under spans).course acts st

/-- What a run does in items of which the first has the given index.  It comes to the next one if it
finishes the one before. -/
def passages (limit : Nat) (config : Config) (spans : List Span) (index : Nat) :
    List (Item υ) → List (Act υ) → Store υ → List (Passage υ)
  | [], _, _ => []
  | item :: rest, acts, st =>
      let passage := item.passage limit config (spans ++ [.item index item.kind]) acts st
      passage :: match passage.course with
        | .ended st (.ok _) left => passages limit config spans (index + 1) rest left st
        | _ => []

/-- A part of the engine comes, inside a run, as far as the account of its plan says. -/
theorem Program.halt_of_inside {config : Config} {p : Suspending υ (Except FlowError α)}
    {plan : Plan υ (Except FlowError α)} (hinside : p.inside [] = plan.toProgram config)
    (strict : plan.Strict) (spans : List Span) (acts : List (Act υ)) (st : Store υ) (r : ResultSet) :
    ((plan.under spans).account config acts st r).halt = ((p.under spans).course acts st).halt := by
  have haccount := (strict.under spans).account config acts st r
  have hhalt := Plan.halt_course config (plan.under spans) acts st r
  have hrun := (p.under spans).course_attach acts st r
  rw [Program.beside_under, ← List.append_nil spans, ← Program.under_inside, hinside,
    List.append_nil, ← Plan.toProgram_under] at hrun
  rw [hrun, Course.halt_beside] at hhalt
  rw [haccount] at hhalt ⊢
  exact (Halt.beside_injective r hhalt).symm

/-- The account of a run of an item is its passage, and the results stay as they are. -/
theorem Item.account_plan (limit : Nat) (config : Config) (spans : List Span) (item : Item υ)
    (acts : List (Act υ)) (st : Store υ) (r : ResultSet) :
    ((item.plan limit config).under spans).account config acts st r =
      ⟨(item.passage limit config spans acts st).entries, r,
        (item.passage limit config spans acts st).course.halt⟩ := by
  have strict := item.plan_strict limit config
  rw [(strict.under spans).account config acts st r,
    Program.halt_of_inside (item.run_inside limit config) strict spans acts st .empty]
  rfl

namespace Halt

/-- How far a run through items comes, in terms of its passages: it finishes all of them, or it
fails with the one that it comes to last. -/
def Passes (items : List (Item υ)) (ps : List (Passage υ)) :
    Halt υ (Except FlowError Unit) → Prop
  | ended _ (.ok ()) _ => ps.map Passage.item = items ∧ ∀ p ∈ ps, p.Finishes
  | ended _ (.error e) _ => ps.map Passage.item <+: items ∧ ∃ firsts failing,
      ps = firsts ++ [failing] ∧ (∀ p ∈ firsts, p.Finishes) ∧ failing.FailsWith e
  | _ => True

theorem Passes.cons {items : List (Item υ)} {ps : List (Passage υ)}
    {halt : Halt υ (Except FlowError Unit)} (passes : halt.Passes items ps) {p : Passage υ}
    (finishes : p.Finishes) : halt.Passes (p.item :: items) (p :: ps) := by
  obtain ⟨st, e | ⟨⟩, left⟩ | _ | _ | _ := halt
  · obtain ⟨hitems, firsts, failing, rfl, hfirsts, hfailing⟩ := passes
    exact ⟨(List.prefix_cons_inj _).2 hitems, p :: firsts, failing, rfl,
      List.forall_mem_cons.2 ⟨finishes, hfirsts⟩, hfailing⟩
  · obtain ⟨rfl, hall⟩ := passes
    exact ⟨rfl, List.forall_mem_cons.2 ⟨finishes, hall⟩⟩
  · trivial
  · trivial
  · trivial

end Halt

theorem ResultSet.toList_pushFirst (r : ResultSet) (output : Values) :
    (r.pushFirst output).toList = r.toList ++ output.first?.toList := by
  unfold pushFirst
  cases output.first? with
  | none => exact (List.append_nil _).symm
  | some value => rfl

/-- The results that are integers. -/
def ResultSet.ints (r : ResultSet) : List (Option Int) :=
  r.toList.map fun
    | .int n => some n
    | _ => none

theorem ResultSet.eq_of_ints {r : ResultSet} {ns : List Int} (hints : r.ints = ns.map some) :
    r = ⟨ns.map .int⟩ := by
  obtain ⟨values⟩ := r
  refine congrArg ResultSet.mk ?_
  induction values generalizing ns with
  | nil =>
      cases ns with
      | nil => rfl
      | cons n ns => cases hints
  | cons value values ih =>
      cases ns with
      | nil => cases hints
      | cons n ns =>
          obtain ⟨hvalue, hvalues⟩ := List.cons.inj hints
          cases value <;> cases hvalue
          rw [List.map_cons, ih hvalues]

/-- The account of a run through items is that of its passages. -/
theorem account_itemsPlan (limit : Nat) (config : Config) (spans : List Span) (index : Nat)
    (items : List (Item υ)) (acts : List (Act υ)) (st : Store υ) (r : ResultSet) :
    let a := ((itemsPlan limit config index items).under spans).account config acts st r
    let ps := passages limit config spans index items acts st
    a.entries = ps.flatMap Passage.entries ∧ a.results = ⟨r.toList ++ ps.filterMap Passage.value?⟩ ∧
      a.halt.Passes items ps := by
  induction items generalizing index acts st r with
  | nil =>
      refine ⟨rfl, ?_, rfl, List.forall_mem_nil _⟩
      simp [itemsPlan, Plan.under, Plan.account, passages]
  | cons item rest ih =>
      intro a ps
      have ha : a = _ := congrArg (fun p => Plan.account config p acts st r)
        (Plan.under_bind spans ((item.plan limit config).within (.item index item.kind)) _)
      rw [Plan.account_bind, Plan.under_within, Item.account_plan] at ha
      simp only [Account.andThen] at ha
      have hps : ps = passages limit config spans index (item :: rest) acts st := rfl
      rw [passages] at hps
      have hitem : (item.passage limit config (spans ++ [Span.item index item.kind]) acts st).item =
          item := rfl
      generalize item.passage limit config (spans ++ [Span.item index item.kind]) acts st = p at *
      subst hitem
      -- An item that is not finished ends the run and leaves no result.
      have hnothing (p : Passage υ) (hnone : p.value? = none) :
          r = ⟨r.toList ++ [p].filterMap Passage.value?⟩ := by
        rw [Passage.filterMap_value?_cons, hnone]
        simp
      obtain ⟨item, entries, ⟨mid, e | output, left⟩ | ⟨mid, payload⟩ | ⟨mid, part⟩ | mid⟩ := p
      · simp only [Course.halt, Plan.under, Plan.account, List.append_nil] at ha hps
        rw [ha, hps]
        refine ⟨by simp, hnothing _ rfl, ⟨rest, rfl⟩, [], _, rfl, List.forall_mem_nil _, ?_⟩
        exact ⟨mid, left, rfl⟩
      · have hfinishes : Passage.Finishes ⟨item, entries, .ended mid (.ok output) left⟩ :=
          ⟨mid, output, left, rfl⟩
        cases output with
        | none =>
            obtain ⟨hentries, hresults, hhalt⟩ := ih (index + 1) left mid r
            simp only [Course.halt] at ha hps
            rw [ha, hps]
            refine ⟨?_, ?_, hhalt.cons hfinishes⟩
            · simp only [hentries, List.flatMap_cons]
            · rw [Passage.filterMap_value?_cons]
              exact hresults
        | some output =>
            obtain ⟨hentries, hresults, hhalt⟩ := ih (index + 1) left mid (r.pushFirst output)
            simp only [Course.halt, Plan.under, Plan.account] at ha hps
            rw [ha, hps]
            refine ⟨?_, ?_, hhalt.cons hfinishes⟩
            · simp only [hentries, List.flatMap_cons]
            · rw [Passage.filterMap_value?_cons, ← List.append_assoc]
              rw [ResultSet.toList_pushFirst] at hresults
              exact hresults
      · simp only [Course.halt] at ha hps
        rw [ha, hps]
        exact ⟨by simp, hnothing _ rfl, trivial⟩
      · simp only [Course.halt] at ha hps
        rw [ha, hps]
        exact ⟨by simp, hnothing _ rfl, trivial⟩
      · simp only [Course.halt] at ha hps
        rw [ha, hps]
        exact ⟨by simp, hnothing _ rfl, trivial⟩

/-- In an item that fails nothing is invoked after the failure. -/
theorem failsFirst_of_mem_passages {limit : Nat} {config : Config} {spans : List Span} {index : Nat}
    {items : List (Item υ)} {acts : List (Act υ)} {st : Store υ} {p : Passage υ}
    (hmem : p ∈ passages limit config spans index items acts st) :
    Account.FailsFirst config ⟨p.entries, .empty, p.course.halt⟩ := by
  induction items generalizing index acts st with
  | nil => cases hmem
  | cons item rest ih =>
      rw [passages] at hmem
      rcases List.mem_cons.1 hmem with rfl | hmem
      · rw [← Item.account_plan]
        exact ((item.plan_strict limit config).under _).failsFirst config acts st .empty
      · split at hmem
        · exact ih hmem
        · cases hmem

/-! ## Runs of flows -/

namespace Scene

/-- What the run does in the items that it comes to. -/
def passages (S : Scene υ) : List (Passage υ) :=
  match S.flow.buildError with
  | some _ => []
  | none =>
      let spans := S.spans ++ [.flow S.flow.config.spanLabel]
      Stepwise.passages S.limit S.flow.config spans 0 S.flow.sequence.items S.acts
        (S.store.report spans (.flowStarted S.flow.sequence.length))

/-- How far a run comes, in terms of its passages. -/
def Concludes (S : Scene υ) : Halt υ Completion → Prop
  | .ended _ (.ok results) _ => S.flow.buildError = none ∧ results = S.account.results ∧
      S.passages.map Passage.item = S.flow.sequence.items ∧ ∀ p ∈ S.passages, p.Finishes
  | .ended _ (.error e) _ => (∃ error, S.flow.buildError = some error ∧ e = .build error) ∨
      S.flow.buildError = none ∧ S.passages.map Passage.item <+: S.flow.sequence.items ∧
        ∃ firsts failing, S.passages = firsts ++ [failing] ∧ (∀ p ∈ firsts, p.Finishes) ∧
          failing.FailsWith e
  | _ => True

/-- A flow that was declared wrongly is refused. -/
theorem account_refused {S : Scene υ} {error : BuildError} (hbuild : S.flow.buildError = some error) :
    S.account = ⟨[], .empty, .ended (S.store.report (S.spans ++ [Span.flow S.flow.config.spanLabel])
      (.refused error)) (.error (.build error)) S.acts⟩ := by
  unfold account Flow.plan
  rw [hbuild, Plan.within_eq_under]
  simp only [Plan.under, Plan.account, List.append_nil]

theorem passages_declared {S : Scene υ} (hbuild : S.flow.buildError = none) :
    let spans := S.spans ++ [Span.flow S.flow.config.spanLabel]
    S.passages = Stepwise.passages S.limit S.flow.config spans 0 S.flow.sequence.items S.acts
      (S.store.report spans (.flowStarted S.flow.sequence.length)) := by
  intro spans
  unfold passages
  rw [hbuild]

/-- A flow that was declared rightly runs through its items, and reports what that comes to. -/
theorem account_declared {S : Scene υ} (hbuild : S.flow.buildError = none) :
    let spans := S.spans ++ [Span.flow S.flow.config.spanLabel]
    S.account = (((itemsPlan S.limit S.flow.config 0 S.flow.sequence.items).under spans).account
      S.flow.config S.acts (S.store.report spans (.flowStarted S.flow.sequence.length))
        .empty).andThen fun outcome left st results =>
          match outcome with
          | .ok () => ⟨[], results, .ended (st.report spans (.flowCompleted results.length))
              (.ok results) left⟩
          | .error e => ⟨[], results, .ended (st.report spans (.flowFailed e)) (.error e) left⟩ := by
  intro spans
  unfold account Flow.plan
  rw [hbuild]
  simp only [Plan.under, Plan.account, Plan.under_within, Plan.under_bind, Plan.account_bind,
    List.append_nil]
  congr 1
  funext outcome left st results
  rcases outcome with e | ⟨⟩ <;> simp only [Plan.under, Plan.account, List.append_nil, id_eq, spans]

/-- The account of a run is that of its passages. -/
theorem account_passages (S : Scene υ) :
    S.entries = S.passages.flatMap Passage.entries ∧
      S.account.results = ⟨S.passages.filterMap Passage.value?⟩ ∧ S.Concludes S.account.halt := by
  cases hbuild : S.flow.buildError with
  | some error =>
      have hpassages : S.passages = [] := by
        unfold passages
        rw [hbuild]
      unfold entries
      rw [account_refused hbuild, hpassages]
      exact ⟨rfl, rfl, .inl ⟨error, hbuild, rfl⟩⟩
  | none =>
      have hpassages := passages_declared hbuild
      dsimp only at hpassages
      obtain ⟨hentries, hresults, hhalt⟩ := account_itemsPlan S.limit S.flow.config
        (S.spans ++ [Span.flow S.flow.config.spanLabel]) 0 S.flow.sequence.items S.acts
          (S.store.report (S.spans ++ [Span.flow S.flow.config.spanLabel])
            (.flowStarted S.flow.sequence.length)) .empty
      rw [← hpassages] at hentries hresults hhalt
      have haccount := account_declared hbuild
      dsimp only at haccount
      generalize Plan.account S.flow.config
        (Plan.under (S.spans ++ [Span.flow S.flow.config.spanLabel])
          (itemsPlan S.limit S.flow.config 0 S.flow.sequence.items)) S.acts
          (S.store.report (S.spans ++ [Span.flow S.flow.config.spanLabel])
            (.flowStarted S.flow.sequence.length)) .empty = a at hentries hresults hhalt haccount
      obtain ⟨es, results, ⟨st, e | ⟨⟩, left⟩ | ⟨st, payload⟩ | ⟨st, onDrop⟩ | st⟩ := a
      all_goals
        simp only [Account.andThen, List.append_nil] at haccount
        unfold entries
        rw [haccount]
        refine ⟨hentries, hresults, ?_⟩
      · exact .inr ⟨hbuild, hhalt⟩
      · exact ⟨hbuild, (congrArg Account.results haccount).symm, hhalt⟩
      · trivial
      · trivial
      · trivial

end Scene

end Stepwise
