import Stepwise.Proofs.Interleaving
/-!
# Strict sequencing

Under any order of moves a run invokes the steps of its plan one by one, and waits for one
settlement at a time.  That settlement is the first use of the continuation that it waits for, and
no other use makes a difference.
-/

namespace Stepwise

variable {υ : Type}

/-- What is left of a run that waits for the continuation of the invocation in progress: to drop the
waiting end, and to go on with the plan. -/
def Position.waiting (flow : Flow υ) (pos : Position υ) (k : Handle) :
    Suspending (υ × ResultSet) Completion :=
  .await rfl [k] k fun s => .request pos.spans (.deafen k) fun _ =>
    ((pos.next s).toProgram flow.config).bind flow.finish

/-- In a plain function or a callback a run is pending only because it waits. -/
theorem Position.On.waits {limit : Nat} {flow : Flow υ} {pos : Position υ}
    (on : Position.On limit flow pos) (hshape : pos.current.step.shape ≠ .future) :
    ∃ k, pos.program flow = pos.waiting flow k := by
  obtain ⟨k, hrest⟩ := Step.left_invoke hshape on.left
  refine ⟨k, ?_⟩
  rw [program, hrest]
  simp only [Program.settled, Program.closing, Program.inside, Program.bind, List.append_nil,
    List.nil_append, waiting]

namespace Host

/-- What strict sequencing means for a host, whatever became of it so far. -/
structure Sequenced (h : Host υ) : Prop where
  /-- The run in progress was not polled yet, or it is in one invocation, and those before it are
  settled.  A poll goes on with this one, and invokes another one each time one is settled. -/
  inOrder : ∀ run, h.run = some run → ∃ limit,
    (run.program = h.flow.exec limit ∧
      h.flow.OneByOne (h.flow.plan limit) h.inner (run.program.poll h.inner)) ∨
    ∃ pos, Position.On limit h.flow pos ∧ run.program = pos.program h.flow ∧
      pos.Proceeds h.flow h.inner ∧
      (pos.current.step.shape ≠ .future →
        ∃ k, run.program = pos.waiting h.flow k ∧ h.holds = {k})
  /-- The first use of the continuation that the run waits for is what the next poll goes on with,
  whatever is done with any continuation in between. -/
  delivered : ∀ may onDrop k next dropped, h.run = some ⟨.await may onDrop k next, dropped⟩ →
    h.store.settlement? k = none → ∀ (u : Use) (others : List (Handle × Use)),
      let told := (h.play (.use k u :: others.map fun other => .use other.1 other.2)).2
      told.resume 1 = { told with run := some ⟨next u.settlement, dropped⟩ }.resume 1
  /-- As long as there is none, a poll only takes a turn. -/
  waits : ∀ may onDrop k next dropped, h.run = some ⟨.await may onDrop k next, dropped⟩ →
    h.store.settlement? k = none → h.resume 1 = (some .pending,
      { h with store := h.store.turn, run := some ⟨.await may onDrop k next, onDrop⟩ })
  /-- The use of a continuation that the run does not hold the other end of makes no difference to
  what any moves come to. -/
  indifferent : ∀ k, k ∉ h.holds → ∀ (u : Use) (moves : List Move),
    let told := h.play (.use k u :: moves)
    let untold := h.play moves
    told.1 = none :: untold.1 ∧ told.2.run = untold.2.run ∧ told.2.flow = untold.2.flow ∧
      told.2.store.user = untold.2.store.user ∧ told.2.store.reports = untold.2.store.reports
  /-- The other ends of the continuations of an invocation that is over are gone. -/
  holding : ∀ k ∈ h.holds, h.store.isWaiting k = true
  /-- No run holds the other end of a continuation that is older. -/
  restarted : ∀ (limit : Nat) (moves : List Move), ∀ k ∈ h.store.opened,
    k ∉ (h.play (.start limit :: moves)).2.holds

variable {keeps : υ → Set Handle} {older : Set Handle} {h : Host υ}

theorem opened_drop (h : Host υ) : h.drop.store.opened = h.store.opened := by
  unfold Host.drop
  cases h.run with
  | none => rfl
  | some run => exact h.inner.opened_foldl_deafen run.onDrop

/-- Uses of continuations leave the run where it is, and what the first one told it. -/
theorem play_uses {run : Option (Parked (υ × ResultSet) Completion)} {k : Handle} {s : Settlement}
    (hrun : h.run = run) (hsettled : h.store.settlement? k = some s)
    (others : List (Handle × Use)) :
    (h.play (others.map fun other => .use other.1 other.2)).2.run = run ∧
      (h.play (others.map fun other => .use other.1 other.2)).2.store.settlement? k = some s := by
  induction others generalizing h with
  | nil => exact ⟨hrun, hsettled⟩
  | cons other others ih =>
      have hnext := Store.settlement?_use_of_some hsettled other.1 other.2
      exact @ih { h with store := h.store.use other.1 other.2 } hrun hnext

theorem Orderly.sequenced (orderly : h.Orderly keeps older) : h.Sequenced where
  inOrder run hrun := by
    obtain ⟨⟨limit, hat⟩, hhonest⟩ := orderly.run run hrun
    refine ⟨limit, ?_⟩
    rcases hat with hfresh | ⟨pos, hon, hprogram⟩
    · refine .inl ⟨hfresh, ?_⟩
      rw [hfresh, Flow.exec_eq_plan]
      exact (h.flow.plan limit).exists_settles h.flow.config h.flow.finish h.inner
    · refine .inr ⟨pos, hon, hprogram, pos.proceeds h.flow h.inner, fun hshape => ?_⟩
      obtain ⟨k, hwaiting⟩ := hon.waits hshape
      rw [← hprogram] at hwaiting
      refine ⟨k, hwaiting, ?_⟩
      have hawait := hhonest _ (Set.Subset.refl _)
      rw [hwaiting] at hawait
      rw [holds_of_run hrun]
      ext other
      exact (hawait.1 other).symm.trans List.mem_singleton
  delivered may onDrop k next dropped hrun hopen u others := by
    intro told
    have hawait := (orderly.run _ hrun).2 _ (Set.Subset.refl _)
    have hholds : k ∈ h.holds := by
      rw [holds_of_run hrun]
      exact hawait.2.1.resolve_right (Set.notMem_empty k)
    have hsettled := Store.settlement?_use_held (orderly.serves.waiting k hholds) hopen u
    obtain ⟨hrun', hsettled'⟩ :=
      @play_uses _ { h with store := h.store.use k u } _ k u.settlement hrun hsettled others
    exact resume_settled hrun' hsettled'
  waits may onDrop k next dropped hrun hopen := resume_unsettled hrun hopen
  indifferent k hfree u moves := by
    intro told untold
    obtain ⟨houtcomes, hlast⟩ := (alike_use hfree u).play (orderly.use k u) moves
    refine ⟨?_, hlast.run, hlast.flow, hlast.store.user, hlast.store.reports⟩
    exact congrArg (none :: ·) houtcomes
  holding := orderly.serves.waiting
  restarted limit moves k hopened hholds := by
    have hstart := orderly.start h.opened_drop.symm.subset limit
    exact (hstart.play moves).serves.apart k hholds hopened

/-- Runs are strictly sequenced, in whatever order they are polled, dropped and started, and
continuations are settled and dropped. -/
theorem strictly_sequenced (honest : h.flow.Honest keeps) (sound : h.store.Sound keeps)
    (idle : h.run = none) (moves : List Move) : (h.play moves).2.Sequenced :=
  ((orderly_of_idle honest sound (Set.empty_subset _) idle).play moves).sequenced

end Host

/-- A callback that hands its continuation out, and another chain after it. -/
def handingHost : Host (List Handle) :=
  { store := { user := [] }
    flow := { sequence := { items :=
      [⟨.chain, [⟨.always, [.callback fun _ k => .user (· ++ [k]) fun _ => .done ()]⟩], true⟩,
        .chain (.single (.int 1))] } } }

/-- The run that hands out the last continuation waits for it, and the one before is nobody's. -/
theorem strictly_sequenced_handing :
    let h := (handingHost.play [.start 1, .poll, .start 1, .poll]).2
    h.store.user = [⟨1⟩, ⟨3⟩] ∧ h.holds = {⟨3⟩} ∧ h.Sequenced := by
  intro h
  have hsteps : ∀ step ∈ handingHost.flow.sequence.steps, step.Honest fun u => {k | k ∈ u} := by
    intro step hstep
    have hcases : step = .always ∨
        step = .callback (fun _ k => .user (· ++ [k]) fun _ => .done ()) ∨ step = .always ∨
          step = .constant (.single (.int 1)) := by
      simpa [handingHost, Sequence.steps, Item.steps, Slot.steps, Item.chain, Slot.otherwise] using
        hstep
    rcases hcases with rfl | rfl | rfl | rfl
    · exact fun _ _ => ⟨rfl, trivial⟩
    · intro args done known hdone u hu
      refine ⟨fun k hk => ?_, rfl, trivial⟩
      rcases List.mem_append.1 hk with hkept | hnew
      · exact hu hkept
      · exact List.mem_singleton.1 hnew ▸ hdone
    · exact fun _ _ => ⟨rfl, trivial⟩
    · exact fun _ _ => ⟨rfl, trivial⟩
  have hsound : handingHost.store.Sound fun u => {k | k ∈ u} := fun k hk => nomatch hk
  have hsequenced := Host.strictly_sequenced ⟨hsteps, nofun⟩ hsound rfl
    [.start 1, .poll, .start 1, .poll]
  refine ⟨rfl, ?_, hsequenced⟩
  ext k
  exact List.mem_singleton

end Stepwise
