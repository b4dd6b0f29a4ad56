import Stepwise.Proofs.Frame
import Stepwise.Proofs.Position
/-!
# Interleavings

Between the polls of a run the outside world uses continuations that were handed out, drops the run
and starts others.  Whatever the order, the run in progress holds waiting ends of its own only, and
is at a position of its plan.  It goes on with what is sent to the continuation it waits for, and a
use of any other continuation makes no difference to it.
-/

namespace Stepwise

variable {υ ρ α : Type}

/-! ## Using a continuation -/

/-- What can be done with a continuation: to settle it, or to drop it. -/
inductive Use where
  | settle (s : Settlement)
  | discard

/-- What whoever waits finds. -/
def Use.settlement : Use → Settlement
  | settle s => s
  | discard => .error .abandoned

namespace Store

def use (st : Store υ) (h : Handle) : Use → Store υ
  | .settle s => st.settle [] h s
  | .discard => st.discard h

theorem completes_use (st : Store υ) (h : Handle) (u : Use) : Completes {h} st (st.use h u) := by
  cases u with
  | settle s => exact st.completes_settle [] h s
  | discard => exact st.completes_discard h

@[simp] theorem due_use (st : Store υ) (h : Handle) (u : Use) : (st.use h u).due = st.due := by
  cases u with
  | settle s => exact st.due_settle [] h s
  | discard => exact st.due_discard h

@[simp] theorem deferred_use (st : Store υ) (h : Handle) (u : Use) :
    (st.use h u).deferred = st.deferred := by
  cases u with
  | settle s => exact st.deferred_settle [] h s
  | discard => exact st.deferred_discard h

theorem SameFor.use {held : Set Handle} {st other : Store υ} (same : st.SameFor held other)
    (h : Handle) (u : Use) : (st.use h u).SameFor held (other.use h u) := by
  cases u with
  | settle s => exact same.settle [] h s
  | discard => exact same.discard h

/-- The first use of a continuation is what is found. -/
theorem settlement?_use_held {st : Store υ} {h : Handle} (hwaiting : st.isWaiting h = true)
    (hopen : st.settlement? h = none) (u : Use) :
    (st.use h u).settlement? h = some u.settlement := by
  have hheld : st.channel? h = some ⟨.held, true⟩ := by
    unfold isWaiting at hwaiting
    unfold settlement? at hopen
    split at hwaiting
    · rename_i channel hchannel
      obtain ⟨sender, waiting⟩ := channel
      obtain rfl : waiting = true := hwaiting
      rw [hchannel] at hopen ⊢
      cases sender with
      | held => rfl
      | sent s => cases hopen
      | dropped => cases hopen
    · cases hwaiting
  cases u with
  | settle s => exact settlement?_settle_held s [] hheld
  | discard =>
      unfold use settlement?
      rw [channel?_discard, hheld]
      rfl

/-- Further uses of it have no effect. -/
theorem settlement?_use_of_some {st : Store υ} {h : Handle} {s : Settlement}
    (hsettled : st.settlement? h = some s) (other : Handle) (u : Use) :
    (st.use other u).settlement? h = some s := by
  by_cases heq : h = other
  · have hused : st.use other u = st := by
      unfold settlement? at hsettled
      subst heq
      cases hchannel : st.channel? h with
      | none =>
          rw [hchannel] at hsettled
          cases hsettled
      | some channel =>
          obtain ⟨sender, waiting⟩ := channel
          rw [hchannel] at hsettled
          cases sender with
          | held => cases hsettled
          | sent _ => cases u <;> simp only [use, settle, discard, hchannel]
          | dropped => cases u <;> simp only [use, settle, discard, hchannel]
    rw [hused, hsettled]
  · unfold settlement?
    rw [(st.completes_use other u).others h heq]
    exact hsettled

end Store

/-! ## Moves -/

inductive Move where
  | poll
  /-- Drops the run in progress and starts another one. -/
  | start (limit : Nat)
  | drop
  | use (h : Handle) (u : Use)

namespace Host

/-- Makes a move.  A poll has an outcome if a run is in progress. -/
def move (h : Host υ) : Move → Option (Outcome Completion) × Host υ
  | .poll => h.resume 1
  | .start limit => (none, h.drop.start limit)
  | .drop => (none, h.drop)
  | .use k u => (none, { h with store := h.store.use k u })

/-- Makes moves in order, and lists what they came to. -/
def play : List Move → Host υ → List (Option (Outcome Completion)) × Host υ
  | [], h => ([], h)
  | m :: moves, h => ((h.move m).1 :: ((h.move m).2.play moves).1, ((h.move m).2.play moves).2)

/-- The waiting ends that go away with the run in progress. -/
def holds (h : Host υ) : Set Handle :=
  match h.run with
  | none => ∅
  | some run => {k | k ∈ run.onDrop}

theorem holds_of_run {h : Host υ} {run : Parked (υ × ResultSet) Completion}
    (hrun : h.run = some run) : h.holds = {k | k ∈ run.onDrop} := by
  unfold holds
  rw [hrun]

/-- What a host makes of the course of its run in one poll. -/
def polled (h : Host υ) :
    Course (υ × ResultSet) Completion → Option (Outcome Completion) × Host υ
  | .ended st completion _ => (some (.ended completion), h.leave st)
  | .unwound st payload => (some (.unwound payload), h.leave st)
  | .pending st rest => (some .pending, { h.leave st with run := some rest })
  | .exhausted st => (some .pending, h.leave st)

theorem resume_one {h : Host υ} {run : Parked (υ × ResultSet) Completion}
    (hrun : h.run = some run) : h.resume 1 = h.polled (run.program.course [] h.inner) := by
  rw [Program.course_of_poll]
  unfold resume
  simp only [hrun, Parked.advance, Parked.poll]
  cases run.program.poll h.inner <;> rfl

/-- A poll goes on with the settlement of the channel that the run waits on. -/
theorem resume_settled {h : Host υ} {may : Mode.suspending = .suspending}
    {onDrop dropped : List Handle} {k : Handle} {next : Settlement → Suspending (υ × ResultSet) Completion}
    (hrun : h.run = some ⟨.await may onDrop k next, dropped⟩) {s : Settlement}
    (hsettled : h.store.settlement? k = some s) :
    h.resume 1 = { h with run := some ⟨next s, dropped⟩ }.resume 1 := by
  have hinner : h.inner.settlement? k = some s := hsettled
  rw [resume_one hrun, resume_one rfl]
  exact congrArg h.polled (Program.course_await_of_settled hinner [])

/-- And it goes on waiting as long as there is none. -/
theorem resume_unsettled {h : Host υ} {may : Mode.suspending = .suspending}
    {onDrop dropped : List Handle} {k : Handle}
    {next : Settlement → Suspending (υ × ResultSet) Completion}
    (hrun : h.run = some ⟨.await may onDrop k next, dropped⟩)
    (hopen : h.store.settlement? k = none) :
    h.resume 1 = (some .pending,
      { h with store := h.store.turn, run := some ⟨.await may onDrop k next, onDrop⟩ }) := by
  have hinner : h.inner.settlement? k = none := hopen
  have hturn : h.inner.turn = h.store.turn.attach h.flow.results := h.store.turn_attach _
  unfold resume
  simp only [hrun, Parked.advance, Parked.poll, Program.poll, hinner, hturn]
  rfl

end Host

/-! ## Order under any moves -/

section

variable {keeps : υ → Set Handle} {older known held : Set Handle}

namespace Store

/-- A store serves a program that knows every channel. -/
theorem Serves.all {st : Store υ} (serves : st.Serves keeps older known held) :
    st.Serves keeps older st.opened held :=
  { serves with user := serves.user.trans serves.known, known := Set.Subset.refl _ }

theorem Serves.attach {st : Store υ} (serves : st.Serves keeps older known held) (r : ρ) :
    (st.attach r).Serves (fun u => keeps u.1) older known held :=
  ⟨serves.user, serves.known, serves.waiting, serves.opened, serves.apart⟩

theorem Serves.detach {st : Store (υ × ρ)}
    (serves : st.Serves (fun u => keeps u.1) older known held) :
    st.detach.2.Serves keeps older known held :=
  ⟨serves.user, serves.known, serves.waiting, serves.opened, serves.apart⟩

/-- It goes on serving a program that is gone, with its waiting ends. -/
theorem Serves.drop {st : Store υ} (serves : st.Serves keeps older known held)
    (onDrop : List Handle) : (onDrop.foldl Store.deafen st).Serves keeps older known ∅ := by
  induction onDrop generalizing st held with
  | nil => exact { serves with waiting := fun _ hin => hin.elim, apart := fun _ hin => hin.elim }
  | cons h rest ih =>
      have hdeaf : (st.deafen h).Serves keeps older known ∅ :=
        { user := serves.user
          known := st.opened_deafen h ▸ serves.known
          waiting := fun _ hin => hin.elim
          opened := st.opened_deafen h ▸ serves.opened
          apart := fun _ hin => hin.elim }
      exact ih hdeaf

theorem lawful_use (keeps : υ → Set Handle) (h : Handle) (u : Use) :
    Lawful keeps fun st => st.use h u :=
  lawful_of_completes keeps fun st => ⟨{h}, st.completes_use h u⟩

end Store

/-- The invariant of a host under any moves.  The run in progress is at some point of its flow, and
is honest about the waiting ends that go away with it; these are there, and none of them is of a
channel that is older than the run. -/
structure Host.Orderly (keeps : υ → Set Handle) (older : Set Handle) (h : Host υ) : Prop where
  honest : h.flow.Honest keeps
  serves : h.store.Serves keeps older h.store.opened h.holds
  run : ∀ run, h.run = some run →
    (∃ limit, run.At limit h.flow) ∧ ∀ more, h.store.opened ⊆ more →
      run.program.Honest (fun u => keeps u.1) ∅ anything more {k | k ∈ run.onDrop}

namespace Host

variable {h : Host υ}

/-- It holds where no run is in progress. -/
theorem orderly_of_idle (honest : h.flow.Honest keeps) (sound : h.store.Sound keeps)
    (holder : older ⊆ h.store.opened) (idle : h.run = none) : h.Orderly keeps older := by
  refine ⟨honest, ?_, fun run hrun => ?_⟩
  · unfold holds
    rw [idle]
    exact sound.serves holder
  · rw [idle] at hrun
    cases hrun

theorem Orderly.sound (orderly : h.Orderly keeps older) : h.store.Sound keeps :=
  orderly.serves.user

/-- It holds of a host after a run. -/
theorem Orderly.leave (orderly : h.Orderly keeps older) {st : Store (υ × ResultSet)}
    (serves : st.Serves (fun u => keeps u.1) older known held) : (h.leave st).Orderly keeps older :=
  orderly_of_idle ⟨orderly.honest.steps, orderly.honest.resolvers⟩
    (serves.user.trans serves.known) serves.opened rfl

theorem Orderly.drop (orderly : h.Orderly keeps older) : h.drop.Orderly keeps older := by
  unfold Host.drop
  cases hrun : h.run with
  | none => exact orderly
  | some run => exact orderly.leave ((orderly.serves.attach h.flow.results).drop run.onDrop)

/-- A run that starts holds nothing yet. -/
theorem holds_start (limit : Nat) (h : Host υ) : (h.start limit).holds = ∅ :=
  Set.eq_empty_of_forall_notMem fun _ hin => List.not_mem_nil hin

/-- The channels opened before are older than a run that starts now. -/
theorem Orderly.start (orderly : h.Orderly keeps older) {oldest : Set Handle}
    (holder : oldest ⊆ h.drop.store.opened) (limit : Nat) :
    (h.drop.start limit).Orderly keeps oldest := by
  have hdrop := orderly.drop
  refine ⟨hdrop.honest, ?_, fun run hrun => ?_⟩
  · rw [holds_start]
    exact hdrop.sound.serves holder
  · cases hrun
    refine ⟨⟨limit, .inl rfl⟩, fun more _ => ?_⟩
    have hnone : {k | k ∈ (Parked.fresh (h.drop.flow.exec limit)).onDrop} = ∅ :=
      h.drop.holds_start limit
    rw [hnone]
    exact hdrop.honest.exec limit more

/-- What a run that is pending leaves. -/
theorem Orderly.suspend (orderly : h.Orderly keeps older) {st : Store (υ × ResultSet)}
    {rest : Parked (υ × ResultSet) Completion}
    (serves : st.Serves (fun u => keeps u.1) older known held)
    (hdrop : ∀ k, k ∈ rest.onDrop ↔ k ∈ held)
    (honest : ∀ more, known ⊆ more →
      rest.program.Honest (fun u => keeps u.1) ∅ anything more held)
    {limit : Nat} (hat : rest.At limit h.flow) :
    { h.leave st with run := some rest }.Orderly keeps older := by
  have hheld : {k | k ∈ rest.onDrop} = held := Set.ext hdrop
  refine ⟨⟨orderly.honest.steps, orderly.honest.resolvers⟩, ?_, fun run hrun => ?_⟩
  · have hholds : { h.leave st with run := some rest }.holds = held := hheld
    rw [hholds]
    exact serves.all.detach
  · cases hrun
    refine ⟨⟨limit, hat.with_results _⟩, fun more hmore => ?_⟩
    rw [hheld]
    exact honest more (serves.known.trans hmore)

theorem Orderly.resume (orderly : h.Orderly keeps older) : (h.resume 1).2.Orderly keeps older := by
  cases hrun : h.run with
  | none =>
      unfold Host.resume
      rw [hrun]
      exact orderly
  | some run =>
      obtain ⟨⟨limit, hat⟩, hhonest⟩ := orderly.run run hrun
      have hserves := orderly.serves.attach h.flow.results
      rw [holds_of_run hrun] at hserves
      have habides : (run.program.course [] h.inner).Abides (fun u => keeps u.1) older ∅ anything
          [] := (hhonest _ (Set.Subset.refl _)).course (fun _ hin => by cases hin) hserves
      have hcourse := run.program.course_of_poll [] h.inner
      rw [resume_one hrun]
      cases hpoll : run.program.poll h.inner with
      | done st completion =>
          rw [hpoll] at hcourse
          rw [hcourse] at habides ⊢
          obtain ⟨_, known, hafter, _⟩ := habides
          exact orderly.leave hafter
      | panicked st payload =>
          rw [hpoll] at hcourse
          rw [hcourse] at habides ⊢
          obtain ⟨known, hafter⟩ := habides
          exact orderly.leave hafter
      | exhausted st =>
          rw [hpoll] at hcourse
          rw [hcourse] at habides ⊢
          obtain ⟨known, held, hafter⟩ := habides
          exact orderly.leave hafter
      | pending st rest =>
          rw [hpoll] at hcourse
          rw [hcourse] at habides ⊢
          obtain ⟨known, held, hafter, hdrop, hrest⟩ := habides
          exact orderly.suspend hafter hdrop hrest (hat.poll hpoll)

theorem Orderly.use (orderly : h.Orderly keeps older) (k : Handle) (u : Use) :
    { h with store := h.store.use k u }.Orderly keeps older := by
  have hlawful := Store.lawful_use keeps k u
  refine ⟨orderly.honest, (orderly.serves.lawful hlawful).2, fun run hrun => ?_⟩
  obtain ⟨hat, hhonest⟩ := orderly.run run hrun
  exact ⟨hat, fun more hmore => hhonest more ((hlawful.opened h.store).trans hmore)⟩

theorem Orderly.move (orderly : h.Orderly keeps older) (m : Move) :
    (h.move m).2.Orderly keeps older := by
  cases m with
  | poll => exact orderly.resume
  | start limit => exact orderly.start orderly.drop.serves.opened limit
  | drop => exact orderly.drop
  | use k u => exact orderly.use k u

theorem Orderly.play (orderly : h.Orderly keeps older) (moves : List Move) :
    (h.play moves).2.Orderly keeps older := by
  induction moves generalizing h with
  | nil => exact orderly
  | cons m moves ih => exact ih (orderly.move m)

end Host

/-! ## Uses that make no difference -/

namespace Store

variable {st other : Store υ}

theorem SameFor.attach (same : st.SameFor held other) (r : ρ) :
    (st.attach r).SameFor held (other.attach r) :=
  { same with user := congrArg (·, r) same.user }

theorem SameFor.detach {st other : Store (υ × ρ)} (same : st.SameFor held other) :
    st.detach.2.SameFor held other.detach.2 :=
  { same with user := congrArg Prod.fst same.user }

theorem SameFor.drop (same : st.SameFor held other) (onDrop : List Handle) :
    (onDrop.foldl Store.deafen st).SameFor held (onDrop.foldl Store.deafen other) := by
  induction onDrop generalizing st other with
  | nil => exact same
  | cons h rest ih => exact ih (same.deafen h)

end Store

/-- Two hosts that are the same but for channels that the run in progress does not hold. -/
structure Host.Alike (h other : Host υ) : Prop where
  flow : h.flow = other.flow
  run : h.run = other.run
  store : h.store.SameFor h.holds other.store

namespace Host

variable {h other : Host υ}

theorem Alike.leave (alike : h.Alike other) {st st' : Store (υ × ResultSet)}
    (same : st.SameFor ∅ st') : (h.leave st).Alike (other.leave st') := by
  have hresults : st.detach.1 = st'.detach.1 := congrArg Prod.snd same.user
  refine ⟨?_, rfl, same.detach⟩
  unfold Host.leave
  rw [alike.flow, hresults]

theorem Alike.drop (alike : h.Alike other) : h.drop.Alike other.drop := by
  have hrun := alike.run
  unfold Host.drop
  rw [← hrun]
  cases h.run with
  | none => exact alike
  | some run =>
      have hinner : h.inner.SameFor ∅ other.inner := by
        unfold inner
        rw [← alike.flow]
        exact (alike.store.mono (Set.empty_subset _)).attach _
      exact alike.leave (hinner.drop run.onDrop)

theorem Alike.start (alike : h.Alike other) (limit : Nat) :
    (h.start limit).Alike (other.start limit) := by
  refine ⟨alike.flow, ?_, ?_⟩
  · unfold Host.start
    rw [alike.flow]
  · rw [holds_start]
    exact alike.store.mono (Set.empty_subset _)

theorem Alike.resume (alike : h.Alike other) (orderly : h.Orderly keeps older) :
    (h.resume 1).1 = (other.resume 1).1 ∧ (h.resume 1).2.Alike (other.resume 1).2 := by
  cases hrun : h.run with
  | none =>
      have hother : other.run = none := alike.run ▸ hrun
      unfold Host.resume
      rw [hrun, hother]
      exact ⟨rfl, alike⟩
  | some run =>
      have hother : other.run = some run := alike.run ▸ hrun
      have hserves := orderly.serves.attach h.flow.results
      have hinner : h.inner.SameFor {k | k ∈ run.onDrop} other.inner := by
        unfold inner
        rw [← alike.flow, ← holds_of_run hrun]
        exact alike.store.attach _
      rw [holds_of_run hrun] at hserves
      have hsame : (run.program.course [] h.inner).Same (run.program.course [] other.inner) :=
        ((orderly.run run hrun).2 _ (Set.Subset.refl _)).same hserves hinner
      rw [resume_one hrun, resume_one hother]
      cases hcourse : run.program.course [] h.inner with
      | ended st completion left =>
          rw [hcourse] at hsame
          obtain ⟨st', hother', hafter⟩ := hsame
          rw [hother']
          exact ⟨rfl, alike.leave hafter⟩
      | unwound st payload =>
          rw [hcourse] at hsame
          obtain ⟨st', hother', hafter⟩ := hsame
          rw [hother']
          exact ⟨rfl, alike.leave hafter⟩
      | exhausted st =>
          rw [hcourse] at hsame
          obtain ⟨st', hother', hafter⟩ := hsame
          rw [hother']
          exact ⟨rfl, alike.leave hafter⟩
      | pending st rest =>
          rw [hcourse] at hsame
          obtain ⟨st', hother', hafter⟩ := hsame
          rw [hother']
          have hleave := alike.leave (hafter.mono (Set.empty_subset _))
          exact ⟨rfl, hleave.flow, rfl, hafter.detach⟩

theorem Alike.move (alike : h.Alike other) (orderly : h.Orderly keeps older) (m : Move) :
    (h.move m).1 = (other.move m).1 ∧ (h.move m).2.Alike (other.move m).2 := by
  cases m with
  | poll => exact alike.resume orderly
  | start limit => exact ⟨rfl, alike.drop.start limit⟩
  | drop => exact ⟨rfl, alike.drop⟩
  | use k u => exact ⟨rfl, alike.flow, alike.run, alike.store.use k u⟩

/-- They stay the same under any moves, which have the same outcomes. -/
theorem Alike.play (alike : h.Alike other) (orderly : h.Orderly keeps older) (moves : List Move) :
    (h.play moves).1 = (other.play moves).1 ∧ (h.play moves).2.Alike (other.play moves).2 := by
  induction moves generalizing h other with
  | nil => exact ⟨rfl, alike⟩
  | cons m moves ih =>
      obtain ⟨houtcome, hmoved⟩ := alike.move orderly m
      obtain ⟨hrest, hlast⟩ := ih hmoved (orderly.move m)
      refine ⟨?_, hlast⟩
      unfold Host.play
      rw [houtcome, hrest]

/-- The use of a continuation that the run does not wait for makes no other difference. -/
theorem alike_use {k : Handle} (hfree : k ∉ h.holds) (u : Use) :
    { h with store := h.store.use k u }.Alike h :=
  ⟨rfl, rfl, .of_completes (h.store.completes_use k u) (h.store.due_use k u)
    (h.store.deferred_use k u) hfree⟩

end Host

end

end Stepwise
