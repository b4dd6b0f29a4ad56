import Stepwise.Host
import Stepwise.Proofs.Channels
import Stepwise.Proofs.Honesty
/-!
# Courses of a program

A course is what becomes of a program that is polled again and again while the outside world acts on
the store between the polls.  It follows the tree of the program.  Along every course an honest
program keeps to the channels that were opened, and to the waiting ends it holds.
-/

namespace Stepwise

variable {υ ρ α β : Type}

/-- What happens to the store between two polls. -/
abbrev Act (υ : Type) := Store υ → Store υ

/-- What polls and acts in turn come to.  A program that ended leaves the acts still to come. -/
inductive Course (υ α : Type) where
  | ended (store : Store υ) (value : α) (left : List (Act υ))
  | unwound (store : Store υ) (payload : Panic)
  | pending (store : Store υ) (rest : Parked υ α)
  | exhausted (store : Store υ)

/-- Waits until the channel is settled: what is found, the acts still to come, and the store then. -/
def Store.waitAmid (h : Handle) (acts : List (Act υ)) (st : Store υ) :
    Option (Settlement × List (Act υ)) × Store υ :=
  match st.settlement? h, acts with
  | some s, acts => (some (s, acts), st)
  | none, [] => (none, st.turn)
  | none, act :: acts => Store.waitAmid h acts (act st.turn)

section Waiting

variable {h : Handle} {st : Store υ}

theorem Store.waitAmid_of_settled {s : Settlement} (settled : st.settlement? h = some s)
    (acts : List (Act υ)) : st.waitAmid h acts = (some (s, acts), st) := by
  unfold waitAmid
  rw [settled]

theorem Store.waitAmid_of_unsettled (unsettled : st.settlement? h = none) (acts : List (Act υ)) :
    st.waitAmid h acts =
      match acts with
      | [] => (none, st.turn)
      | act :: acts => (act st.turn).waitAmid h acts := by
  cases acts <;> simp only [waitAmid, unsettled]

theorem Store.waitAmid_nil (unsettled : st.settlement? h = none) :
    st.waitAmid h [] = (none, st.turn) :=
  waitAmid_of_unsettled unsettled []

theorem Store.waitAmid_cons (unsettled : st.settlement? h = none) (act : Act υ)
    (acts : List (Act υ)) : st.waitAmid h (act :: acts) = (act st.turn).waitAmid h acts :=
  waitAmid_of_unsettled unsettled (act :: acts)

end Waiting

/-- Polls a program, and once more after every act until it ends.  A poll that is pending is followed
by a turn, and then by the act. -/
def Program.course (p : Suspending υ α) (acts : List (Act υ)) (st : Store υ) : Course υ α :=
  match p with
  | done value => .ended st value acts
  | panic payload => .unwound st payload
  | exhausted _ => .exhausted st
  | user update next => (next st.user).course acts { st with user := update st.user }
  | request spans q next => (next (st.answer spans q).1).course acts (st.answer spans q).2
  | pause _ onDrop next =>
      match acts with
      | [] => .pending st.turn ⟨next (), onDrop⟩
      | act :: acts => (next ()).course acts (act st.turn)
  | await may onDrop h next =>
      match st.waitAmid h acts with
      | (some (s, acts), st) => (next s).course acts st
      | (none, st) => .pending st ⟨await may onDrop h next, onDrop⟩

section Await

variable {may : Mode.suspending = .suspending} {onDrop : List Handle} {h : Handle}
  {s : Settlement} {next : Settlement → Suspending υ α} {acts : List (Act υ)} {st mid : Store υ}

theorem Program.course_await : (await may onDrop h next).course acts st =
    match st.waitAmid h acts with
    | (some (s, left), mid) => (next s).course left mid
    | (none, mid) => .pending mid ⟨await may onDrop h next, onDrop⟩ := by
  rcases hwait : st.waitAmid h acts with ⟨_ | ⟨s, left⟩, mid⟩ <;> simp only [course, hwait]

theorem Program.course_await_of_found {left : List (Act υ)}
    (found : st.waitAmid h acts = (some (s, left), mid)) :
    (await may onDrop h next).course acts st = (next s).course left mid := by
  rw [course_await, found]

theorem Program.course_await_of_unfound (unfound : st.waitAmid h acts = (none, mid)) :
    (await may onDrop h next).course acts st = .pending mid ⟨await may onDrop h next, onDrop⟩ := by
  rw [course_await, unfound]

theorem Program.course_await_of_settled (settled : st.settlement? h = some s)
    (acts : List (Act υ)) :
    (await may onDrop h next).course acts st = (next s).course acts st :=
  course_await_of_found (Store.waitAmid_of_settled settled acts)

theorem Program.course_await_nil (unsettled : st.settlement? h = none) :
    (await may onDrop h next).course [] st =
      .pending st.turn ⟨await may onDrop h next, onDrop⟩ :=
  course_await_of_unfound (Store.waitAmid_nil unsettled)

theorem Program.course_await_cons (unsettled : st.settlement? h = none) (act : Act υ) :
    (await may onDrop h next).course (act :: acts) st =
      (await may onDrop h next).course acts (act st.turn) := by
  rw [course_await, Store.waitAmid_cons unsettled, course_await]

end Await

/-- The course of a program that goes on where another one ended. -/
def Course.andThen (f : α → Suspending υ β) : Course υ α → Course υ β
  | ended st value left => (f value).course left st
  | unwound st payload => .unwound st payload
  | pending st rest => .pending st ⟨rest.program.bind f, rest.onDrop⟩
  | exhausted st => .exhausted st

theorem Program.course_bind (p : Suspending υ α) (f : α → Suspending υ β) (acts : List (Act υ))
    (st : Store υ) : (p.bind f).course acts st = (p.course acts st).andThen f := by
  induction p generalizing acts st with
  | done value => rfl
  | panic payload => rfl
  | exhausted may => rfl
  | user update next ih => exact ih _ _ _
  | request spans q next ih => exact ih _ _ _
  | pause may onDrop next ih =>
      cases acts with
      | nil => rfl
      | cons act acts => exact ih _ _ _
  | await may onDrop h next ih =>
      rcases hwait : st.waitAmid h acts with ⟨_ | ⟨s, left⟩, mid⟩
      · rw [course_await_of_unfound hwait]
        exact course_await_of_unfound hwait
      · rw [course_await_of_found hwait, ← ih]
        exact course_await_of_found hwait

/-- A course is a poll and, where that is pending, the course after the next act. -/
theorem Program.course_of_poll (p : Suspending υ α) (acts : List (Act υ)) (st : Store υ) :
    p.course acts st =
      match p.poll st, acts with
      | .done st value, acts => .ended st value acts
      | .panicked st payload, _ => .unwound st payload
      | .exhausted st, _ => .exhausted st
      | .pending st rest, [] => .pending st.turn rest
      | .pending st rest, act :: acts => rest.program.course acts (act st.turn) := by
  induction p generalizing st with
  | done value => rfl
  | panic payload => rfl
  | exhausted may => rfl
  | user update next ih => exact ih _ _
  | request spans q next ih => exact ih _ _
  | pause may onDrop next ih => cases acts <;> rfl
  | await may onDrop h next ih =>
      cases hsettled : st.settlement? h with
      | some s =>
          rw [course_await_of_settled hsettled, poll_await_of_settled hsettled]
          exact ih s st
      | none =>
          rw [poll_await_of_unsettled hsettled]
          cases acts with
          | nil => exact course_await_nil hsettled
          | cons act acts => exact course_await_cons hsettled act

/-- A plain function, as a part of a run, ends within the poll. -/
theorem Program.course_beside (p : Direct υ α) (acts : List (Act (υ × ρ))) (st : Store (υ × ρ)) :
    (p.relax.beside : Suspending (υ × ρ) α).course acts st =
      match p.run st.detach.2 with
      | (.ok a, last) => .ended (last.attach st.detach.1) a acts
      | (.error payload, last) => .unwound (last.attach st.detach.1) payload := by
  induction p generalizing st with
  | done value => rfl
  | panic payload => rfl
  | exhausted may => cases may
  | user update next ih => exact ih _ _
  | request spans q next ih =>
      obtain ⟨hreply, hstore⟩ := st.answer_attach spans q
      refine (ih _ _).trans ?_
      rw [hreply, hstore]
      rfl
  | pause may => cases may
  | await may => cases may

/-! ## Polling a host -/

/-- An act as a run sees it, which has the results beside the state of user code. -/
def Act.aside (act : Act υ) : Act (υ × ρ) := fun st => (act st.detach.2).attach st.detach.1

namespace Host

/-- The outside world acts on the store. -/
def act (f : Act υ) (h : Host υ) : Host υ := { h with store := f h.store }

/-- Polls the run in progress, and once more after every act until it ends.  A run that is pending
after all of them is dropped, and one that is exhausted is gone. -/
def watch (acts : List (Act υ)) (h : Host υ) : Outcome Completion × Host υ :=
  match h.resume 1 with
  | (some .pending, h) =>
      match h.run, acts with
      | none, _ => (.pending, h)
      | some _, [] => (.pending, h.drop)
      | some _, f :: acts => (h.act f).watch acts
  | (some outcome, h) => (outcome, h)
  | (none, h) => (.pending, h)

/-- What a host makes of the course of its run. -/
def conclude (h : Host υ) : Course (υ × ResultSet) Completion → Outcome Completion × Host υ
  | .ended st completion _ => (.ended completion, h.leave st)
  | .unwound st payload => (.unwound payload, h.leave st)
  | .pending st rest => (.pending, h.leave (rest.drop st))
  | .exhausted st => (.pending, h.leave st)

theorem watch_eq_course {h : Host υ} {run : Parked (υ × ResultSet) Completion}
    (hrun : h.run = some run) (acts : List (Act υ)) :
    h.watch acts = h.conclude (run.program.course (acts.map Act.aside) h.inner) := by
  induction acts generalizing h run with
  | nil =>
      rw [Program.course_of_poll]
      unfold watch resume
      simp only [hrun, Parked.advance, Parked.poll]
      cases run.program.poll h.inner <;> rfl
  | cons f acts ih =>
      rw [Program.course_of_poll]
      unfold watch resume
      simp only [hrun, Parked.advance, Parked.poll]
      cases run.program.poll h.inner with
      | done st completion => rfl
      | panicked st payload => rfl
      | exhausted st => rfl
      | pending st rest =>
          simp only [List.map_cons]
          exact ih rfl

theorem watch_start (limit : Nat) (h : Host υ) (acts : List (Act υ)) :
    (h.start limit).watch acts =
      (h.start limit).conclude ((h.flow.exec limit).course (acts.map Act.aside) h.inner) := by
  have hrun : (h.start limit).run = some (.fresh (h.flow.exec limit)) := rfl
  exact watch_eq_course hrun acts

/-- To poll a run so many times and drop it is to watch it without acts of the outside world. -/
theorem watch_of_resume {h last : Host υ} {run : Parked (υ × ResultSet) Completion} {polls : Nat}
    {outcome : Outcome Completion} (hrun : h.run = some run)
    (hresume : h.resume (polls + 1) = (some outcome, last)) :
    h.watch (List.replicate polls id) = (outcome, last.drop) := by
  induction polls generalizing h run with
  | zero =>
      unfold watch
      unfold resume at hresume ⊢
      simp only [hrun, Parked.advance] at hresume ⊢
      cases hpoll : run.poll h.inner <;> rw [hpoll] at hresume <;> cases hresume <;> rfl
  | succ polls ih =>
      unfold watch
      rw [List.replicate_succ]
      unfold resume at hresume ⊢
      simp only [hrun, Parked.advance] at hresume ⊢
      cases hpoll : run.poll h.inner with
      | done st completion =>
          rw [hpoll] at hresume
          cases hresume
          rfl
      | panicked st payload =>
          rw [hpoll] at hresume
          cases hresume
          rfl
      | exhausted st =>
          rw [hpoll] at hresume
          cases hresume
          rfl
      | pending st rest =>
          rw [hpoll] at hresume
          exact @ih { h.leave st.turn with run := some rest } rest rfl hresume

/-- Running a flow to its end is watching it so. -/
theorem exec_eq_watch (limit polls : Nat) (h : Host υ) :
    h.exec limit (polls + 1) = (h.start limit).watch (List.replicate polls id) := by
  have hrun : (h.start limit).run = some (.fresh (h.flow.exec limit)) := rfl
  unfold exec
  rcases hresume : (h.start limit).resume (polls + 1) with ⟨_ | outcome, last⟩
  · unfold resume at hresume
    simp only [hrun] at hresume
    cases hadvance : (Parked.fresh (h.flow.exec limit)).advance (h.start limit).inner (polls + 1)
    all_goals rw [hadvance] at hresume; cases hresume
  · exact (watch_of_resume hrun hresume).symm

end Host

/-! ## Honest courses -/

namespace Store

/-- The channels that were opened. -/
def opened (st : Store υ) : Set Handle := {h | h.id < st.channels.size}

/-- The state of user code keeps only channels that were opened. -/
def Sound (keeps : υ → Set Handle) (st : Store υ) : Prop := keeps st.user ⊆ st.opened

/-- The outside world neither makes up handles nor takes a waiting end away. -/
structure Lawful (keeps : υ → Set Handle) (act : Act υ) : Prop where
  sound : ∀ st, st.Sound keeps → (act st).Sound keeps
  opened : ∀ st, st.opened ⊆ (act st).opened
  waiting : ∀ st h, st.isWaiting h = true → (act st).isWaiting h = true

/-- The store is as an honest program may expect that knows some handles and holds some waiting
ends, none of which are of channels that are older than the program. -/
structure Serves (keeps : υ → Set Handle) (older known held : Set Handle) (st : Store υ) :
    Prop where
  user : keeps st.user ⊆ known
  known : known ⊆ st.opened
  waiting : ∀ h ∈ held, st.isWaiting h = true
  opened : older ⊆ st.opened
  apart : ∀ h ∈ held, h ∉ older

variable {keeps : υ → Set Handle} {older known held : Set Handle}

/-- A program that holds nothing yet may know every channel that was opened. -/
theorem Sound.serves {st : Store υ} (sound : st.Sound keeps) (holder : older ⊆ st.opened) :
    st.Serves keeps older st.opened ∅ :=
  ⟨sound, Set.Subset.refl _, fun _ hin => hin.elim, holder, fun _ hin => hin.elim⟩

theorem mem_opened_of_isWaiting {st : Store υ} {h : Handle} (hwaiting : st.isWaiting h = true) :
    h ∈ st.opened := by
  rw [isWaiting_eq_ears] at hwaiting
  by_cases hopen : h.id < st.ears.size
  · rwa [size_ears] at hopen
  · rw [Array.getElem?_eq_none (Nat.not_lt.1 hopen)] at hwaiting
    cases hwaiting

theorem Completes.opened {names : Set Handle} {st later : Store υ}
    (completes : Completes names st later) : later.opened = st.opened := by
  unfold Store.opened
  rw [completes.size]

theorem Completes.isWaiting {names : Set Handle} {st later : Store υ}
    (completes : Completes names st later) (h : Handle) : later.isWaiting h = st.isWaiting h := by
  rw [isWaiting_eq_ears, isWaiting_eq_ears, completes.ears]

theorem Serves.completes {names : Set Handle} {st later : Store υ}
    (serves : st.Serves keeps older known held) (completes : Completes names st later) :
    later.Serves keeps older known held where
  user := completes.user ▸ serves.user
  known := completes.opened ▸ serves.known
  waiting h hheld := (completes.isWaiting h).trans (serves.waiting h hheld)
  opened := completes.opened ▸ serves.opened
  apart := serves.apart

/-- After a pause more is known, and it serves on. -/
theorem Serves.lawful {st : Store υ} (serves : st.Serves keeps older known held) {act : Act υ}
    (lawful : Lawful keeps act) :
    known ⊆ (act st).opened ∧ (act st).Serves keeps older (act st).opened held := by
  refine ⟨serves.known.trans (lawful.opened st), ?_, Set.Subset.refl _, ?_,
    serves.opened.trans (lawful.opened st), serves.apart⟩
  · exact lawful.sound st (serves.user.trans serves.known)
  · exact fun h hheld => lawful.waiting st h (serves.waiting h hheld)

theorem isWaiting_openChannel (st : Store υ) (h : Handle)
    (hwaiting : h = st.openChannel.1 ∨ st.isWaiting h = true) :
    st.openChannel.2.isWaiting h = true := by
  unfold isWaiting
  rw [channel?_openChannel]
  by_cases hnew : h = st.openChannel.1
  · rw [if_pos hnew]
  · rw [if_neg hnew]
    exact hwaiting.resolve_left hnew

theorem isWaiting_deafen {st : Store υ} {h other : Handle} (hne : other ≠ h) :
    (st.deafen h).isWaiting other = st.isWaiting other := by
  unfold isWaiting
  rw [channel?_deafen, if_neg hne.symm]

theorem opened_deafen (st : Store υ) (h : Handle) : (st.deafen h).opened = st.opened := by
  unfold opened
  rw [← size_ears, ears_deafen, Array.size_modify, size_ears]

theorem opened_foldl_deafen (st : Store υ) (onDrop : List Handle) :
    (onDrop.foldl Store.deafen st).opened = st.opened := by
  induction onDrop generalizing st with
  | nil => rfl
  | cons h rest ih => exact (ih _).trans (st.opened_deafen h)

/-- What an honest program asks for leaves a store that serves it on. -/
theorem Serves.answer {st : Store υ} (serves : st.Serves keeps older known held)
    (spans : List Span) {q : Request} (permitted : q.Permitted known held) :
    q.Fresh held (st.answer spans q).1 ∧
      (st.answer spans q).2.Serves keeps older (q.learn known (st.answer spans q).1)
        (q.keep held (st.answer spans q).1) := by
  cases q with
  | openChannel =>
      have hopened : st.opened ⊆ st.openChannel.2.opened := by
        intro h hopen
        have hsize : st.openChannel.2.channels.size = st.channels.size + 1 := Array.size_push _
        have hid : h.id < st.channels.size := hopen
        have hlater : h.id < st.openChannel.2.channels.size := by omega
        exact hlater
      have hnew : st.openChannel.1 ∈ st.openChannel.2.opened :=
        mem_opened_of_isWaiting (st.isWaiting_openChannel _ (.inl rfl))
      refine ⟨fun hheld => ?_, ?_, ?_, ?_, serves.opened.trans hopened, ?_⟩
      · exact Nat.lt_irrefl _ (mem_opened_of_isWaiting (serves.waiting _ hheld))
      · exact serves.user.trans (Set.subset_insert _ _)
      · exact Set.insert_subset hnew (serves.known.trans hopened)
      · intro h hheld
        exact st.isWaiting_openChannel h (hheld.imp id (serves.waiting h))
      · rintro h (rfl | hheld) holder
        · exact Nat.lt_irrefl _ (serves.opened holder)
        · exact serves.apart h hheld holder
  | settle h s => exact ⟨trivial, serves.completes (st.completes_settle spans h s)⟩
  | discard h => exact ⟨trivial, serves.completes (st.completes_discard h)⟩
  | deafen h =>
      have hsize := st.opened_deafen h
      refine ⟨trivial, serves.user, hsize ▸ serves.known, ?_, hsize ▸ serves.opened, ?_⟩
      · exact fun other hother => (isWaiting_deafen hother.2).trans (serves.waiting other hother.1)
      · exact fun other hother => serves.apart other hother.1
  | isWaiting h => exact ⟨trivial, serves⟩
  | defer h s => exact ⟨trivial, { serves with user := serves.user }⟩
  | report notice => exact ⟨trivial, { serves with user := serves.user }⟩

/-- A channel stays as it is that a program neither knows nor holds. -/
theorem channel?_answer {st : Store υ} {h : Handle} (hopen : h ∈ st.opened) (hknown : h ∉ known)
    (hheld : h ∉ held) (spans : List Span) {q : Request} (permitted : q.Permitted known held) :
    (st.answer spans q).2.channel? h = st.channel? h ∧
      h ∉ q.learn known (st.answer spans q).1 ∧ h ∉ q.keep held (st.answer spans q).1 := by
  cases q with
  | openChannel =>
      have hne : h ≠ st.openChannel.1 := by
        rintro rfl
        exact Nat.lt_irrefl _ hopen
      refine ⟨?_, ?_, ?_⟩
      · exact (st.channel?_openChannel h).trans (if_neg hne)
      · exact fun hin => hin.elim hne hknown
      · exact fun hin => hin.elim hne hheld
  | settle other s =>
      have hne : h ≠ other := fun heq => hknown (heq ▸ permitted)
      exact ⟨(st.completes_settle spans other s).others h hne, hknown, hheld⟩
  | discard other =>
      have hne : h ≠ other := fun heq => hknown (heq ▸ permitted)
      exact ⟨(st.completes_discard other).others h hne, hknown, hheld⟩
  | deafen other =>
      have hne : other ≠ h := fun heq => hheld (heq ▸ permitted)
      exact ⟨(st.channel?_deafen other h).trans (if_neg hne), hknown, fun hin => hheld hin.1⟩
  | isWaiting other => exact ⟨rfl, hknown, hheld⟩
  | defer other s => exact ⟨rfl, hknown, hheld⟩
  | report notice => exact ⟨rfl, hknown, hheld⟩

/-- The outside world may complete through whatever handles. -/
theorem lawful_of_completes (keeps : υ → Set Handle) {act : Act υ}
    (completes : ∀ st, ∃ names, Completes names st (act st)) : Lawful keeps act where
  sound st sound := by
    obtain ⟨_, hcompletes⟩ := completes st
    unfold Sound
    rw [hcompletes.user, hcompletes.opened]
    exact sound
  opened st := by
    obtain ⟨_, hcompletes⟩ := completes st
    exact hcompletes.opened.symm.subset
  waiting st h hwaiting := by
    obtain ⟨_, hcompletes⟩ := completes st
    exact (hcompletes.isWaiting h).trans hwaiting

theorem Lawful.aside {act : Act υ} (lawful : Lawful keeps act) :
    Lawful (fun u : υ × ρ => keeps u.1) act.aside where
  sound st sound := lawful.sound st.detach.2 sound
  opened st := lawful.opened st.detach.2
  waiting st h hwaiting := lawful.waiting st.detach.2 h hwaiting

end Store

/-- What an honest program may have come to. -/
def Course.Abides (keeps : υ → Set Handle) (older lent : Set Handle) (post : α → Set Handle → Prop)
    (acts : List (Act υ)) : Course υ α → Prop
  | ended st value left => left ⊆ acts ∧ ∃ known, st.Serves keeps older known ∅ ∧ post value known
  | unwound st _ => ∃ known, st.Serves keeps older known ∅
  | pending st rest => ∃ known held, st.Serves keeps older known held ∧
      (∀ h, h ∈ rest.onDrop ↔ h ∈ held) ∧ ∀ more, known ⊆ more → rest.program.Honest keeps lent post more held
  | exhausted st => ∃ known held, st.Serves keeps older known held

theorem Course.Abides.mono {keeps : υ → Set Handle} {older lent : Set Handle}
    {post : α → Set Handle → Prop} {acts more : List (Act υ)} {c : Course υ α}
    (abides : c.Abides keeps older lent post acts) (subset : acts ⊆ more) :
    c.Abides keeps older lent post more := by
  cases c with
  | ended st value left => exact ⟨List.Subset.trans abides.1 subset, abides.2⟩
  | unwound st payload => exact abides
  | pending st rest => exact abides
  | exhausted st => exact abides

/-- An honest program stays honest on every course. -/
theorem Program.Honest.course {keeps : υ → Set Handle} {older lent known held : Set Handle}
    {post : α → Set Handle → Prop} {p : Suspending υ α}
    (honest : p.Honest keeps lent post known held) {acts : List (Act υ)}
    (lawful : ∀ act ∈ acts, Store.Lawful keeps act) {st : Store υ}
    (serves : st.Serves keeps older known held) :
    (p.course acts st).Abides keeps older lent post acts := by
  induction p generalizing known held acts st with
  | done value =>
      obtain ⟨rfl, hpost⟩ := honest
      exact ⟨List.Subset.refl _, known, serves, hpost⟩
  | panic payload =>
      obtain rfl : held = ∅ := honest
      exact ⟨known, serves⟩
  | exhausted may => exact ⟨known, held, serves⟩
  | user update next ih =>
      obtain ⟨hkeeps, hnext⟩ := honest st.user serves.user
      exact ih st.user hnext lawful { serves with user := hkeeps }
  | request spans q next ih =>
      obtain ⟨hfresh, hserves⟩ := serves.answer spans honest.1
      exact ih _ (honest.2 _ hfresh) lawful hserves
  | pause may onDrop next ih =>
      have hturn := serves.completes st.completes_turn
      cases acts with
      | nil => exact ⟨known, held, hturn, honest.1, honest.2⟩
      | cons act acts =>
          obtain ⟨hmore, hserves⟩ := hturn.lawful (lawful act List.mem_cons_self)
          have hrest := ih () (honest.2 _ hmore)
            (fun other hother => lawful other (List.mem_cons_of_mem _ hother)) hserves
          exact hrest.mono (List.subset_cons_self _ _)
  | await may onDrop h next ih =>
      induction acts generalizing st known with
      | nil =>
          cases hsettled : st.settlement? h with
          | some s =>
              rw [course_await_of_settled hsettled]
              exact ih s (honest.2.2 known s (Set.Subset.refl _)) lawful serves
          | none =>
              rw [course_await_nil hsettled]
              refine ⟨known, held, serves.completes st.completes_turn, honest.1, ?_⟩
              exact fun more hmore => ⟨honest.1, honest.2.1,
                fun last s hlast => honest.2.2 last s (hmore.trans hlast)⟩
      | cons act acts later =>
          cases hsettled : st.settlement? h with
          | some s =>
              rw [course_await_of_settled hsettled]
              exact ih s (honest.2.2 known s (Set.Subset.refl _)) lawful serves
          | none =>
              rw [course_await_cons hsettled]
              have hturn := serves.completes st.completes_turn
              obtain ⟨hmore, hserves⟩ := hturn.lawful (lawful act List.mem_cons_self)
              have honest' : (await may onDrop h next).Honest keeps lent post
                  (act st.turn).opened held := ⟨honest.1, honest.2.1,
                fun last s hlast => honest.2.2 last s (hmore.trans hlast)⟩
              have hrest := later honest'
                (fun other hother => lawful other (List.mem_cons_of_mem _ hother)) hserves
              exact hrest.mono (List.subset_cons_self _ _)

/-- An honest program that never suspends stays honest to its end. -/
theorem Program.Honest.run_ok {keeps : υ → Set Handle} {older known held : Set Handle}
    {post : α → Set Handle → Prop} {p : Direct υ α} (honest : p.Honest keeps ∅ post known held)
    {st last : Store υ} {value : α} (serves : st.Serves keeps older known held)
    (hrun : p.run st = (.ok value, last)) :
    ∃ known, last.Serves keeps older known ∅ ∧ post value known := by
  induction p generalizing known held st with
  | done result =>
      cases hrun
      obtain ⟨rfl, hpost⟩ := honest
      exact ⟨known, serves, hpost⟩
  | panic payload => cases hrun
  | exhausted may => cases may
  | user update next ih =>
      obtain ⟨hkeeps, hnext⟩ := honest st.user serves.user
      have hserves : Store.Serves keeps older known held { st with user := update st.user } :=
        { serves with user := hkeeps }
      exact ih st.user hnext hserves hrun
  | request spans q next ih =>
      obtain ⟨hfresh, hserves⟩ := serves.answer spans honest.1
      exact ih _ (honest.2 _ hfresh) hserves hrun
  | pause may => cases may
  | await may => cases may

end Stepwise
