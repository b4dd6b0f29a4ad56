import Mathlib.Data.List.Forall2
import Mathlib.Order.Basic
import Stepwise.Program.Lemmas
import Stepwise.Proofs.StepMaps
/-!
# Mirrored programs

A handle is a plain value here, and a run that follows another one is given other handles than a run
on a fresh store.  Code that cannot look into a handle does the same on both: the two programs
mirror each other, up to a pairing of the handles of one store with those of the other.  What the
engine makes of mirrored steps is mirrored.  The second program may keep notes that the first one
does not.
-/

namespace Stepwise

variable {m : Mode} {υ υ' ρ ε α α' β β' : Type}

/-! ## Pairings -/

/-- Which handles of one store stand for which handles of another. -/
structure Pairing where
  Pairs : Handle → Handle → Prop
  right_unique : ∀ {h k k'}, Pairs h k → Pairs h k' → k = k'
  left_unique : ∀ {h h' k}, Pairs h k → Pairs h' k → h = h'

namespace Pairing

instance : Preorder Pairing where
  le R more := ∀ h k, R.Pairs h k → more.Pairs h k
  le_refl _ _ _ pairs := pairs
  le_trans _ _ _ first second h k pairs := second h k (first h k pairs)

/-- Every handle stands for itself. -/
def same : Pairing where
  Pairs := Eq
  right_unique first second := first.symm.trans second
  left_unique first second := first.trans second.symm

theorem eq_of_same_le {R : Pairing} (hsame : same ≤ R) {h k : Handle} (pairs : R.Pairs h k) :
    h = k :=
  R.left_unique pairs (hsame k k rfl)

/-- One more pair. -/
def extend (R : Pairing) (h k : Handle) (right : ∀ {k'}, R.Pairs h k' → k' = k)
    (left : ∀ {h'}, R.Pairs h' k → h' = h) : Pairing where
  Pairs a b := R.Pairs a b ∨ a = h ∧ b = k
  right_unique := by
    rintro a b b' (first | ⟨rfl, rfl⟩) (second | ⟨ha, rfl⟩)
    · exact R.right_unique first second
    · exact right (ha ▸ first)
    · exact (right second).symm
    · rfl
  left_unique := by
    rintro a a' b (first | ⟨rfl, rfl⟩) (second | ⟨rfl, hb⟩)
    · exact R.left_unique first second
    · exact left (hb ▸ first)
    · exact (left second).symm
    · rfl

end Pairing

/-- Which states of user code are alike, given which handles stand for which. -/
structure Likeness (υ υ' : Type) where
  Alike : Pairing → υ → υ' → Prop
  mono : ∀ {R more u u'}, R ≤ more → Alike R u u' → Alike more u u'

namespace Likeness

def equal (υ : Type) : Likeness υ υ where
  Alike _ := Eq
  mono _ alike := alike

/-- A second component of the state that is the same on both sides. -/
def beside (ρ : Type) (like : Likeness υ υ') : Likeness (υ × ρ) (υ' × ρ) where
  Alike R u u' := like.Alike R u.1 u'.1 ∧ u.2 = u'.2
  mono le alike := ⟨like.mono le alike.1, alike.2⟩

end Likeness

/-! ## Mirrored programs -/

/-- Mirrored requests, and what the pairing may be after a pair of replies. -/
inductive Request.Mirrors (R : Pairing) :
    (r r' : Request) → (r.Reply → r'.Reply → Pairing → Prop) → Prop where
  | openChannel :
      Mirrors R .openChannel .openChannel fun h k more => R ≤ more ∧ more.Pairs h k
  | settle {h k : Handle} (pairs : R.Pairs h k) (s : Settlement) :
      Mirrors R (.settle h s) (.settle k s) fun _ _ more => more = R
  | discard {h k : Handle} (pairs : R.Pairs h k) :
      Mirrors R (.discard h) (.discard k) fun _ _ more => more = R
  | deafen {h k : Handle} (pairs : R.Pairs h k) :
      Mirrors R (.deafen h) (.deafen k) fun _ _ more => more = R
  | isWaiting {h k : Handle} (pairs : R.Pairs h k) :
      Mirrors R (.isWaiting h) (.isWaiting k) fun b b' more => b = b' ∧ more = R
  | defer {h k : Handle} (pairs : R.Pairs h k) (s : Settlement) :
      Mirrors R (.defer h s) (.defer k s) fun _ _ more => more = R
  | report (notice : Notice) :
      Mirrors R (.report notice) (.report notice) fun _ _ more => more = R

theorem Request.Mirrors.le {R more : Pairing} {r r' : Request}
    {answered : r.Reply → r'.Reply → Pairing → Prop} (asked : r.Mirrors R r' answered) {x : r.Reply}
    {x' : r'.Reply} (hanswered : answered x x' more) : R ≤ more := by
  cases asked with
  | openChannel => exact hanswered.1
  | isWaiting pairs => exact hanswered.2.symm.le
  | settle pairs s => exact hanswered.symm.le
  | discard pairs => exact hanswered.symm.le
  | deafen pairs => exact hanswered.symm.le
  | defer pairs s => exact hanswered.symm.le
  | report notice => exact hanswered.symm.le

/-- Programs that do the same on states that are alike and handles that are paired, and return what
`post` says.  While they are suspended more handles may come to be paired. -/
inductive Program.Mirrors (like : Likeness υ υ') (post : α → α' → Pairing → Prop) :
    Program m υ α → Program m υ' α' → Pairing → Prop where
  | done {a : α} {a' : α'} {R : Pairing} (hpost : post a a' R) :
      Mirrors like post (.done a) (.done a') R
  | panic {R : Pairing} (payload : Panic) : Mirrors like post (.panic payload) (.panic payload) R
  | exhausted {R : Pairing} (may : m = .suspending) :
      Mirrors like post (.exhausted may) (.exhausted may) R
  | user {update : υ → υ} {update' : υ' → υ'} {next : υ → Program m υ α}
      {next' : υ' → Program m υ' α'} {R : Pairing}
      (step : ∀ u u', like.Alike R u u' → like.Alike R (update u) (update' u'))
      (rest : ∀ u u', like.Alike R u u' → Mirrors like post (next u) (next' u') R) :
      Mirrors like post (.user update next) (.user update' next') R
  | request {spans : List Span} {r r' : Request} {answered : r.Reply → r'.Reply → Pairing → Prop}
      {next : r.Reply → Program m υ α} {next' : r'.Reply → Program m υ' α'} {R : Pairing}
      (asked : r.Mirrors R r' answered)
      (rest : ∀ x x' more, answered x x' more → Mirrors like post (next x) (next' x') more) :
      Mirrors like post (.request spans r next) (.request spans r' next') R
  | pause {may : m = .suspending} {onDrop onDrop' : List Handle} {next : Unit → Program m υ α}
      {next' : Unit → Program m υ' α'} {R : Pairing} (drops : List.Forall₂ R.Pairs onDrop onDrop')
      (rest : ∀ more, R ≤ more → Mirrors like post (next ()) (next' ()) more) :
      Mirrors like post (.pause may onDrop next) (.pause may onDrop' next') R
  | await {may : m = .suspending} {onDrop onDrop' : List Handle} {h k : Handle}
      {next : Settlement → Program m υ α} {next' : Settlement → Program m υ' α'} {R : Pairing}
      (drops : List.Forall₂ R.Pairs onDrop onDrop') (pairs : R.Pairs h k)
      (rest : ∀ s more, R ≤ more → Mirrors like post (next s) (next' s) more) :
      Mirrors like post (.await may onDrop h next) (.await may onDrop' k next') R
  /-- A note that only the second program keeps. -/
  | note {p : Program m υ α} {update' : υ' → υ'} {next' : υ' → Program m υ' α'} {R : Pairing}
      (step : ∀ u u', like.Alike R u u' → like.Alike R u (update' u'))
      (rest : ∀ u', Mirrors like post p (next' u') R) : Mirrors like post p (.user update' next') R

/-- Both return the same. -/
def agreeing : α → α → Pairing → Prop := fun a a' _ => a = a'

/-- Both fail with the same, or both return what `post` says. -/
inductive Ends (post : α → α' → Pairing → Prop) : Except ε α → Except ε α' → Pairing → Prop where
  | ok {a : α} {a' : α'} {R : Pairing} (hpost : post a a' R) : Ends post (.ok a) (.ok a') R
  | error {R : Pairing} (e : ε) : Ends post (.error e) (.error e) R

namespace Program

variable {like : Likeness υ υ'} {post : α → α' → Pairing → Prop} {after : β → β' → Pairing → Prop}
  {R : Pairing}

theorem Mirrors.bind {p : Program m υ α} {p' : Program m υ' α'} {f : α → Program m υ β}
    {f' : α' → Program m υ' β'} (mirrors : p.Mirrors like post p' R)
    (rest : ∀ a a' more, R ≤ more → post a a' more → (f a).Mirrors like after (f' a') more) :
    (p.bind f).Mirrors like after (p'.bind f') R := by
  induction mirrors with
  | done hpost => exact rest _ _ _ le_rfl hpost
  | panic payload => exact .panic payload
  | exhausted may => exact .exhausted may
  | user step _ ih => exact .user step fun u u' alike => ih u u' alike rest
  | request asked _ ih =>
      exact .request asked fun x x' more hanswered => ih x x' more hanswered fun a a' last hlast =>
        rest a a' last ((asked.le hanswered).trans hlast)
  | pause drops _ ih =>
      exact .pause drops fun more hmore => ih more hmore fun a a' last hlast =>
        rest a a' last (hmore.trans hlast)
  | await drops pairs _ ih =>
      exact .await drops pairs fun s more hmore => ih s more hmore fun a a' last hlast =>
        rest a a' last (hmore.trans hlast)
  | note step _ ih => exact .note step fun u' => ih u' rest

theorem Mirrors.mono {p : Program m υ α} {p' : Program m υ' α'} {weaker : α → α' → Pairing → Prop}
    (mirrors : p.Mirrors like post p' R)
    (imp : ∀ a a' more, R ≤ more → post a a' more → weaker a a' more) :
    p.Mirrors like weaker p' R := by
  have hbind := mirrors.bind fun a a' more hmore hpost =>
    @Mirrors.done _ _ _ _ _ like weaker a a' more (imp a a' more hmore hpost)
  rwa [bind_done, bind_done] at hbind

theorem Mirrors.caught {p : Program m υ α} {p' : Program m υ' α'}
    (mirrors : p.Mirrors like post p' R) :
    p.caught.Mirrors like (Ends post) p'.caught R := by
  induction mirrors with
  | done hpost => exact .done (.ok hpost)
  | panic payload => exact .done (.error payload)
  | exhausted may => exact .exhausted may
  | user step _ ih => exact .user step ih
  | request asked _ ih => exact .request asked ih
  | pause drops _ ih => exact .pause drops ih
  | await drops pairs _ ih => exact .await drops pairs ih
  | note step _ ih => exact .note step ih

theorem Mirrors.onPanic {p : Program m υ α} {p' : Program m υ' α'} {h k : Handle}
    (mirrors : p.Mirrors like post p' R) (known : R.Pairs h k) :
    (p.onPanic (.discard h)).Mirrors like post (p'.onPanic (.discard k)) R := by
  induction mirrors with
  | done hpost => exact .done hpost
  | panic payload => exact .request (.discard known) fun _ _ _ _ => .panic payload
  | exhausted may => exact .exhausted may
  | user step _ ih => exact .user step fun u u' alike => ih u u' alike known
  | request asked _ ih =>
      exact .request asked fun x x' more hanswered =>
        ih x x' more hanswered (asked.le hanswered _ _ known)
  | pause drops _ ih => exact .pause drops fun more hmore => ih more hmore (hmore _ _ known)
  | await drops pairs _ ih =>
      exact .await drops pairs fun s more hmore => ih s more hmore (hmore _ _ known)
  | note step _ ih => exact .note step fun u' => ih u' known

theorem Mirrors.closing {p : Program m υ α} {p' : Program m υ' α'} {h k : Handle}
    (mirrors : p.Mirrors like post p' R) (known : R.Pairs h k) :
    (p.closing h).Mirrors like post (p'.closing k) R := by
  induction mirrors with
  | done hpost => exact .request (.deafen known) fun _ _ _ hmore => .done (hmore ▸ hpost)
  | panic payload => exact .request (.deafen known) fun _ _ _ _ => .panic payload
  | exhausted may => exact .exhausted may
  | user step _ ih => exact .user step fun u u' alike => ih u u' alike known
  | request asked _ ih =>
      exact .request asked fun x x' more hanswered =>
        ih x x' more hanswered (asked.le hanswered _ _ known)
  | pause drops _ ih =>
      exact .pause (List.rel_append drops (.cons known .nil)) fun more hmore =>
        ih more hmore (hmore _ _ known)
  | await drops pairs _ ih =>
      exact .await (List.rel_append drops (.cons known .nil)) pairs fun s more hmore =>
        ih s more hmore (hmore _ _ known)
  | note step _ ih => exact .note step fun u' => ih u' known

theorem Mirrors.inside {p : Program m υ α} {p' : Program m υ' α'} (spans : List Span)
    (mirrors : p.Mirrors like post p' R) :
    (p.inside spans : Program m (υ × ρ) α).Mirrors (like.beside ρ) post (p'.inside spans) R := by
  induction mirrors with
  | done hpost => exact .done hpost
  | panic payload => exact .panic payload
  | exhausted may => exact .exhausted may
  | user step _ ih =>
      exact .user (fun u u' alike => ⟨step _ _ alike.1, alike.2⟩) fun u u' alike => ih _ _ alike.1
  | request asked _ ih => exact .request asked ih
  | pause drops _ ih => exact .pause drops ih
  | await drops pairs _ ih => exact .await drops pairs ih
  | note step _ ih => exact .note (fun u u' alike => ⟨step _ _ alike.1, alike.2⟩) fun u' => ih u'.1

theorem Mirrors.relax {p : Direct υ α} {p' : Direct υ' α'} (mirrors : p.Mirrors like post p' R) :
    (p.relax : Program m υ α).Mirrors like post p'.relax R := by
  induction mirrors with
  | done hpost => exact .done hpost
  | panic payload => exact .panic payload
  | exhausted may => cases may
  | user step _ ih => exact .user step ih
  | request asked _ ih => exact .request asked ih
  | @pause may => cases may
  | @await may => cases may
  | note step _ ih => exact .note step ih

end Program

/-! ## Mirrored steps -/

variable {like : Likeness υ υ'} {post : α → α' → Pairing → Prop} {R₀ R : Pairing}

theorem Config.mirrors_guarded (config : Config) {p : Program m υ α} {p' : Program m υ' α'}
    (mirrors : p.Mirrors like post p' R) :
    (config.guarded p).Mirrors like (Ends post) (config.guarded p') R := by
  unfold Config.guarded
  split
  · refine mirrors.caught.bind fun r r' more _ ends => ?_
    cases ends with
    | ok hpost => exact .done (.ok hpost)
    | error payload => exact .done (.error _)
  · exact mirrors.bind fun a a' more _ hpost => .done (.ok hpost)

/-- Steps whose code is mirrored wherever the given handles, and maybe more, are paired. -/
inductive Step.Mirrors (like : Likeness υ υ') (R₀ : Pairing) : Step υ → Step υ' → Prop where
  | sync {body : Values → Direct υ (Except Cause Values)}
      {body' : Values → Direct υ' (Except Cause Values)} {label : Option String}
      (mirrors : ∀ R args, R₀ ≤ R → (body args).Mirrors like agreeing (body' args) R) :
      Mirrors like R₀ ⟨.sync body, label⟩ ⟨.sync body', label⟩
  | callback {body : Values → Handle → Direct υ Unit} {body' : Values → Handle → Direct υ' Unit}
      {label : Option String}
      (mirrors : ∀ R args h k, R₀ ≤ R → R.Pairs h k →
        (body args h).Mirrors like agreeing (body' args k) R) :
      Mirrors like R₀ ⟨.callback body, label⟩ ⟨.callback body', label⟩
  | future {start : Values → Direct υ (Suspending υ (Except Cause Values))}
      {start' : Values → Direct υ' (Suspending υ' (Except Cause Values))} {label : Option String}
      (mirrors : ∀ R args, R₀ ≤ R → (start args).Mirrors like
        (fun task task' more => task.Mirrors like agreeing task' more) (start' args) R) :
      Mirrors like R₀ ⟨.future start, label⟩ ⟨.future start', label⟩

namespace Step

/-- Both calls leave nothing to await, or mirrored tasks. -/
inductive TasksMirror (like : Likeness υ υ') :
    Option (Suspending υ Settlement) → Option (Suspending υ' Settlement) → Pairing → Prop where
  | none {R : Pairing} : TasksMirror like none none R
  | some {task : Suspending υ Settlement} {task' : Suspending υ' Settlement} {R : Pairing}
      (mirrors : task.Mirrors like agreeing task' R) : TasksMirror like (some task) (some task') R

theorem Mirrors.call {step : Step υ} {step' : Step υ'} (mirrors : step.Mirrors like R₀ step')
    (args : Values) {h k : Handle} (config : Config) (le : R₀ ≤ R) (pairs : R.Pairs h k) :
    (step.call args h config).Mirrors like (TasksMirror like) (step'.call args k config) R := by
  cases mirrors with
  | sync mirrors =>
      have hbody := (config.mirrors_guarded (mirrors R args le)).onPanic pairs
      refine hbody.bind fun result result' more hmore ends => ?_
      have hsame : result = result' := by
        cases ends with
        | ok hpost => exact congrArg Except.ok hpost
        | error e => rfl
      subst hsame
      exact .request (.settle (hmore _ _ pairs) _) fun _ _ _ _ => .done .none
  | callback mirrors =>
      have hguarded := config.mirrors_guarded (mirrors R args h k le pairs)
      refine hguarded.bind fun result result' more _ ends => ?_
      cases ends with
      | ok hpost => exact .done .none
      | error e => exact .done (.some (.done rfl))
  | future mirrors =>
      refine .request (.discard pairs) fun _ _ more hmore => ?_
      subst hmore
      refine (config.mirrors_guarded (mirrors _ args le)).bind fun result result' more _ ends => ?_
      cases ends with
      | ok hpost =>
          refine .done (.some (hpost.bind fun r r' last _ hr => .done ?_))
          exact congrArg Settlement.ofResult hr
      | error e => exact .done (.some (.done rfl))

theorem TasksMirror.outcome {task : Option (Suspending υ Settlement)}
    {task' : Option (Suspending υ' Settlement)} {h k : Handle} (config : Config)
    (mirrors : TasksMirror like task task' R) (pairs : R.Pairs h k) :
    (outcome h config task).Mirrors like agreeing (outcome k config task') R := by
  cases mirrors with
  | none => exact .await .nil pairs fun s more _ => .done rfl
  | some mirrors =>
      refine (config.mirrors_guarded mirrors).bind fun r r' more _ ends => .done ?_
      cases ends with
      | ok hpost => exact hpost
      | error e => rfl

/-- Invocations of mirrored steps come to the same settlement. -/
theorem Mirrors.invoke {step : Step υ} {step' : Step υ'} (mirrors : step.Mirrors like R₀ step')
    (args : Values) (config : Config) (le : R₀ ≤ R) :
    (step.invoke args config).Mirrors like agreeing (step'.invoke args config) R := by
  refine .request .openChannel fun h k more ⟨hmore, hpairs⟩ => ?_
  apply Program.Mirrors.closing _ hpairs
  have hcall := (mirrors.call args config (le.trans hmore) hpairs).relax (m := .suspending)
  refine hcall.bind fun task task' last hlast htasks => ?_
  exact htasks.outcome config (hlast _ _ hpairs)

end Step

/-! ## Mirrored flows -/

/-- Carried out with mirrored steps, a plan is mirrored. -/
theorem Plan.Invokes.mirrors {f : Step υ → Step υ'} {p : Plan υ α}
    (invokes : p.Invokes fun step => step.Mirrors like R₀ (f step)) (config : Config)
    (le : R₀ ≤ R) :
    (p.toProgram config).Mirrors (like.beside ResultSet) agreeing ((p.mapSteps f).toProgram config)
      R := by
  induction p generalizing R with
  | done value => exact .done rfl
  | exhausted => exact .exhausted rfl
  | report spans notice next ih =>
      refine .request (.report notice) fun _ _ more hmore => ?_
      subst hmore
      exact ih invokes le
  | results update next ih =>
      refine .user (fun u u' alike => ⟨alike.1, congrArg update alike.2⟩) fun u u' alike => ?_
      have hrest := ih u.2 (invokes u.2) le
      rw [alike.2] at hrest ⊢
      exact hrest
  | invoke spans step args next ih =>
      refine ((invokes.1.invoke args config le).inside spans).bind fun s s' more hmore hs => ?_
      obtain rfl : s = s' := hs
      exact ih s (invokes.2 s) (le.trans hmore)

theorem Program.mirrors_notify {resolvers : List (Resolver υ)} (completion : Completion)
    {like : Likeness υ υ}
    (uniform : ∀ resolver ∈ resolvers, ∀ R, R₀ ≤ R →
      (resolver completion).Mirrors like agreeing (resolver completion) R) (le : R₀ ≤ R) :
    (Flow.notify completion resolvers).Mirrors like agreeing (Flow.notify completion resolvers)
      R := by
  induction resolvers generalizing R with
  | nil => exact .done rfl
  | cons resolver rest ih =>
      refine (uniform resolver List.mem_cons_self R le).bind fun _ _ more hmore _ => ?_
      exact ih (fun other hother => uniform other (List.mem_cons_of_mem _ hother)) (le.trans hmore)

/-- The code of a flow does the same on handles that stand for each other. -/
structure Flow.Uniform (like : Likeness υ υ) (R₀ : Pairing) (flow : Flow υ) : Prop where
  steps : ∀ step ∈ flow.sequence.steps, step.Mirrors like R₀ step
  resolvers : ∀ resolver ∈ flow.resolvers, ∀ completion R, R₀ ≤ R →
    (resolver completion).Mirrors like agreeing (resolver completion) R

theorem Flow.Uniform.exec {like : Likeness υ υ} {flow : Flow υ} (uniform : flow.Uniform like R₀)
    (limit : Nat) (le : R₀ ≤ R) :
    (flow.exec limit).Mirrors (like.beside ResultSet) agreeing (flow.exec limit) R := by
  rw [Flow.exec_eq_plan]
  have hplan : (flow.plan limit).Invokes fun step => step.Mirrors like R₀ (id step) :=
    (flow.plan_invokes limit).mono uniform.steps
  have hmirrors := hplan.mirrors flow.config le
  rw [Plan.mapSteps_id] at hmirrors
  refine hmirrors.bind fun completion completion' more hmore hcompletion => ?_
  obtain rfl : completion = completion' := hcompletion
  simp only [Program.beside_eq_inside]
  have hnotify := Program.mirrors_notify completion
    (fun resolver hresolver => uniform.resolvers resolver hresolver completion) (le.trans hmore)
  exact (hnotify.relax.inside []).bind fun _ _ _ _ _ => .done rfl

/-! ## Code on one store -/

/-- Where every handle stands for itself, a request mirrors itself. -/
theorem Request.mirrors_self (hsame : Pairing.same ≤ R) (r : Request) :
    ∃ answered, r.Mirrors R r answered ∧ ∀ x x' more, answered x x' more → x = x' := by
  cases r with
  | openChannel =>
      exact ⟨_, .openChannel, fun h k more hmore =>
        Pairing.eq_of_same_le (hsame.trans hmore.1) hmore.2⟩
  | isWaiting h => exact ⟨_, .isWaiting (hsame h h rfl), fun _ _ _ hmore => hmore.1⟩
  | settle h s => exact ⟨_, .settle (hsame h h rfl) s, fun _ _ _ _ => rfl⟩
  | discard h => exact ⟨_, .discard (hsame h h rfl), fun _ _ _ _ => rfl⟩
  | deafen h => exact ⟨_, .deafen (hsame h h rfl), fun _ _ _ _ => rfl⟩
  | defer h s => exact ⟨_, .defer (hsame h h rfl) s, fun _ _ _ _ => rfl⟩
  | report notice => exact ⟨_, .report notice, fun _ _ _ _ => rfl⟩

theorem Pairing.forall₂_self (hsame : Pairing.same ≤ R) (handles : List Handle) :
    List.Forall₂ R.Pairs handles handles :=
  List.forall₂_same.2 fun h _ => hsame h h rfl

namespace Program

theorem Mirrors.request_self (hsame : Pairing.same ≤ R) {spans : List Span} {r : Request}
    {next : r.Reply → Program m υ α} {next' : r.Reply → Program m υ' α'}
    (rest : ∀ x more, Pairing.same ≤ more → (next x).Mirrors like post (next' x) more) :
    (Program.request spans r next).Mirrors like post (.request spans r next') R := by
  obtain ⟨answered, asked, hreply⟩ := r.mirrors_self hsame
  refine .request asked fun x x' more hanswered => ?_
  obtain rfl := hreply x x' more hanswered
  exact rest x more (hsame.trans (asked.le hanswered))

theorem Mirrors.pause_self (hsame : Pairing.same ≤ R) {may : m = .suspending}
    {onDrop : List Handle} {next : Unit → Program m υ α} {next' : Unit → Program m υ' α'}
    (rest : ∀ more, Pairing.same ≤ more → (next ()).Mirrors like post (next' ()) more) :
    (Program.pause may onDrop next).Mirrors like post (.pause may onDrop next') R :=
  .pause (Pairing.forall₂_self hsame onDrop) fun more hmore => rest more (hsame.trans hmore)

theorem Mirrors.await_self (hsame : Pairing.same ≤ R) {may : m = .suspending}
    {onDrop : List Handle} {h : Handle} {next : Settlement → Program m υ α}
    {next' : Settlement → Program m υ' α'}
    (rest : ∀ s more, Pairing.same ≤ more → (next s).Mirrors like post (next' s) more) :
    (Program.await may onDrop h next).Mirrors like post (.await may onDrop h next') R :=
  .await (Pairing.forall₂_self hsame onDrop) (hsame h h rfl) fun s more hmore =>
    rest s more (hsame.trans hmore)

/-- And so does a program, whatever it does with handles. -/
theorem mirrors_self (hsame : Pairing.same ≤ R) (p : Program m υ α) :
    p.Mirrors (.equal υ) agreeing p R := by
  induction p generalizing R with
  | done value => exact .done rfl
  | panic payload => exact .panic payload
  | exhausted may => exact .exhausted may
  | user update next ih =>
      refine .user (fun u u' alike => congrArg update alike) fun u u' alike => ?_
      obtain rfl : u = u' := alike
      exact ih u hsame
  | request spans r next ih => exact .request_self hsame fun x more hmore => ih x hmore
  | pause may onDrop next ih => exact .pause_self hsame fun more hmore => ih () hmore
  | await may onDrop h next ih => exact .await_self hsame fun s more hmore => ih s hmore

end Program

/-- So any flow does the same on one store as on another one that is the same to its handles. -/
theorem Flow.uniform_same (flow : Flow υ) : flow.Uniform (.equal υ) .same where
  steps step _ := by
    obtain ⟨invoker, label⟩ := step
    cases invoker with
    | sync body => exact .sync fun R args hsame => Program.mirrors_self hsame _
    | callback body =>
        refine .callback fun R args h k hsame pairs => ?_
        obtain rfl := Pairing.eq_of_same_le hsame pairs
        exact Program.mirrors_self hsame _
    | future start =>
        refine .future fun R args hsame => ?_
        refine (Program.mirrors_self hsame (start args)).mono fun task task' more hmore htask => ?_
        obtain rfl : task = task' := htask
        exact Program.mirrors_self (hsame.trans hmore) task
  resolvers resolver _ completion R hsame := Program.mirrors_self hsame _

end Stepwise
