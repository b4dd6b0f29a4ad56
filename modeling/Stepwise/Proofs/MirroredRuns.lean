import Stepwise.Proofs.Course
import Stepwise.Proofs.Mirrors
/-!
# Mirrored runs

On stores that mirror each other, mirrored programs come to the same and report the same, whatever
channels were opened in either store before.
-/

namespace Stepwise

variable {υ υ' ρ α α' : Type}

/-! ## Mirrored stores -/

/-- Completions of paired handles with the same settlement. -/
def Pairing.Completions (R : Pairing) (c c' : Handle × Settlement) : Prop :=
  R.Pairs c.1 c'.1 ∧ c.2 = c'.2

theorem Pairing.Completions.mono {R more : Pairing} (le : R ≤ more) {c c' : Handle × Settlement}
    (completions : R.Completions c c') : more.Completions c c' :=
  ⟨le _ _ completions.1, completions.2⟩

/-- Paired channels are in the same state, the same completions are scheduled, and since the given
traces the same was reported. -/
structure Store.Mirrors (like : Likeness υ υ') (before before' : Array Event) (R : Pairing)
    (st : Store υ) (st' : Store υ') : Prop where
  user : like.Alike R st.user st'.user
  channels : ∀ h k, R.Pairs h k → st.channel? h = st'.channel? k
  /-- Of handles that were not opened yet only those are paired that will be opened together. -/
  unopened : ∀ h k, R.Pairs h k → st.channels.size ≤ h.id ∨ st'.channels.size ≤ k.id →
    h.id + st'.channels.size = k.id + st.channels.size
  due : List.Forall₂ R.Completions st.due st'.due
  deferred : List.Forall₂ R.Completions st.deferred st'.deferred
  trace : ∃ news, st.trace = before ++ news ∧ st'.trace = before' ++ news

namespace Store.Mirrors

variable {like : Likeness υ υ'} {before before' : Array Event} {R : Pairing} {st : Store υ}
  {st' : Store υ'}

theorem updateChannel (mirrors : st.Mirrors like before before' R st') {h k : Handle}
    (pairs : R.Pairs h k) (update : Channel → Channel) :
    (st.updateChannel h update).Mirrors like before before' R (st'.updateChannel k update) where
  user := mirrors.user
  channels a b hab := by
    rw [channel?_updateChannel, channel?_updateChannel, mirrors.channels a b hab]
    by_cases heq : h = a
    · subst heq
      rw [if_pos rfl, if_pos (R.right_unique pairs hab)]
    · have hne : k ≠ b := fun hkb => heq (R.left_unique pairs (hkb ▸ hab))
      rw [if_neg heq, if_neg hne]
  unopened a b hab := by
    simpa only [Store.updateChannel, Array.size_modify] using mirrors.unopened a b hab
  due := mirrors.due
  deferred := mirrors.deferred
  trace := mirrors.trace

theorem report (mirrors : st.Mirrors like before before' R st') (spans : List Span)
    (notice : Notice) :
    (st.report spans notice).Mirrors like before before' R (st'.report spans notice) := by
  obtain ⟨news, htrace, htrace'⟩ := mirrors.trace
  refine { mirrors with trace := ⟨news.push ⟨notice, spans⟩, ?_, ?_⟩ }
  · simp only [Store.report, htrace, Array.append_push]
  · simp only [Store.report, htrace', Array.append_push]

theorem settle (mirrors : st.Mirrors like before before' R st') {h k : Handle}
    (pairs : R.Pairs h k) (spans : List Span) (s : Settlement) :
    (st.settle spans h s).Mirrors like before before' R (st'.settle spans k s) := by
  unfold Store.settle
  rw [mirrors.channels h k pairs]
  split
  · exact mirrors.updateChannel pairs _
  · exact (mirrors.updateChannel pairs _).report spans _
  · exact mirrors

theorem discard (mirrors : st.Mirrors like before before' R st') {h k : Handle}
    (pairs : R.Pairs h k) : (st.discard h).Mirrors like before before' R (st'.discard k) := by
  unfold Store.discard
  rw [mirrors.channels h k pairs]
  split
  · exact mirrors.updateChannel pairs _
  · exact mirrors

theorem send {completions completions' : List (Handle × Settlement)}
    (same : List.Forall₂ R.Completions completions completions')
    (mirrors : st.Mirrors like before before' R st') :
    (Store.send completions st).Mirrors like before before' R (Store.send completions' st') := by
  induction same generalizing st st' with
  | nil => exact mirrors
  | @cons c c' _ _ head _ ih =>
      obtain ⟨h, s⟩ := c
      obtain ⟨k, s'⟩ := c'
      obtain ⟨pairs, rfl⟩ : R.Pairs h k ∧ s = s' := head
      exact ih (mirrors.settle pairs [] s)

theorem turn (mirrors : st.Mirrors like before before' R st') :
    st.turn.Mirrors like before before' R st'.turn :=
  send mirrors.due { mirrors with due := mirrors.deferred, deferred := .nil }

theorem settlement? (mirrors : st.Mirrors like before before' R st') {h k : Handle}
    (pairs : R.Pairs h k) : st.settlement? h = st'.settlement? k :=
  congrArg (·.bind Channel.settlement?) (mirrors.channels h k pairs)

/-- What is opened next on either side is not paired with anything older. -/
theorem openChannel (mirrors : st.Mirrors like before before' R st') :
    ∃ more, (R ≤ more ∧ more.Pairs st.openChannel.1 st'.openChannel.1) ∧
      st.openChannel.2.Mirrors like before before' more st'.openChannel.2 := by
  have hright {k' : Handle} (pairs : R.Pairs st.openChannel.1 k') : k' = st'.openChannel.1 := by
    have hid := mirrors.unopened _ _ pairs (.inl le_rfl)
    have : k'.id = st'.channels.size := by
      simp only [Store.openChannel] at hid
      omega
    exact congrArg Handle.mk this
  have hleft {h' : Handle} (pairs : R.Pairs h' st'.openChannel.1) : h' = st.openChannel.1 := by
    have hid := mirrors.unopened _ _ pairs (.inr le_rfl)
    have : h'.id = st.channels.size := by
      simp only [Store.openChannel] at hid
      omega
    exact congrArg Handle.mk this
  have hle : R ≤ R.extend _ _ hright hleft := fun _ _ pairs => .inl pairs
  refine ⟨R.extend _ _ hright hleft, ⟨hle, .inr ⟨rfl, rfl⟩⟩, ?_⟩
  exact {
    user := like.mono hle mirrors.user
    channels := by
      rintro h k (pairs | ⟨rfl, rfl⟩)
      · rw [channel?_openChannel, channel?_openChannel, mirrors.channels h k pairs]
        by_cases heq : h = st.openChannel.1
        · subst heq
          rw [if_pos rfl, if_pos (hright pairs)]
        · have hne : k ≠ st'.openChannel.1 := fun hk => heq (hleft (hk ▸ pairs))
          rw [if_neg heq, if_neg hne]
      · rw [channel?_openChannel, channel?_openChannel, if_pos rfl, if_pos rfl]
    unopened := by
      have hsize : st.openChannel.2.channels.size = st.channels.size + 1 := Array.size_push _
      have hsize' : st'.openChannel.2.channels.size = st'.channels.size + 1 := Array.size_push _
      rintro h k (pairs | ⟨rfl, rfl⟩) hunopened
      · have := mirrors.unopened h k pairs (by omega)
        omega
      · simp only [Store.openChannel] at hunopened hsize hsize' ⊢
        omega
    due := mirrors.due.imp fun _ _ => .mono hle
    deferred := mirrors.deferred.imp fun _ _ => .mono hle
    trace := mirrors.trace }

/-- Mirrored requests are answered so that the programs mirror each other on. -/
theorem answer (mirrors : st.Mirrors like before before' R st') (spans : List Span)
    {r r' : Request} {answered : r.Reply → r'.Reply → Pairing → Prop}
    (asked : r.Mirrors R r' answered) :
    ∃ more, answered (st.answer spans r).1 (st'.answer spans r').1 more ∧
      (st.answer spans r).2.Mirrors like before before' more (st'.answer spans r').2 := by
  cases asked with
  | openChannel => exact mirrors.openChannel
  | settle pairs s => exact ⟨R, rfl, mirrors.settle pairs spans s⟩
  | discard pairs => exact ⟨R, rfl, mirrors.discard pairs⟩
  | deafen pairs => exact ⟨R, rfl, mirrors.updateChannel pairs _⟩
  | @isWaiting h k pairs =>
      have hwaiting : st.isWaiting h = st'.isWaiting k := by
        unfold Store.isWaiting
        rw [mirrors.channels h k pairs]
      exact ⟨R, ⟨hwaiting, rfl⟩, mirrors⟩
  | @defer h k pairs s =>
      have hnew : List.Forall₂ R.Completions [(h, s)] [(k, s)] := .cons ⟨pairs, rfl⟩ .nil
      have hdeferred := List.rel_append mirrors.deferred hnew
      exact ⟨R, rfl, { mirrors with deferred := hdeferred }⟩
  | report notice => exact ⟨R, rfl, mirrors.report spans notice⟩

theorem drop (mirrors : st.Mirrors like before before' R st') {onDrop onDrop' : List Handle}
    (drops : List.Forall₂ R.Pairs onDrop onDrop') :
    (onDrop.foldl Store.deafen st).Mirrors like before before' R
      (onDrop'.foldl Store.deafen st') := by
  induction drops generalizing st st' with
  | nil => exact mirrors
  | cons pairs _ ih => exact ih (mirrors.updateChannel pairs _)

theorem attach (mirrors : st.Mirrors like before before' R st') (r : ρ) :
    (st.attach r).Mirrors (like.beside ρ) before before' R (st'.attach r) :=
  { mirrors with user := ⟨mirrors.user, rfl⟩ }

theorem detach {st : Store (υ × ρ)} {st' : Store (υ' × ρ)}
    (mirrors : st.Mirrors (like.beside ρ) before before' R st') :
    st.detach.2.Mirrors like before before' R st'.detach.2 ∧ st.detach.1 = st'.detach.1 :=
  ⟨{ mirrors with user := mirrors.user.1 }, mirrors.user.2⟩

end Store.Mirrors

/-! ## Mirrored courses -/

/-- What the outside world does to both stores.  It may pair more handles. -/
def Act.Mirrors (like : Likeness υ υ') (before before' : Array Event) (R₀ : Pairing) (act : Act υ)
    (act' : Act υ') : Prop :=
  ∀ R st st', R₀ ≤ R → Store.Mirrors like before before' R st st' →
    ∃ more, R ≤ more ∧ (act st).Mirrors like before before' more (act' st')

theorem Act.Mirrors.aside {like : Likeness υ υ'} {before before' : Array Event} {R₀ : Pairing}
    {act : Act υ} {act' : Act υ'} (mirrors : act.Mirrors like before before' R₀ act') :
    act.aside.Mirrors (like.beside ρ) before before' R₀ act'.aside := by
  intro R st st' le hstores
  obtain ⟨hst, hsame⟩ := hstores.detach
  obtain ⟨more, hmore, hact⟩ := mirrors R _ _ le hst
  refine ⟨more, hmore, ?_⟩
  unfold Act.aside
  rw [hsame]
  exact hact.attach _

/-- Courses that come to the same. -/
inductive Course.Mirrors (like : Likeness υ υ') (before before' : Array Event) (R₀ : Pairing)
    (post : α → α' → Pairing → Prop) (R : Pairing) : Course υ α → Course υ' α' → Prop where
  | ended {st : Store υ} {st' : Store υ'} {a : α} {a' : α'} {left : List (Act υ)}
      {left' : List (Act υ')} {more : Pairing} (le : R ≤ more)
      (stores : st.Mirrors like before before' more st') (hpost : post a a' more)
      (acts : List.Forall₂ (Act.Mirrors like before before' R₀) left left') :
      Mirrors like before before' R₀ post R (.ended st a left) (.ended st' a' left')
  | unwound {st : Store υ} {st' : Store υ'} {more : Pairing} (le : R ≤ more)
      (stores : st.Mirrors like before before' more st') (payload : Panic) :
      Mirrors like before before' R₀ post R (.unwound st payload) (.unwound st' payload)
  | pending {st : Store υ} {st' : Store υ'} {rest : Parked υ α} {rest' : Parked υ' α'}
      {more : Pairing} (le : R ≤ more) (stores : st.Mirrors like before before' more st')
      (drops : List.Forall₂ more.Pairs rest.onDrop rest'.onDrop) :
      Mirrors like before before' R₀ post R (.pending st rest) (.pending st' rest')
  | exhausted {st : Store υ} {st' : Store υ'} {more : Pairing} (le : R ≤ more)
      (stores : st.Mirrors like before before' more st') :
      Mirrors like before before' R₀ post R (.exhausted st) (.exhausted st')

theorem Course.Mirrors.of_le {like : Likeness υ υ'} {before before' : Array Event}
    {R₀ R more : Pairing} {post : α → α' → Pairing → Prop} {c : Course υ α} {c' : Course υ' α'}
    (mirrors : c.Mirrors like before before' R₀ post more c') (le : R ≤ more) :
    c.Mirrors like before before' R₀ post R c' := by
  cases mirrors with
  | ended hle stores hpost acts => exact .ended (le.trans hle) stores hpost acts
  | unwound hle stores payload => exact .unwound (le.trans hle) stores payload
  | pending hle stores drops => exact .pending (le.trans hle) stores drops
  | exhausted hle stores => exact .exhausted (le.trans hle) stores

/-- Mirrored programs take mirrored courses on mirrored stores. -/
theorem Program.Mirrors.course {like : Likeness υ υ'} {before before' : Array Event}
    {R₀ R : Pairing} {post : α → α' → Pairing → Prop} {p : Suspending υ α} {p' : Suspending υ' α'}
    (mirrors : p.Mirrors like post p' R) (le : R₀ ≤ R) {acts : List (Act υ)}
    {acts' : List (Act υ')} (same : List.Forall₂ (Act.Mirrors like before before' R₀) acts acts')
    {st : Store υ} {st' : Store υ'} (stores : st.Mirrors like before before' R st') :
    (p.course acts st).Mirrors like before before' R₀ post R (p'.course acts' st') := by
  induction mirrors generalizing acts acts' st st' with
  | done hpost => exact .ended le_rfl stores hpost same
  | panic payload => exact .unwound le_rfl stores payload
  | exhausted may => exact .exhausted le_rfl stores
  | user step _ ih =>
      exact ih _ _ stores.user le same { stores with user := step _ _ stores.user }
  | @request spans _ _ _ _ _ _ asked _ ih =>
      obtain ⟨more, hanswered, hstores⟩ := stores.answer spans asked
      have hmore := asked.le hanswered
      exact (ih _ _ more hanswered (le.trans hmore) same hstores).of_le hmore
  | pause drops _ ih =>
      cases same with
      | nil => exact .pending le_rfl stores.turn drops
      | cons act rest =>
          obtain ⟨more, hmore, hstores⟩ := act _ _ _ le stores.turn
          exact (ih more hmore (le.trans hmore) rest hstores).of_le hmore
  | @await may onDrop onDrop' h k next next' R drops pairs rest ih =>
      -- The pairing may grow while both wait.
      induction same generalizing R st st' with
      | nil =>
          have hsame := stores.settlement? pairs
          cases hsettled : st.settlement? h with
          | some s =>
              rw [course_await_of_settled hsettled, course_await_of_settled (hsame ▸ hsettled)]
              exact ih s R le_rfl le .nil stores
          | none =>
              rw [course_await_nil hsettled, course_await_nil (hsame ▸ hsettled)]
              exact .pending le_rfl stores.turn drops
      | @cons act act' acts acts' hact hacts later =>
          have hsame := stores.settlement? pairs
          cases hsettled : st.settlement? h with
          | some s =>
              rw [course_await_of_settled hsettled, course_await_of_settled (hsame ▸ hsettled)]
              exact ih s R le_rfl le (.cons hact hacts) stores
          | none =>
              rw [course_await_cons hsettled, course_await_cons (hsame ▸ hsettled)]
              obtain ⟨more, hmore, hstores⟩ := hact _ _ _ le stores.turn
              have hrest := later (drops.imp fun _ _ => hmore _ _) (hmore _ _ pairs)
                (fun s last hlast => rest s last (hmore.trans hlast))
                (fun s last hlast => ih s last (hmore.trans hlast)) (le.trans hmore) hstores
              exact hrest.of_le hmore
  | note step _ ih => exact ih _ le same { stores with user := step _ _ stores.user }

end Stepwise
