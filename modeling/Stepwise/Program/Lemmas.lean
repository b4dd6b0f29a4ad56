import Stepwise.Poll
/-!
# Laws of programs

Programs form a lawful monad, every transformation of programs commutes with sequencing, and a poll
of a sequence is a poll of its first part followed, where that ends, by the second.
-/

namespace Stepwise.Program

variable {m : Mode} {υ ρ α β : Type}

@[simp] theorem pure_eq (a : α) : (pure a : Program m υ α) = done a := rfl

@[simp] theorem bind_eq (p : Program m υ α) (f : α → Program m υ β) : p >>= f = p.bind f := rfl

@[simp] theorem done_bind (a : α) (f : α → Program m υ β) : (done a).bind f = f a := rfl

@[simp] theorem panic_bind (payload : Panic) (f : α → Program m υ β) :
    (panic payload : Program m υ α).bind f = panic payload := rfl

theorem bind_done (p : Program m υ α) : p.bind done = p := by
  induction p with
  | done => rfl
  | panic => rfl
  | exhausted => rfl
  | user update next ih => exact congrArg (user update) (funext ih)
  | request spans r next ih => exact congrArg (request spans r) (funext ih)
  | pause may onDrop next ih => exact congrArg (pause may onDrop) (funext ih)
  | await may onDrop handle next ih => exact congrArg (await may onDrop handle) (funext ih)

theorem bind_assoc {γ : Type} (p : Program m υ α) (f : α → Program m υ β)
    (g : β → Program m υ γ) : (p.bind f).bind g = p.bind fun a => (f a).bind g := by
  induction p with
  | done => rfl
  | panic => rfl
  | exhausted => rfl
  | user update next ih => exact congrArg (user update) (funext ih)
  | request spans r next ih => exact congrArg (request spans r) (funext ih)
  | pause may onDrop next ih => exact congrArg (pause may onDrop) (funext ih)
  | await may onDrop handle next ih => exact congrArg (await may onDrop handle) (funext ih)

instance : LawfulMonad (Program m υ) :=
  LawfulMonad.mk' _ (fun p => bind_done p) (fun _ _ => rfl) fun p f g => bind_assoc p f g

theorem within_bind (span : Span) (p : Program m υ α) (f : α → Program m υ β) :
    (p.bind f).within span = (p.within span).bind fun a => (f a).within span := by
  induction p with
  | done => rfl
  | panic => rfl
  | exhausted => rfl
  | user update next ih => exact congrArg (user update) (funext ih)
  | request spans r next ih => exact congrArg (request (span :: spans) r) (funext ih)
  | pause may onDrop next ih => exact congrArg (pause may onDrop) (funext ih)
  | await may onDrop handle next ih => exact congrArg (await may onDrop handle) (funext ih)

theorem beside_bind (p : Program m υ α) (f : α → Program m υ β) :
    ((p.bind f).beside : Program m (υ × ρ) β) = p.beside.bind fun a => (f a).beside := by
  induction p with
  | done => rfl
  | panic => rfl
  | exhausted => rfl
  | user update next ih => exact congrArg (user _) (funext fun u => ih u.1)
  | request spans r next ih => exact congrArg (request spans r) (funext ih)
  | pause may onDrop next ih => exact congrArg (pause may onDrop) (funext ih)
  | await may onDrop handle next ih => exact congrArg (await may onDrop handle) (funext ih)

end Stepwise.Program

namespace Stepwise

variable {υ α β : Type}

section Await

variable {may : Mode.suspending = .suspending} {onDrop : List Handle} {h : Handle}
  {next : Settlement → Suspending υ α} {st : Store υ}

theorem Program.poll_await : (await may onDrop h next).poll st =
    match st.settlement? h with
    | some s => (next s).poll st
    | none => .pending st ⟨await may onDrop h next, onDrop⟩ := by
  cases hsettled : st.settlement? h <;> simp only [poll, hsettled]

theorem Program.poll_await_of_settled {s : Settlement} (settled : st.settlement? h = some s) :
    (await may onDrop h next).poll st = (next s).poll st := by
  rw [poll_await, settled]

theorem Program.poll_await_of_unsettled (unsettled : st.settlement? h = none) :
    (await may onDrop h next).poll st = .pending st ⟨await may onDrop h next, onDrop⟩ := by
  rw [poll_await, unsettled]

end Await

/-- What a poll comes to when a program goes on where another one ended. -/
def Progress.andThen (f : α → Suspending υ β) : Progress υ α → Progress υ β
  | done st value => (f value).poll st
  | panicked st payload => .panicked st payload
  | pending st rest => .pending st ⟨rest.program.bind f, rest.onDrop⟩
  | exhausted st => .exhausted st

theorem Program.poll_bind (p : Suspending υ α) (f : α → Suspending υ β) (st : Store υ) :
    (p.bind f).poll st = (p.poll st).andThen f := by
  induction p generalizing st with
  | done => rfl
  | panic => rfl
  | exhausted => rfl
  | user update next ih => exact ih _ _
  | request spans r next ih => exact ih _ _
  | pause may onDrop next ih => rfl
  | await may onDrop handle next ih =>
    cases hsettled : st.settlement? handle with
    | some s =>
      rw [poll_await_of_settled hsettled, ← ih s st]
      exact poll_await_of_settled hsettled
    | none =>
      rw [poll_await_of_unsettled hsettled]
      exact poll_await_of_unsettled hsettled

end Stepwise
