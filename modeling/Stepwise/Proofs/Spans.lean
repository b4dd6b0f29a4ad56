import Stepwise.Proofs.Plan
/-!
# Programs and plans under spans

A flow that runs inside a step of another flow runs under the spans of that one.  What is under
spans reports under them, and is what it is by itself otherwise.
-/

namespace Stepwise

variable {m : Mode} {υ ρ α β : Type}

namespace Program

/-- Runs under the given spans. -/
def under (spans : List Span) : Program m υ α → Program m υ α
  | done value => done value
  | panic payload => panic payload
  | exhausted may => exhausted may
  | user update next => user update fun u => (next u).under spans
  | request inner r next => request (spans ++ inner) r fun x => (next x).under spans
  | pause may onDrop next => pause may onDrop fun x => (next x).under spans
  | await may onDrop handle next => await may onDrop handle fun s => (next s).under spans

theorem under_nil (p : Program m υ α) : p.under [] = p := by
  induction p with
  | done => rfl
  | panic => rfl
  | exhausted => rfl
  | user update next ih => exact congrArg (user update) (funext ih)
  | request inner r next ih => exact congrArg (request inner r) (funext ih)
  | pause may onDrop next ih => exact congrArg (pause may onDrop) (funext ih)
  | await may onDrop handle next ih => exact congrArg (await may onDrop handle) (funext ih)

theorem under_bind (spans : List Span) (p : Program m υ α) (f : α → Program m υ β) :
    (p.bind f).under spans = (p.under spans).bind fun a => (f a).under spans := by
  induction p with
  | done => rfl
  | panic => rfl
  | exhausted => rfl
  | user update next ih => exact congrArg (user update) (funext ih)
  | request inner r next ih => exact congrArg (request (spans ++ inner) r) (funext ih)
  | pause may onDrop next ih => exact congrArg (pause may onDrop) (funext ih)
  | await may onDrop handle next ih => exact congrArg (await may onDrop handle) (funext ih)

theorem under_within (spans : List Span) (span : Span) (p : Program m υ α) :
    (p.within span).under spans = p.under (spans ++ [span]) := by
  induction p with
  | done => rfl
  | panic => rfl
  | exhausted => rfl
  | user update next ih => exact congrArg (user update) (funext ih)
  | request inner r next ih =>
      have rest := congrArg (request (spans ++ span :: inner) r) (funext ih)
      exact rest.trans (congrArg (request · r _) (List.append_cons spans span inner))
  | pause may onDrop next ih => exact congrArg (pause may onDrop) (funext ih)
  | await may onDrop handle next ih => exact congrArg (await may onDrop handle) (funext ih)

theorem under_inside (outer inner : List Span) (p : Program m υ α) :
    (p.inside inner : Program m (υ × ρ) α).under outer = p.inside (outer ++ inner) := by
  induction p with
  | done => rfl
  | panic => rfl
  | exhausted => rfl
  | user update next ih => exact congrArg (user _) (funext fun u => ih u.1)
  | request spans r next ih =>
      have rest := congrArg (request (outer ++ (inner ++ spans)) r) (funext ih)
      exact rest.trans (congrArg (request · r _) (List.append_assoc outer inner spans).symm)
  | pause may onDrop next ih => exact congrArg (pause may onDrop) (funext ih)
  | await may onDrop handle next ih => exact congrArg (await may onDrop handle) (funext ih)

theorem beside_under (spans : List Span) (p : Program m υ α) :
    ((p.under spans).beside : Program m (υ × ρ) α) = p.inside spans := by
  induction p with
  | done => rfl
  | panic => rfl
  | exhausted => rfl
  | user update next ih => exact congrArg (user _) (funext fun u => ih u.1)
  | request inner r next ih => exact congrArg (request (spans ++ inner) r) (funext ih)
  | pause may onDrop next ih => exact congrArg (pause may onDrop) (funext ih)
  | await may onDrop handle next ih => exact congrArg (await may onDrop handle) (funext ih)

theorem relax_under (spans : List Span) (p : Direct υ α) :
    (p.relax : Program m υ α).under spans = (p.under spans).relax := by
  induction p with
  | done => rfl
  | panic => rfl
  | exhausted may => cases may
  | user update next ih => exact congrArg (user update) (funext ih)
  | request inner r next ih => exact congrArg (request (spans ++ inner) r) (funext ih)
  | pause may => cases may
  | await may => cases may

end Program

namespace Plan

def under (spans : List Span) : Plan υ α → Plan υ α
  | done value => done value
  | exhausted => exhausted
  | report inner notice next => report (spans ++ inner) notice (next.under spans)
  | results update next => results update fun r => (next r).under spans
  | invoke inner step args next => invoke (spans ++ inner) step args fun s => (next s).under spans

theorem under_nil (p : Plan υ α) : p.under [] = p := by
  induction p with
  | done => rfl
  | exhausted => rfl
  | report inner notice next ih => exact congrArg (report inner notice) ih
  | results update next ih => exact congrArg (results update) (funext ih)
  | invoke inner step args next ih => exact congrArg (invoke inner step args) (funext ih)

theorem under_bind (spans : List Span) (p : Plan υ α) (f : α → Plan υ β) :
    (p.bind f).under spans = (p.under spans).bind fun a => (f a).under spans := by
  induction p with
  | done => rfl
  | exhausted => rfl
  | report inner notice next ih => exact congrArg (report (spans ++ inner) notice) ih
  | results update next ih => exact congrArg (results update) (funext ih)
  | invoke inner step args next ih =>
      exact congrArg (invoke (spans ++ inner) step args) (funext ih)

theorem under_within (spans : List Span) (span : Span) (p : Plan υ α) :
    (p.within span).under spans = p.under (spans ++ [span]) := by
  induction p with
  | done => rfl
  | exhausted => rfl
  | report inner notice next ih =>
      have rest := congrArg (report (spans ++ span :: inner) notice) ih
      exact rest.trans (congrArg (report · notice _) (List.append_cons spans span inner))
  | results update next ih => exact congrArg (results update) (funext ih)
  | invoke inner step args next ih =>
      have rest := congrArg (invoke (spans ++ span :: inner) step args) (funext ih)
      exact rest.trans (congrArg (invoke · step args _) (List.append_cons spans span inner))

theorem toProgram_under (config : Config) (spans : List Span) (p : Plan υ α) :
    (p.under spans).toProgram config = (p.toProgram config).under spans := by
  induction p with
  | done => rfl
  | exhausted => rfl
  | report inner notice next ih =>
      exact congrArg (Program.request (spans ++ inner) (.report notice)) (funext fun _ => ih)
  | results update next ih => exact congrArg (Program.user _) (funext fun u => ih u.2)
  | invoke inner step args next ih =>
      rw [toProgram, Program.under_bind, Program.under_inside]
      exact congrArg (Program.bind _) (funext ih)

theorem Invokes.under {allowed : Step υ → Prop} {p : Plan υ α} (invokes : p.Invokes allowed)
    (spans : List Span) : (p.under spans).Invokes allowed := by
  induction p with
  | done => trivial
  | exhausted => trivial
  | report inner notice next ih => exact ih invokes
  | results update next ih => exact fun r => ih r (invokes r)
  | invoke inner step args next ih => exact ⟨invokes.1, fun s => ih s (invokes.2 s)⟩

theorem within_eq_under (span : Span) (p : Plan υ α) : p.within span = p.under [span] := by
  induction p with
  | done => rfl
  | exhausted => rfl
  | report inner notice next ih => exact congrArg (report (span :: inner) notice) ih
  | results update next ih => exact congrArg (results update) (funext ih)
  | invoke inner step args next ih =>
      exact congrArg (invoke (span :: inner) step args) (funext ih)

end Plan

end Stepwise
