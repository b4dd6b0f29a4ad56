import Stepwise.Proofs.Concatenation
import Stepwise.Proofs.Turns
/-!
# Recording the results of loops

A configuration that differs only in its label and in whether loops are recorded has a run do the
same, at the same moments, until its resolvers are told.  Recording adds the first value of the
output of the last pass of every loop to the results; so a resolver sees it, and what that does with
it is not the same any more.
-/

namespace Stepwise

variable {υ α β : Type}

theorem Plan.bind_done (p : Plan υ α) : p.bind .done = p := by
  induction p with
  | done => rfl
  | exhausted => rfl
  | report spans notice next ih => exact congrArg (report spans notice) ih
  | results update next ih => exact congrArg (results update) (funext ih)
  | invoke spans step args next ih => exact congrArg (invoke spans step args) (funext ih)

/-! ## Configurations that differ in labels and recording -/

section Congruence

variable {c c' : Config} (hcatch : c'.catchPanics = c.catchPanics)

include hcatch

end Congruence

/-- What a configuration makes a result of, of what an item comes to where loops are recorded. -/
def Config.kept (config : Config) (kind : ItemKind) (output : Option Values) : Option Values :=
  if kind = .loop ∧ config.recordLoopResults = false then none else output

section Recording

variable {c c' : Config} (hrecord : c.recordLoopResults = true)

include hrecord

variable (hcatch : c'.catchPanics = c.catchPanics) {acts : List (Act υ)}
  (blind : ∀ act ∈ acts, act.Blind) {st st' : Store υ} (hst : st.untraced = st'.untraced)

include hcatch blind hst

end Recording

/-! ## Results of loops -/

namespace Host

end Host

end Stepwise
