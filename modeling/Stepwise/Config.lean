/-!
# Flow configuration

A label for traces, whether a loop item records the result of its last pass, and whether a panic in
a step becomes an error of the run.
-/

namespace Stepwise

structure Config where
  label : Option String := none
  recordLoopResults : Bool := false
  catchPanics : Bool := true
deriving DecidableEq, Repr, Inhabited

/-- The name of the flow in traces. -/
def Config.spanLabel (config : Config) : String :=
  config.label.getD "flow"

end Stepwise
