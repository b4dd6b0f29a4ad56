import Stepwise.Kinds
import Stepwise.Values
/-!
# Failures

Mistakes in the declaration of a flow, panics, causes that user code fails with, and the error that
a run ends with. A cause may be the error of another flow, so causes and flow errors are defined
together; each has one function for its text.
-/

namespace Stepwise

/-- A mistake made while declaring a flow. -/
inductive BuildError where
  | noOpenItem (clause : Attachment)
  | notACondition (clause : Attachment) (kind : ItemKind)
  | afterElse (clause : Attachment)
deriving DecidableEq, Repr

def BuildError.message : BuildError → String
  | noOpenItem clause => s!"`{clause.word}` declared before any chain, if or while clause"
  | notACondition clause kind =>
    s!"`{clause.word}` can only follow an if clause, found a {kind.word} clause"
  | afterElse clause => s!"`{clause.word}` declared after else"

/-- The payload of a panic in user code. -/
inductive Panic where
  | text (message : String)
  | other
deriving DecidableEq, Repr

/-- The text under which a caught panic is reported. -/
def Panic.message : Panic → String
  | text message => message
  | other => "unexpected panic without message"

mutual

/-- The error a run ends with. -/
inductive FlowError where
  /-- A step failed; its cause is kept as it is. -/
  | failed (cause : Cause)
  | panicked (message : String)
  /-- A step lost its continuation without completing it. -/
  | abandoned
  | build (error : BuildError)

/-- What user code fails with. -/
inductive Cause where
  | message (text : String)
  /-- A typed error of user code, which can be recognised behind any context. -/
  | outOfStock (item : Nat)
  /-- The error of another flow, passed on. -/
  | flow (error : FlowError)
  | context (text : String) (inner : Cause)

end

mutual

def FlowError.message : FlowError → String
  | .failed cause => cause.text
  | .panicked message => "step panicked: " ++ message
  | .abandoned => "step dropped its continuation without completing"
  | .build error => "invalid flow: " ++ error.message

/-- The outermost text of a cause. -/
def Cause.text : Cause → String
  | .message text => text
  | .outOfStock item => s!"item {item} is out of stock"
  | .flow error => error.message
  | .context text _ => text

end

namespace Cause

/-- The item number, if an out-of-stock error lies behind the contexts of this cause. -/
def outOfStock? : Cause → Option Nat
  | outOfStock item => some item
  | context _ inner => inner.outOfStock?
  | _ => none

/-- The flow error behind the contexts of this cause, if there is one. -/
def flow? : Cause → Option FlowError
  | flow error => some error
  | context _ inner => inner.flow?
  | _ => none

def ofAccess (error : AccessError) : Cause :=
  message error.message

end Cause

namespace FlowError

def isBuild : FlowError → Bool
  | build _ => true
  | _ => false

/-- The cause a step failed with. -/
def cause? : FlowError → Option Cause
  | failed cause => some cause
  | _ => none

def outOfStock? (error : FlowError) : Option Nat :=
  error.cause?.bind Cause.outOfStock?

def flow? (error : FlowError) : Option FlowError :=
  error.cause?.bind Cause.flow?

end FlowError

/-- How a step ended: its output, or its error. -/
abbrev Settlement := Except FlowError Values

/-- The settlement that the result of user code amounts to. -/
def Settlement.ofResult : Except Cause Values → Settlement
  | .ok output => .ok output
  | .error cause => .error (.failed cause)

end Stepwise
