import Stepwise.Step
/-!
# Sequences

The declared program: a list of items, each a list of slots, each a predicate and the actions it
guards. A sequence grows at its end only, clause by clause; a clause that does not fit is refused
and leaves it as it was.
-/

namespace Stepwise

/-- A predicate, and the actions that run in order where it holds. -/
structure Slot (υ : Type) where
  predicate : Step υ
  actions : List (Step υ) := []

namespace Slot

variable {υ : Type}

/-- The unconditional slot that starts with the given action. -/
def otherwise (action : Step υ) : Slot υ := { predicate := .always, actions := [action] }

def compose (slot : Slot υ) (action : Step υ) : Slot υ :=
  { slot with actions := slot.actions ++ [action] }

/-- Without actions a slot succeeds with no value. -/
def hasDefaultAction (slot : Slot υ) : Bool := slot.actions.isEmpty

end Slot

structure Item (υ : Type) where
  kind : ItemKind
  slots : List (Slot υ)
  /-- Whether no further slot may follow. -/
  closed : Bool

namespace Item

variable {υ : Type}

def chain (initial : Values) : Item υ :=
  { kind := .chain, slots := [.otherwise (.constant initial)], closed := true }

def condition (predicate : Step υ) : Item υ :=
  { kind := .condition, slots := [{ predicate }], closed := false }

def loop (predicate : Step υ) : Item υ :=
  { kind := .loop, slots := [{ predicate }], closed := true }

/-- Adds a slot, which an item that is not a condition or is closed refuses. -/
def addSlot (item : Item υ) (clause : Attachment) (slot : Slot υ) :
    Except BuildError (Item υ) :=
  if item.kind ≠ .condition then .error (.notACondition clause item.kind)
  else if item.closed then .error (.afterElse clause)
  else .ok { item with slots := item.slots ++ [slot] }

/-- Composes an action onto the last slot. -/
def compose (item : Item υ) (action : Step υ) : Except BuildError (Item υ) :=
  match item.slots.getLast? with
  | some slot => .ok { item with slots := item.slots.dropLast ++ [slot.compose action] }
  | none => .error (.noOpenItem .andThen)

end Item

structure Sequence (υ : Type) where
  items : List (Item υ) := []

/-- The clauses a flow is declared with. -/
inductive Clause (υ : Type) where
  | chain (initial : Values)
  | condition (predicate : Step υ)
  | loop (predicate : Step υ)
  | elseIf (predicate : Step υ)
  | otherwise (action : Step υ)
  | andThen (action : Step υ)

namespace Sequence

variable {υ : Type}

def empty : Sequence υ := {}

def length (s : Sequence υ) : Nat := s.items.length

def push (s : Sequence υ) (item : Item υ) : Sequence υ := { items := s.items ++ [item] }

/-- Changes the item opened last on behalf of a clause; without one the clause is refused. -/
def updateLast (s : Sequence υ) (clause : Attachment)
    (update : Item υ → Except BuildError (Item υ)) : Except BuildError (Sequence υ) :=
  match s.items.getLast? with
  | none => .error (.noOpenItem clause)
  | some item =>
    match update item with
    | .ok item => .ok { items := s.items.dropLast ++ [item] }
    | .error e => .error e

def addBranch (s : Sequence υ) (predicate : Step υ) : Except BuildError (Sequence υ) :=
  s.updateLast .elseIf fun item => item.addSlot .elseIf { predicate }

/-- Adds the last, unconditional slot and closes the item. -/
def addFallback (s : Sequence υ) (action : Step υ) : Except BuildError (Sequence υ) :=
  s.updateLast .otherwise fun item =>
    match item.addSlot .otherwise (.otherwise action) with
    | .ok item => .ok { item with closed := true }
    | .error e => .error e

def compose (s : Sequence υ) (action : Step υ) : Except BuildError (Sequence υ) :=
  s.updateLast .andThen fun item => item.compose action

/-- The sequence after one more clause. -/
def declare (s : Sequence υ) : Clause υ → Except BuildError (Sequence υ)
  | .chain initial => .ok (s.push (.chain initial))
  | .condition predicate => .ok (s.push (.condition predicate))
  | .loop predicate => .ok (s.push (.loop predicate))
  | .elseIf predicate => s.addBranch predicate
  | .otherwise action => s.addFallback action
  | .andThen action => s.compose action

end Sequence

end Stepwise
