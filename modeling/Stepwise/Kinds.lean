/-!
# Kinds of steps, items and clauses

The three ways a step may be written, the three kinds of item a flow is made of, and the clauses
that attach to an item already open, each with the word it goes by in texts.
-/

namespace Stepwise

/-- How a step reports: by returning, through a continuation, or by a task to be awaited. -/
inductive Shape where
  | sync
  | callback
  | future
deriving DecidableEq, Repr

def Shape.word : Shape → String
  | sync => "sync"
  | callback => "callback"
  | future => "future"

inductive ItemKind where
  /-- One unconditional slot seeded with given values. -/
  | chain
  /-- Slots of which the first match wins. -/
  | condition
  /-- One slot that runs as long as its predicate holds. -/
  | loop
deriving DecidableEq, Repr

def ItemKind.word : ItemKind → String
  | chain => "chain"
  | condition => "condition"
  | loop => "loop"

/-- A clause that continues an item opened before it. -/
inductive Attachment where
  | elseIf
  | otherwise
  | andThen
deriving DecidableEq, Repr

def Attachment.word : Attachment → String
  | elseIf => "else_if"
  | otherwise => "else"
  | andThen => "then"

end Stepwise
