import Stepwise.Sequence
/-!
# Outlines

What a sequence declares, without the code in it: shapes and labels of its steps.
-/

namespace Stepwise

structure StepOutline where
  shape : Shape
  label : Option String
deriving DecidableEq, Repr

structure BranchOutline where
  predicate : StepOutline
  actions : List StepOutline
deriving DecidableEq, Repr

structure ItemOutline where
  index : Nat
  kind : ItemKind
  branches : List BranchOutline
deriving DecidableEq, Repr

structure Outline where
  items : List ItemOutline
deriving DecidableEq, Repr

variable {υ : Type}

def Step.outline (step : Step υ) : StepOutline :=
  { shape := step.shape, label := step.label }

def Slot.outline (slot : Slot υ) : BranchOutline :=
  { predicate := slot.predicate.outline, actions := slot.actions.map Step.outline }

def Item.outline (item : Item υ) (index : Nat) : ItemOutline :=
  { index, kind := item.kind, branches := item.slots.map Slot.outline }

def Sequence.outline (s : Sequence υ) : Outline :=
  { items := s.items.mapIdx fun index item => item.outline index }

end Stepwise
