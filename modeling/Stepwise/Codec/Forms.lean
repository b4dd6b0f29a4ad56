import Stepwise.Codec.Decoder
import Stepwise.Outline
import Stepwise.ResultSet
/-!
# Written forms

The values that configurations, outlines, argument lists and result sets are written as, and how
they are read back. A configuration lacks no field: what is not given has its default.
-/

namespace Stepwise

open Codec

namespace Shape

def toValue (shape : Shape) : Value := .string shape.word

def ofValue : Decoder Shape :=
  Codec.word [(sync.word, sync), (callback.word, callback), (future.word, future)]

end Shape

namespace ItemKind

def toValue (kind : ItemKind) : Value := .string kind.word

def ofValue : Decoder ItemKind :=
  Codec.word [(chain.word, chain), (condition.word, condition), (loop.word, loop)]

end ItemKind

namespace Values

def toValue (vs : Values) : Value := .array vs.toList

def ofValue (v : Value) : Except DecodeError Values := (list .ok v).map Values.mk

end Values

namespace ResultSet

def toValue (r : ResultSet) : Value := .array r.toList

def ofValue (v : Value) : Except DecodeError ResultSet := (list .ok v).map ResultSet.mk

end ResultSet

namespace Config

def toValue (config : Config) : Value :=
  .ofFields
    [("label", (config.label.map .string).getD .null),
      ("record_loop_results", .bool config.recordLoopResults),
      ("catch_panics", .bool config.catchPanics)]

/-- Takes in one field; keys that name none are ignored. -/
def withField (config : Config) (key : String) (v : Value) : Except DecodeError Config :=
  if key = "label" then return { config with label := ← optional string v }
  else if key = "record_loop_results" then
    return { config with recordLoopResults := ← boolean v }
  else if key = "catch_panics" then return { config with catchPanics := ← boolean v }
  else return config

/-- Takes in fields in order, as far as there are any. -/
def withElements : List (String × Value) → Config → Except DecodeError Config
  | [], config => .ok config
  | (key, v) :: rest, config => do withElements rest (← config.withField key v)

def ofValue : Decoder Config :=
  record "FlowConfig" 3 ({} : Config) withField .ok fun items =>
    withElements (["label", "record_loop_results", "catch_panics"].zip items) {}

end Config

namespace StepOutline

def toValue (o : StepOutline) : Value :=
  .ofFields (("shape", o.shape.toValue) :: (o.label.map fun l => ("label", .string l)).toList)

structure Draft where
  shape : Option Shape := none
  label : Option String := none

def Draft.withField (draft : Draft) (key : String) (v : Value) : Except DecodeError Draft :=
  if key = "shape" then return { draft with shape := some (← Shape.ofValue v) }
  else if key = "label" then return { draft with label := ← optional string v }
  else return draft

def Draft.finish (draft : Draft) : Except DecodeError StepOutline := do
  return { shape := ← required "shape" draft.shape, label := draft.label }

def ofValue : Decoder StepOutline :=
  record "StepOutline" 2 ({} : Draft) Draft.withField Draft.finish fun items => do
    let shape ← element items 0 "StepOutline" 2 Shape.ofValue
    let label ← optional string (items[1]?.getD .null)
    return { shape, label }

end StepOutline

namespace BranchOutline

def toValue (o : BranchOutline) : Value :=
  .ofFields
    [("predicate", o.predicate.toValue), ("actions", .array (o.actions.map StepOutline.toValue))]

structure Draft where
  predicate : Option StepOutline := none
  actions : Option (List StepOutline) := none

def Draft.withField (draft : Draft) (key : String) (v : Value) : Except DecodeError Draft :=
  if key = "predicate" then return { draft with predicate := some (← StepOutline.ofValue v) }
  else if key = "actions" then
    return { draft with actions := some (← list StepOutline.ofValue v) }
  else return draft

def Draft.finish (draft : Draft) : Except DecodeError BranchOutline := do
  return {
    predicate := ← required "predicate" draft.predicate
    actions := ← required "actions" draft.actions }

def ofValue : Decoder BranchOutline :=
  record "BranchOutline" 2 ({} : Draft) Draft.withField Draft.finish fun items => do
    let predicate ← element items 0 "BranchOutline" 2 StepOutline.ofValue
    let actions ← element items 1 "BranchOutline" 2 (list StepOutline.ofValue)
    return { predicate, actions }

end BranchOutline

namespace ItemOutline

def toValue (o : ItemOutline) : Value :=
  .ofFields
    [("index", .int o.index), ("kind", o.kind.toValue),
      ("branches", .array (o.branches.map BranchOutline.toValue))]

structure Draft where
  index : Option Nat := none
  kind : Option ItemKind := none
  branches : Option (List BranchOutline) := none

def Draft.withField (draft : Draft) (key : String) (v : Value) : Except DecodeError Draft :=
  if key = "index" then return { draft with index := some (← Codec.index v) }
  else if key = "kind" then return { draft with kind := some (← ItemKind.ofValue v) }
  else if key = "branches" then
    return { draft with branches := some (← list BranchOutline.ofValue v) }
  else return draft

def Draft.finish (draft : Draft) : Except DecodeError ItemOutline := do
  return {
    index := ← required "index" draft.index
    kind := ← required "kind" draft.kind
    branches := ← required "branches" draft.branches }

def ofValue : Decoder ItemOutline :=
  record "ItemOutline" 3 ({} : Draft) Draft.withField Draft.finish fun items => do
    let index ← element items 0 "ItemOutline" 3 Codec.index
    let kind ← element items 1 "ItemOutline" 3 ItemKind.ofValue
    let branches ← element items 2 "ItemOutline" 3 (list BranchOutline.ofValue)
    return { index, kind, branches }

end ItemOutline

namespace Outline

def toValue (o : Outline) : Value :=
  .ofFields [("items", .array (o.items.map ItemOutline.toValue))]

/-- Takes in one field; only the items matter. -/
def withField (items : Option (List ItemOutline)) (key : String) (v : Value) :
    Except DecodeError (Option (List ItemOutline)) :=
  if key = "items" then return some (← list ItemOutline.ofValue v) else return items

def ofValue : Decoder Outline :=
  record "Outline" 1 (none : Option (List ItemOutline)) withField
    (fun items => (required "items" items).map Outline.mk)
    fun items => (element items 0 "Outline" 1 (list ItemOutline.ofValue)).map Outline.mk

end Outline

end Stepwise
