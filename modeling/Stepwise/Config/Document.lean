import Stepwise.Config.Environment
import Stepwise.Toml.Document
/-!
# Configuration from a document

A TOML document sets the fields of the configuration that it names at its root, each with a value of
the field's own type. Anything else in it is ignored, but must be well-formed.
-/

namespace Stepwise.Config

open Toml

/-- A flag of the root table, or its default. -/
def flagIn (fields : Fields) (key : String) (default : Bool) : Except ConfigError Bool :=
  match fields.find? key with
  | none => .ok default
  | some (.boolean b) => .ok b
  | some _ => .error .malformed

def labelIn (fields : Fields) (default : Option String) : Except ConfigError (Option String) :=
  match fields.find? "label" with
  | none => .ok default
  | some (.string s) => .ok (some s)
  | some _ => .error .malformed

/-- The configuration that a document sets. -/
def ofToml (source : String) : Except ConfigError Config := do
  match Toml.ofText? source with
  | none => throw .malformed
  | some fields =>
    let base : Config := {}
    return {
      label := ← labelIn fields base.label
      recordLoopResults := ← flagIn fields "record_loop_results" base.recordLoopResults
      catchPanics := ← flagIn fields "catch_panics" base.catchPanics }

end Stepwise.Config
