import Stepwise.Config
import Stepwise.Text.Blank
/-!
# Configuration from the environment

Three variables override a configuration, each on its own. A variable that is unset, or is not
UTF-8, leaves its field alone. Flags are read without regard to case and to blanks around them.
-/

namespace Stepwise

/-- Why a configuration could not be read. -/
inductive ConfigError where
  | malformed
  | invalidValue (key value : String)
deriving DecidableEq, Repr

def ConfigError.message : ConfigError → String
  | malformed => "Failed to parse flow configuration"
  | invalidValue key value => s!"Invalid value for {key}: {value}"

/-- The variables that are set, with their bytes. -/
abbrev Environment := List (String × ByteArray)

/-- The text of a variable that is set to UTF-8. -/
def Environment.text? (env : Environment) (key : String) : Option String :=
  (env.find? (·.1 == key)).bind fun entry => String.fromUTF8? entry.2

/-- The truth value that a word stands for. -/
def flagOf? (text : String) : Option Bool :=
  let word := Text.lower (Text.trim text)
  if ["1", "true", "yes", "on"].contains word then some true
  else if ["0", "false", "no", "off"].contains word then some false
  else none

namespace Config

def labelKey : String := "FLOWCTL_LABEL"

def recordKey : String := "FLOWCTL_RECORD_LOOP_RESULTS"

def catchKey : String := "FLOWCTL_CATCH_PANICS"

/-- A flag from a variable; an unset one keeps the given value. -/
def flagFrom (env : Environment) (key : String) (default : Bool) : Except ConfigError Bool :=
  match env.text? key with
  | none => .ok default
  | some text =>
    match flagOf? text with
    | some flag => .ok flag
    | none => .error (.invalidValue key text)

/-- The configuration with the overrides of the environment. -/
def override (base : Config) (env : Environment) : Except ConfigError Config := do
  let recordLoopResults ← flagFrom env recordKey base.recordLoopResults
  let catchPanics ← flagFrom env catchKey base.catchPanics
  return { label := (env.text? labelKey).or base.label, recordLoopResults, catchPanics }

/-- The default configuration with the overrides of the environment. -/
def ofEnvironment (env : Environment) : Except ConfigError Config :=
  override {} env

end Config

end Stepwise
