import RunControl.Text.Blank
import RunControl.Text.Cut
import RunControl.Text.Numeral
import RunControl.Text.Utf8

/-!
The configuration of the control plane, taken from environment variables.

Every environment gives a usable configuration: a value that is missing, blank, not
text or not of the wanted form counts as unset, and numbers are brought into range.
-/

namespace RunControl

/-- How often, and after what pauses, the environment helper is asked for its state. -/
structure PollBudget where
  /-- The pause between two questions, in milliseconds. -/
  interval : Nat
  attempts : Nat
  deriving DecidableEq, Repr

/-- The configuration of the control plane. -/
structure Config where
  group : String
  supervisorPort : UInt16
  /-- The time for one call, in milliseconds. -/
  rpcTimeout : Nat
  poll : PollBudget
  /-- The host variables that are known as placeholders. -/
  placeholderKeys : List String
  user : String
  /-- Whether a status may fall back on the supervisor. -/
  useSupervisor : Bool
  deriving DecidableEq, Repr

namespace Config

/-- The group of processes when none is named. -/
def defaultGroup : String := "daqling"

/-- The port of supervisors when none is named. -/
def defaultSupervisorPort : UInt16 := 9001

/-- The host variables when none are named. -/
def defaultPlaceholderKeys : List String :=
  ["DAQ_BUILD_DIR", "LD_LIBRARY_PATH", "DAQ_LOG_DIR", "DAQ_SCRIPT_DIR"]

/-- The value of a variable without blanks at its ends, unless nothing is left. Bytes
that are no text are no value. -/
def setting? (value : Option Utf8.Bytes) : Option (List Char) := do
  let text ← Utf8.decodeChars? (← value)
  let trimmed := Text.trim text
  if trimmed.isEmpty then none else some trimmed

/-- A number below 2^64 brought into a range, or the usual one. -/
def clamped (low high usual : Nat) (raw : Option (List Char)) : Nat :=
  max low (min high ((raw.bind (Text.countUpTo? (UInt64.size - 1))).getD usual))

/-- A port from 1 to 65535, or the usual one. -/
def portSetting (raw : Option (List Char)) : UInt16 :=
  match raw.bind (Text.countUpTo? 65535) with
  | some n => if n = 0 then defaultSupervisorPort else UInt16.ofNat n
  | none => defaultSupervisorPort

/-- The parts of a list with commas that are not blank, or the usual keys. -/
def keysSetting (raw : Option (List Char)) : List String :=
  let parts := Text.pieces [','] (by decide) (raw.getD [])
  let keys := (parts.map Text.trim).filter (! ·.isEmpty)
  if keys.isEmpty then defaultPlaceholderKeys else keys.map String.ofList

/-- A switch; the letters' case does not count. -/
def flagSetting (usual : Bool) (raw : Option (List Char)) : Bool :=
  let word := String.ofList ((raw.getD []).map Char.toLower)
  if ["1", "true", "yes", "on"].contains word then true
  else if ["0", "false", "no", "off"].contains word then false
  else usual

/-- The names of the variables that a configuration is taken from. -/
def variableNames : List String :=
  ["DAQ_GROUP", "DAQ_SUPERVISOR_PORT", "DAQ_RPC_TIMEOUT_MS", "DAQ_ENV_POLL_INTERVAL_MS",
    "DAQ_ENV_POLL_ATTEMPTS", "DAQ_PLACEHOLDER_KEYS", "USER", "DAQ_USE_SUPERVISOR"]

/-- The configuration in an environment. -/
def ofEnvironment (value : String → Option Utf8.Bytes) : Config :=
  let setting := fun name => setting? (value name)
  { group := ((setting "DAQ_GROUP").map String.ofList).getD defaultGroup
    supervisorPort := portSetting (setting "DAQ_SUPERVISOR_PORT")
    rpcTimeout := clamped 100 600000 5000 (setting "DAQ_RPC_TIMEOUT_MS")
    poll :=
      { interval := clamped 1 5000 50 (setting "DAQ_ENV_POLL_INTERVAL_MS")
        attempts := clamped 1 1000 20 (setting "DAQ_ENV_POLL_ATTEMPTS") }
    placeholderKeys := keysSetting (setting "DAQ_PLACEHOLDER_KEYS")
    user := ((setting "USER").map String.ofList).getD ""
    useSupervisor := flagSetting true (setting "DAQ_USE_SUPERVISOR") }

/-- The configuration with another group. -/
def withGroup (c : Config) (group : String) : Config :=
  { c with group := group }

end Config

end RunControl
