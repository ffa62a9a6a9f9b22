import RunControl.Json.Reader

/-!
The lifecycle of a managed process.

A supervisor reports a state code and the time of the last start. `Lifecycle.ofReport`
maps every such pair onto seven states; `Lifecycle.isTerminal` says in which of them a
process can be removed as it is.
-/

namespace RunControl

/-! ### State codes of supervisors -/

namespace StateCode

def stopped : Int32 := 0
def starting : Int32 := 10
def running : Int32 := 20
def backoff : Int32 := 30
def stopping : Int32 := 40
def exited : Int32 := 100
def fatal : Int32 := 200

/-- The name that goes with a state code in a supervisor's reports. -/
def label (code : Int32) : String :=
  if code = stopped then "STOPPED"
  else if code = starting then "STARTING"
  else if code = running then "RUNNING"
  else if code = backoff then "BACKOFF"
  else if code = stopping then "STOPPING"
  else if code = exited then "EXITED"
  else if code = fatal then "FATAL"
  else "UNKNOWN"

end StateCode

/-! ### Lifecycle states -/

/-- Where a process stands in its life, as far as it is known. -/
inductive Lifecycle where
  | notRegistered
  | registered
  | starting
  | running
  | stopping
  | stopped
  | unknown
  deriving DecidableEq, Repr

namespace Lifecycle

/-- The state behind a supervisor's report. A stopped process that was never started
is registered, and a code that is not known says nothing. -/
def ofReport (code : Int32) (start : Int64) : Lifecycle :=
  if code = StateCode.stopped ∧ start = 0 then .registered
  else if code = StateCode.stopped ∨ code = StateCode.exited ∨ code = StateCode.fatal then .stopped
  else if code = StateCode.starting ∨ code = StateCode.backoff then .starting
  else if code = StateCode.running then .running
  else if code = StateCode.stopping then .stopping
  else .unknown

/-- Whether a process in this state can be removed without stopping it first. -/
def isTerminal : Lifecycle → Bool
  | .registered | .stopped => true
  | _ => false

/-- The word for a state in reports. -/
def word : Lifecycle → String
  | .notRegistered => "not_registered"
  | .registered => "registered"
  | .starting => "starting"
  | .running => "running"
  | .stopping => "stopping"
  | .stopped => "stopped"
  | .unknown => "unknown"

/-- The name of a state in JSON. -/
def name : Lifecycle → String
  | .notRegistered => "NotRegistered"
  | .registered => "Registered"
  | .starting => "Starting"
  | .running => "Running"
  | .stopping => "Stopping"
  | .stopped => "Stopped"
  | .unknown => "Unknown"

/-- Every state. -/
def all : List Lifecycle :=
  [.notRegistered, .registered, .starting, .running, .stopping, .stopped, .unknown]

/-- The state with this name. -/
def ofName? (s : String) : Option Lifecycle :=
  all.find? fun l => l.name = s

@[simp]
theorem ofName?_name (l : Lifecycle) : ofName? l.name = some l := by
  cases l <;> decide

/-- Reads a state by its name. -/
def reader : Json.Reader Lifecycle := fun room d => do
  let given ← Json.name (all.map name) room d
  return (ofName? given).getD .unknown

end Lifecycle

end RunControl
