import RunControl.Config
import RunControl.HostEnvironment.Exports
import RunControl.Supervisor.Binding

/-!
The environment helper: a program that is registered on a host only to print the
variables its processes see.

The run of the helper is a saga. It keeps the stage that was acknowledged last, and
whatever stage it ends in, the steps owed for that stage are taken back: the logs are
cleared once the helper was started, and the helper is removed once it was
registered. Before the helper was started a failure means that there is no
environment to be had; after that it is reported.
-/

namespace RunControl.HostEnvironment

open Exports (Environment)

/-- The name of the helper; there is one in each group on a host. -/
def helperName : String := "printenv"

/-- The settings of the helper. -/
def helperSettings : Table String :=
  .ofList [("command", "bash -c \"export -p\""), ("autostart", "false"),
    ("autorestart", "false"), ("startsecs", "0")]

/-! ### Stages -/

/-- How far a saga has come. -/
inductive Stage where
  | notStarted
  /-- The helper was added, or found from an earlier run. -/
  | registered
  | started
  /-- The helper came to rest in time. -/
  | completed
  | logRead
  deriving DecidableEq, Repr

/-- A step that takes something back. -/
inductive Compensation where
  | clearLogs
  | remove
  deriving DecidableEq, Repr

namespace Stage

/-- The position of a stage. -/
def rank : Stage → Nat
  | .notStarted => 0
  | .registered => 1
  | .started => 2
  | .completed => 3
  | .logRead => 4

/-- The steps owed for a stage, in order. -/
def compensations (s : Stage) : List Compensation :=
  (if started.rank ≤ s.rank then [.clearLogs] else []) ++
    (if registered.rank ≤ s.rank then [.remove] else [])

/-- Whether a failure in a stage only means that there is no environment. -/
def swallowsFailure (s : Stage) : Bool :=
  s.rank ≤ registered.rank

end Stage

/-! ### The saga -/

/-- How a saga ended. -/
structure Ending where
  stage : Stage
  /-- What the helper printed. -/
  outcome : Except RpcError String

/-- Waits for the helper to rest, with up to `attempts` pauses. A helper that is still
not known to rest is stopped. -/
def await (b : Binding) (interval : Nat) : Nat → Plan Bool
  | 0 => do
    if (← b.state helperName).isTerminal then return true
    else
      let _ ← b.stop helperName
      return false
  | attempts + 1 => do
    if (← b.state helperName).isTerminal then return true
    else
      let _ ← Plan.request (.pause interval)
      await b interval attempts

/-- What a saga waits for. -/
def awaited (b : Binding) : String :=
  b.identifier helperName ++ " on " ++ b.host

/-- Starts the helper, waits for it and reads what it printed. The other log is read
when the start fails, for the record only. -/
def launch (b : Binding) (poll : PollBudget) : Plan Ending := do
  match ← b.start helperName with
  | .error e =>
    let _ ← b.readLog helperName .stderr
    return ⟨.registered, .error e⟩
  | .ok () =>
    if ← await b poll.interval poll.attempts then
      match ← b.readLog helperName .stdout with
      | .error e => return ⟨.completed, .error e⟩
      | .ok log => return ⟨.logRead, .ok (Utf8.decodeLossy log)⟩
    else return ⟨.started, .error (.timeout (awaited b))⟩

/-- Registers the helper and launches it. A helper left from an earlier run is used
again, after it was stopped unless it rests. -/
def attempt (b : Binding) (poll : PollBudget) : Plan Ending := do
  if ← b.hasProcess helperName then
    if (← b.state helperName).isTerminal then launch b poll
    else
      match ← b.stop helperName with
      | .ok () => launch b poll
      | .error e => if e.isNotRunning then launch b poll else return ⟨.registered, .error e⟩
  else
    match ← b.addSettings helperName helperSettings with
    | .ok () => launch b poll
    | .error e => return ⟨.notStarted, .error e⟩

/-- Takes a step back. -/
def Compensation.plan (b : Binding) : Compensation → Plan (Except RpcError Unit)
  | .clearLogs => b.clearLogs helperName
  | .remove => b.remove helperName

/-- Takes the steps owed for a stage. A step that fails does not keep the next from
being taken. -/
def compensate (b : Binding) (s : Stage) : Plan Unit := do
  let _ ← Plan.forEach s.compensations (Compensation.plan b)
  return ()

/-- The environment that an ending shows. -/
def Ending.environment (e : Ending) : Except RpcError Environment :=
  match e.outcome with
  | .ok text => .ok (Exports.parse text)
  | .error error => if e.stage.swallowsFailure then .ok .empty else .error error

/-- Finds the environment of a host's processes; the empty one when it cannot be had.
The helper is taken back whatever happens. -/
def resolve (b : Binding) (poll : PollBudget) : Plan (Except RpcError Environment) := do
  let ending ← attempt b poll
  compensate b ending.stage
  return ending.environment

end RunControl.HostEnvironment
