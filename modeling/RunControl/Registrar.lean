import RunControl.HostEnvironment.Saga
import RunControl.Template

/-!
Registering processes with their logs.

The settings that are submitted keep their placeholders, which the supervisor expands
on the host. The settings that are given back are expanded here, as far as the host's
environment is known.
-/

namespace RunControl

/-- A process to be registered. -/
structure ProcessRequest where
  name : String
  executable : String
  directory : String
  environment : Table String
  command : String
  deriving DecidableEq, Repr

/-- A registered process. -/
structure Registration where
  host : String
  logFile : String
  settings : Table String
  /-- Whether the host's environment was known. -/
  resolved : Bool
  deriving DecidableEq, Repr

namespace Registrar

/-- The log file of a process, in the host's directory for logs. -/
def logFileTemplate (name user stamp : String) : String :=
  Template.placeholder (Template.variableKey "DAQ_LOG_DIR") ++ name ++ "-" ++ user ++ "-" ++
    stamp ++ ".log"

/-- The specification that is submitted for a request. -/
def submitted (user stamp : String) (r : ProcessRequest) : ProcessSpec where
  name := r.name
  executable := r.executable
  directory := r.directory
  command := r.command
  environment := r.environment
  logFile := logFileTemplate r.name user stamp
  user := user

/-- The registration that is given back: expanded if any placeholder has a value. -/
def registered (host : String) (vars : Table String) (s : ProcessSpec) : Registration :=
  let shown := if vars.isEmpty then s else s.mapTemplates (Template.substitute vars)
  ⟨host, shown.logFile, shown.settings, !vars.isEmpty⟩

/-- The host variables that may stand in placeholders. -/
def vocabulary (c : Config) : Template.Vocabulary :=
  ⟨c.placeholderKeys⟩

/-- Registers a process on a host without starting it. An environment that cannot be
had leaves the placeholders as they are. -/
def register (c : Config) (host : String) (r : ProcessRequest) :
    Plan (Except RpcError Registration) := do
  let stamp ← Plan.request .now
  let spec := submitted c.user stamp r
  let b : Binding := ⟨host, c.group⟩
  match ← b.add spec with
  | .error e => return .error e
  | .ok () =>
    let environment := match ← HostEnvironment.resolve b c.poll with
      | .ok environment => environment
      | .error _ => .empty
    return .ok (registered host ((vocabulary c).values environment) spec)

end Registrar

end RunControl
