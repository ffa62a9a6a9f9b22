import RunControl.Cli.Invocation
import RunControl.Cli.Report
import RunControl.Controller

/-!
Carrying out an invocation.

A command that goes to each component goes to all of them, whatever the first ones
reply. It succeeded when every component replied with success.
-/

namespace RunControl.Cli

/-- Reads the text of a file, if it can be read. -/
abbrev FileReader := String → Option String

/-- The words for what is wrong with a file. They come from the system and from the JSON reader,
and nothing but the text of a failure depends on them. -/
structure Diagnosis where
  /-- Why the file at a path cannot be read. -/
  unreadable : String → String
  /-- Where and why a text is not read. -/
  malformed : String → Json.ReadError → String
  deriving Inhabited

/-! ### The deployment -/

/-- The deployment at a path. -/
def loadDeployment (files : FileReader) (diagnosis : Diagnosis) (path : Option String) :
    Except Failure Deployment :=
  match path with
  | none => .error .noDeployment
  | some path =>
    match files path with
    | none => .error (.unreadable path (diagnosis.unreadable path))
    | some text =>
      match Deployment.reader.ofText text with
      | .ok d => .ok d
      | .error e => .error (.malformed path (diagnosis.malformed text e))

/-- The deployment that an invocation is about. Process ids need none. -/
def Invocation.load (files : FileReader) (diagnosis : Diagnosis) (i : Invocation) :
    Except Failure Deployment :=
  match i.action with
  | .pids _ => .ok .empty
  | _ => (loadDeployment files diagnosis i.deployment).map (Deployment.restrict i.only)

/-! ### Reports -/

/-- The host and log file of each process. -/
def logDocument (logs : List Controller.LogLocation) : Json :=
  .array (logs.map fun l => .array [.string l.host, .string l.file])

/-- The reply of a component. -/
def replyDocument (name : String) (r : Reply) : Json :=
  .object [("component", .string name), ("reply", r.toJson)]

/-- The states of a component's modules. -/
def statusDocument (name : String) (s : StatusReport) : Json :=
  .object [("component", .string name),
    ("modules", .array (s.entries.map ModuleStatus.toJson))]

/-- The report on the replies of components. -/
def commandReport (replies : List (String × Except RpcError Reply)) : Report :=
  let failed := replies.filterMap fun (name, reply) =>
    match reply with
    | .ok r => if r.isSuccess then none else some name
    | .error _ => some name
  { documents := replies.filterMap fun (name, reply) =>
      match reply with
      | .ok r => some (replyDocument name r)
      | .error _ => none
    failure := if failed.isEmpty then none else some (.commandFailed failed) }

/-! ### Actions -/

/-- Sends a command to each component. -/
def toEach (components : List Component)
    (command : Component → Plan (Except RpcError Reply)) : Plan Report := do
  let replies ← Plan.forEach components fun c => do return (c.name, ← command c)
  return commandReport replies

/-- Carries out an action on a deployment. -/
def Action.perform (c : Config) (d : Deployment) : Action → Plan Report
  | .add => do
    let logs ← Controller.addComponents c d.components
    return {
      documents := [logDocument logs]
      failure :=
        if logs.length = d.components.length then none
        else some (.notAllAdded logs.length d.components.length) }
  | .addScripts => do return .ofDocument (logDocument (← Controller.addScripts c d.scripts))
  | .boot => do return .ofDocument (.ofTexts (← Controller.bootComponents c d.components))
  | .remove extra => do
    Controller.removeComponents c d.components extra
    return ⟨[], none⟩
  | .configure => toEach d.components Command.configure
  | .unconfigure => toEach d.components Command.unconfigure
  | .start run => toEach d.components fun component => Command.start component run
  | .stop => toEach d.components Command.stop
  | .shutdown => toEach d.components Command.shutdown
  | .custom name arg => toEach d.components fun component => Command.custom component name arg
  | .status => do
    let documents ← Plan.forEach d.components fun component => do
      return statusDocument component.name (← Controller.status c component)
    return ⟨documents, none⟩
  | .pids host => do
    match ← Controller.processIds c host with
    | .ok ids => return .ofDocument (.ofTable (ids.map fun id => .ofNat id.toNat))
    | .error e => return .ofFailure (.rpc e)

/-- The configuration of an invocation: a group that is named wins. -/
def Invocation.configuration (c : Config) (i : Invocation) : Config :=
  match i.group with
  | some group => c.withGroup group
  | none => c

/-- Carries out an invocation. -/
def Invocation.perform (c : Config) (files : FileReader) (diagnosis : Diagnosis)
    (i : Invocation) : Plan Report :=
  match i.load files diagnosis with
  | .ok d => i.action.perform (i.configuration c) d
  | .error f => return .ofFailure f

end RunControl.Cli
