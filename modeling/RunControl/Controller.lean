import RunControl.Components.Command
import RunControl.Deployment.Description
import RunControl.Registrar

/-!
Whole deployments: registering, starting and removing processes on their hosts, and
the state of components.

Each step tries every process, whatever became of the others. A component that cannot
be asked for its state is looked up at the supervisor, which knows at least whether
its process is registered.
-/

namespace RunControl.Controller

/-! ### What is registered -/

/-- Where the programs of components are built. -/
def buildDirectory : String :=
  Template.placeholder (Template.variableKey "DAQ_BUILD_DIR")

/-- The process of a component. -/
def componentRequest (c : Component) : ProcessRequest where
  name := c.name
  executable :=
    "bin/daqling --name " ++ c.name ++ " --port " ++ toString c.port.toNat ++
      " --core_lvl " ++ c.logLevels.core ++ " --module_lvl " ++ c.logLevels.module ++
      " --connection_lvl " ++ c.logLevels.connection
  directory := buildDirectory
  environment := .ofList
    [("LD_LIBRARY_PATH",
        Template.placeholder (Template.variableKey "LD_LIBRARY_PATH") ++ ":" ++ buildDirectory ++
          "/lib/"),
      ("TDAQ_ERS_STREAM_LIBS", "DaqlingStreams")]
  command := ""

/-- The process of a script. -/
def scriptRequest (s : Script) : ProcessRequest where
  name := s.name
  executable := s.executable
  directory := Template.placeholder (Template.variableKey "DAQ_SCRIPT_DIR") ++ s.directory
  environment := .empty
  command := s.command

/-! ### Processes -/

/-- The host and log file of a registered process. -/
structure LogLocation where
  host : String
  file : String
  deriving DecidableEq, Repr

/-- Registers processes and gives the logs of those that could be registered. -/
def registerAll (c : Config) (items : List (String × ProcessRequest)) :
    Plan (List LogLocation) := do
  let results ← Plan.forEach items fun (host, r) => Registrar.register c host r
  return results.filterMap fun
    | .ok r => some ⟨r.host, r.logFile⟩
    | .error _ => none

/-- Registers the processes of components. -/
def addComponents (c : Config) (components : List Component) : Plan (List LogLocation) :=
  registerAll c (components.map fun component => (component.host, componentRequest component))

/-- Registers the processes of scripts. -/
def addScripts (c : Config) (scripts : List Script) : Plan (List LogLocation) :=
  registerAll c (scripts.map fun s => (s.host, scriptRequest s))

/-- The group's processes on a component's host. -/
def bindingOf (c : Config) (component : Component) : Binding :=
  ⟨component.host, c.group⟩

/-- Starts the process of a component, and gives the component's name if it started. -/
def bootOne (c : Config) (component : Component) : Plan (Option String) := do
  match ← (bindingOf c component).start component.name with
  | .ok () => return some component.name
  | .error _ => return none

/-- Starts the processes of components and gives the names of those that started. -/
def bootComponents (c : Config) (components : List Component) : Plan (List String) := do
  let names ← Plan.forEach components (bootOne c)
  return names.filterMap id

/-- Removes a component's process and further ones on its host. -/
def removeOne (c : Config) (extra : List String) (component : Component) : Plan Unit := do
  let _ ← Plan.forEach (component.name :: extra) (bindingOf c component).remove
  return ()

/-- Removes the processes of components, and on the host of each the further ones. -/
def removeComponents (c : Config) (components : List Component) (extra : List String) :
    Plan Unit := do
  let _ ← Plan.forEach components (removeOne c extra)
  return ()

/-- The process ids of the group on a host. -/
def processIds (c : Config) (host : String) : Plan (Except RpcError (Table UInt32)) :=
  (⟨host, c.group⟩ : Binding).processIds

/-! ### Status -/

/-- The state of modules that cannot be asked, by what the supervisor says of their
process. No answer says nothing about whether the process is registered. -/
def fallbackState : Except RpcError ProcessInfo → String
  | .ok _ => StatusReport.added
  | .error e => if e.isBadName then StatusReport.notAdded else StatusReport.unknown

/-- The states of a component's modules. -/
def status (c : Config) (component : Component) : Plan StatusReport := do
  match ← Command.statusReport component with
  | .ok report => return report
  | .error _ =>
    if c.useSupervisor then
      return .uniform component (fallbackState (← (bindingOf c component).info component.name))
    else return .uniform component StatusReport.unknown

end RunControl.Controller
