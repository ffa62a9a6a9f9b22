import RunControl.Components.Reply
import RunControl.Json.Printer
import RunControl.Rpc.Plan

/-!
Commands to components. A command is sent once, whatever comes back.
-/

namespace RunControl.Command

/-- Sends a command and decodes the reply. -/
def send (host : String) (port : UInt16) (command : String) (args : List String) :
    Plan (Except RpcError Reply) := do
  match ← Plan.request (.command host port command args) with
  | .ok payload => return Reply.decode payload
  | .error e => return .error e

/-- Sends a command to where a component takes them. -/
def sendTo (c : Component) (command : String) (args : List String) :
    Plan (Except RpcError Reply) :=
  send c.host c.port command args

/-- The document that configures a component: all of its description. -/
def configuration (c : Component) : String :=
  c.toJson.compact

/-- Configures a component. -/
def configure (c : Component) : Plan (Except RpcError Reply) :=
  sendTo c "configure" [configuration c]

/-- Takes a component's configuration back. -/
def unconfigure (c : Component) : Plan (Except RpcError Reply) :=
  sendTo c "unconfigure" []

/-- Starts a run. -/
def start (c : Component) (run : Nat) : Plan (Except RpcError Reply) :=
  sendTo c "start" [toString run]

/-- Stops the run. -/
def stop (c : Component) : Plan (Except RpcError Reply) :=
  sendTo c "stop" []

/-- Shuts a component's modules down. -/
def shutdown (c : Component) : Plan (Except RpcError Reply) :=
  sendTo c "down" []

/-- Sends a command of the component's own. -/
def custom (c : Component) (name : String) (arg : Option String) : Plan (Except RpcError Reply) :=
  sendTo c "custom" (name :: arg.toList)

/-- Asks for the states of the declared modules. -/
def statusReport (c : Component) : Plan (Except RpcError StatusReport) := do
  return (← sendTo c "status" []).map fun r => r.statusReport c

end RunControl.Command
