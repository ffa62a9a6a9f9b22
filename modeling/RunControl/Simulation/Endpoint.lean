import RunControl.Components.Reply

/-!
The command endpoint of a component in memory, which keeps a state for each module.
-/

namespace RunControl.Simulation

open Utf8 (Bytes)

/-- The state of an endpoint. -/
structure Endpoint where
  /-- The states of the modules by name. -/
  modules : Table String
  /-- The bytes that answer every command, if set. -/
  rawReply : Option Bytes
  statusFails : Bool
  failingModules : List String
  deriving DecidableEq, Repr

namespace Endpoint

/-- An endpoint without modules. -/
def fresh : Endpoint :=
  ⟨.empty, none, false, []⟩

/-- The reply of a command that was carried out, with a success for each module. -/
def succeeded (modules : Table String) : Wire.CommandResult :=
  ⟨Reply.success, "", modules.map fun _ => ⟨Reply.success, ""⟩⟩

/-- The reply of a command that was not carried out. -/
def failed (response : String) : Wire.CommandResult :=
  ⟨"Error", response, .empty⟩

/-- Takes the modules of a configuration document, all of them ready. -/
def configure (e : Endpoint) (args : List String) : Wire.CommandResult × Endpoint :=
  match args with
  | document :: _ =>
    match Component.reader.ofText document with
    | .ok c =>
      let modules := Table.ofList (c.moduleNames.map fun m => (m, "ready"))
      (succeeded modules, { e with modules := modules })
    | .error _ => (failed "invalid configuration", e)
  | [] => (failed "invalid configuration", e)

/-- Brings all modules into a state, if there are any. -/
def transition (e : Endpoint) (state : String) : Wire.CommandResult × Endpoint :=
  if e.modules.isEmpty then (failed "No modules eligible for command.", e)
  else
    let modules := e.modules.map fun _ => state
    (succeeded modules, { e with modules := modules })

/-- The states of the modules, each as the response of its module. -/
def status (e : Endpoint) : Wire.CommandResult :=
  if e.statusFails then failed "status failed"
  else
    ⟨Reply.success, "", .ofList (e.modules.entries.map fun (m, state) =>
      (m, ⟨if e.failingModules.contains m then "Error" else Reply.success, state⟩))⟩

/-- Carries out a command. -/
def perform (e : Endpoint) (command : String) (args : List String) :
    Wire.CommandResult × Endpoint :=
  match command with
  | "configure" => e.configure args
  | "unconfigure" => e.transition "booted"
  | "start" => e.transition "running"
  | "stop" => e.transition "ready"
  | "down" => (succeeded .empty, { e with modules := .empty })
  | "custom" => (succeeded e.modules, e)
  | "status" => (e.status, e)
  | other => (failed ("unknown command " ++ other), e)

/-- Answers a command. -/
def answer (e : Endpoint) (command : String) (args : List String) : Bytes × Endpoint :=
  match e.rawReply with
  | some raw => (raw, e)
  | none =>
    let (result, e) := e.perform command args
    (Wire.commandResult.encode result, e)

end Endpoint

end RunControl.Simulation
