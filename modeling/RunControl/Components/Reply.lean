import RunControl.Deployment.Status
import RunControl.Rpc.Error
import RunControl.Wire.Component

/-!
What a component replies to a command.

The status of a reply says whether the component carried out the command. In the
reply to a question for the status each module's response is its state.
-/

namespace RunControl

open Utf8 (Bytes)

/-- The reply of a component. -/
structure Reply where
  status : String
  response : String
  modules : Table Wire.ModuleResult
  deriving DecidableEq, Repr

namespace Reply

/-- The status of success. -/
def success : String := "Success"

/-- The reply in the bytes of a component's answer; a reply must have a status. -/
def decode (payload : Bytes) : Except RpcError Reply :=
  match Wire.commandResult.decode payload with
  | .error e => .error (.malformedReply ("invalid command result: " ++ e.message))
  | .ok r =>
    if r.status = "" then .error (.malformedReply "command result has no status")
    else .ok ⟨r.status, r.response, r.modules⟩

/-- Whether the command was carried out. -/
def isSuccess (r : Reply) : Bool :=
  r.status = success

/-- The state of a module: its response if both the reply and the module succeeded. -/
def moduleState (r : Reply) (module : String) : String :=
  match r.modules.get? module with
  | some m => if r.isSuccess ∧ m.status = success then m.response else StatusReport.unknown
  | none => StatusReport.unknown

/-- The states of a component's declared modules. -/
def statusReport (r : Reply) (c : Component) : StatusReport :=
  ⟨c.moduleNames.map fun m => ⟨m, r.moduleState m⟩⟩

/-- The JSON object of a module's part. -/
def moduleToJson (m : Wire.ModuleResult) : Json :=
  .object [("response", .string m.response), ("status", .string m.status)]

/-- The JSON object of a reply, with its members in order of their names. -/
def toJson (r : Reply) : Json :=
  .object [("modules", .ofTable (r.modules.map moduleToJson)), ("response", .string r.response),
    ("status", .string r.status)]

end Reply

end RunControl
