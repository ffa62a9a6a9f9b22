import RunControl.Wire.Message

/-!
The messages and the method of the components' service.
-/

namespace RunControl.Wire

open Utf8 (Bytes)

structure CommandRequest where
  command : String
  args : List String
  deriving DecidableEq, Repr

/-- The payload holds the bytes of a `CommandResult`. -/
structure CommandReply where
  payload : Bytes
  deriving DecidableEq, Repr

structure ModuleResult where
  status : String
  response : String
  deriving DecidableEq, Repr

structure CommandResult where
  status : String
  response : String
  modules : Table ModuleResult
  deriving DecidableEq, Repr

/-! ### Layouts -/

def commandRequest : Message CommandRequest :=
  ⟨"CommandRequest", ⟨"", []⟩,
    [.single 1 "command" .text CommandRequest.command fun r v => { r with command := v },
      .repeated 2 "args" .text CommandRequest.args fun r v => { r with args := v }]⟩

def commandReply : Message CommandReply :=
  ⟨"CommandReply", ⟨[]⟩,
    [.single 1 "payload" .bytes CommandReply.payload fun r v => { r with payload := v }]⟩

def moduleResult : Message ModuleResult :=
  ⟨"ModuleResult", ⟨"", ""⟩,
    [.single 1 "status" .text ModuleResult.status fun r v => { r with status := v },
      .single 2 "response" .text ModuleResult.response fun r v => { r with response := v }]⟩

def commandResult : Message CommandResult :=
  ⟨"CommandResult", ⟨"", "", .empty⟩,
    [.single 1 "status" .text CommandResult.status fun r v => { r with status := v },
      .single 2 "response" .text CommandResult.response fun r v => { r with response := v },
      .table 3 "modules" moduleResult.payload CommandResult.modules
        fun r v => { r with modules := v }]⟩

/-- The path of the method that takes commands. -/
def commandPath : String :=
  "/daq.component.v1.Component/Command"

end RunControl.Wire
