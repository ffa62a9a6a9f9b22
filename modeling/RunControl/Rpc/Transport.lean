import RunControl.Rpc.Endpoint
import RunControl.Rpc.Plan
import RunControl.Wire.Component

/-!
Calls over the network: the message that is sent for a request, and what becomes of
the answer.

A `Network` says what happens to a message that is sent to a URL, be it that no
connection comes about. `Network.answer` plays it as an answerer, so every plan can be
run over a network.
-/

namespace RunControl.Transport

open Utf8 (Bytes)

/-- A message on its way: the path of the method and the bytes of the request. -/
structure Sent where
  path : String
  body : Bytes
  deriving DecidableEq, Repr

/-- What comes back on a connection. -/
inductive Response where
  /-- A reply message. -/
  | message (body : Bytes)
  /-- A status that is not OK. -/
  | status (code : StatusCode) (message : String)
  /-- The status OK without a reply message. -/
  | nothing
  /-- No answer in time. -/
  | silence
  deriving DecidableEq, Repr

/-- What becomes of a call. -/
inductive Delivery where
  /-- No connection comes about, for this reason. -/
  | unconnected (reason : String)
  | answered (response : Response)
  deriving DecidableEq, Repr

/-- The reason when a connection is refused. -/
def refused : Delivery :=
  .unconnected "transport error"

/-! ### Requests -/

/-- The message that is sent for an order. Logs are read from the start to the end. -/
def sentOrder : Order → Sent
  | .add group name settings =>
    ⟨Wire.supervisorPath "AddProgramToGroup", Wire.addProgram.encode ⟨group, name, settings⟩⟩
  | .remove group name =>
    ⟨Wire.supervisorPath "RemoveProcessFromGroup", Wire.removeProcess.encode ⟨group, name⟩⟩
  | .start process wait =>
    ⟨Wire.supervisorPath "StartProcess", Wire.processControl.encode ⟨process, wait⟩⟩
  | .stop process wait =>
    ⟨Wire.supervisorPath "StopProcess", Wire.processControl.encode ⟨process, wait⟩⟩
  | .info process => ⟨Wire.supervisorPath "GetProcessInfo", Wire.getProcess.encode ⟨process⟩⟩
  | .list => ⟨Wire.supervisorPath "GetAllProcessInfo", Wire.getAllProcesses.encode ⟨⟩⟩
  | .read process .stdout =>
    ⟨Wire.supervisorPath "ReadProcessStdoutLog", Wire.readLog.encode ⟨process, 0, 0⟩⟩
  | .read process .stderr =>
    ⟨Wire.supervisorPath "ReadProcessStderrLog", Wire.readLog.encode ⟨process, 0, 0⟩⟩
  | .clear process => ⟨Wire.supervisorPath "ClearProcessLogs", Wire.clearLogs.encode ⟨process⟩⟩

/-- The message that is sent for a command. -/
def sentCommand (command : String) (args : List String) : Sent :=
  ⟨Wire.commandPath, Wire.commandRequest.encode ⟨command, args⟩⟩

/-! ### Answers -/

/-- The failure of a call that was answered with a status. -/
def failed {α : Type} (endpoint : String) (code : StatusCode) (message : String) :
    Except RpcError α :=
  .error (.ofStatus endpoint code message)

/-- The reply message of a call. A reply that does not decode is a fault of the
endpoint, and one that is missing too. -/
def receive {α : Type} (endpoint : String) (reply : Wire.Message α) :
    Delivery → Except RpcError α
  | .unconnected reason => .error (.unavailable endpoint ("connect failed: " ++ reason))
  | .answered (.message body) =>
    match reply.decode body with
    | .ok r => .ok r
    | .error e => failed endpoint .internal e.message
  | .answered (.status code message) => failed endpoint code message
  | .answered .nothing => failed endpoint .internal "Missing response message."
  | .answered .silence => failed endpoint .cancelled "Timeout expired"

/-- What an order gets back. -/
def receiveOrder (endpoint : String) : (o : Order) → Delivery → Except RpcError o.Reply
  | .add .., d => (receive endpoint Wire.ack d).map fun _ => ()
  | .remove .., d => (receive endpoint Wire.ack d).map fun _ => ()
  | .start .., d => (receive endpoint Wire.ack d).map fun _ => ()
  | .stop .., d => (receive endpoint Wire.ack d).map fun _ => ()
  | .info _, d => receive endpoint Wire.processInfo d
  | .list, d => (receive endpoint Wire.allProcesses d).map Wire.AllProcesses.processes
  | .read .., d => (receive endpoint Wire.logData d).map Wire.LogData.data
  | .clear _, d => (receive endpoint Wire.ack d).map fun _ => ()

/-- The bytes that a command gets back. -/
def receiveCommand (endpoint : String) (d : Delivery) : Except RpcError Bytes :=
  (receive endpoint Wire.commandReply d).map Wire.CommandReply.payload

/-! ### Networks -/

/-- What becomes of a message that is sent to a URL. -/
abbrev Network (σ : Type) := String → Sent → σ → Delivery × σ

/-- The network on which no connection comes about. -/
def disconnected {σ : Type} : Network σ := fun _ _ s =>
  (refused, s)

/-- Sends a message to a URL that can be used. -/
def call {σ α : Type} (network : Network σ) (endpoint : String) (m : Sent)
    (take : Delivery → Except RpcError α) (s : σ) : Except RpcError α × σ :=
  match Endpoint.urlFault? endpoint with
  | some fault => (.error (.unavailable endpoint ("invalid endpoint: " ++ fault.message)), s)
  | none =>
    let (d, s) := network endpoint m s
    (take d, s)

/-- Answers requests over a network, with all supervisors at one port. -/
def answer {σ : Type} (network : Network σ) (supervisorPort : UInt16) (now : String) : Answerer σ
  | .order host o, s =>
    let endpoint := Endpoint.url host supervisorPort
    call network endpoint (sentOrder o) (receiveOrder endpoint o) s
  | .command host port command args, s =>
    let endpoint := Endpoint.url host port
    call network endpoint (sentCommand command args) (receiveCommand endpoint) s
  | .now, s => (now, s)
  | .pause _, s => ((), s)

end RunControl.Transport
