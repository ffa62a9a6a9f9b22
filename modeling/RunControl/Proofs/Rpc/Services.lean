import Mathlib.Data.List.Basic
import RunControl.Proofs.Wire.RoundTrip
import RunControl.Rpc.Transport

/-!
What the services understand of calls, and what the callers make of the replies.

A service reads a message as the request type of its path. It reads from every call exactly what was
asked for, and no two calls look the same to it (`Understood`). Whatever a reply message holds is
given back, and so is the message of a status that is not OK (`Returns`). So over a network a caller
deals with what the service does on the requests themselves (`calls_understood`).
-/

namespace RunControl.Transport

open Utf8 (Bytes)
open Wire (Message DecodeError)

/-! ### Services -/

/-- A request as a service reads it. -/
inductive Incoming where
  | addProgram (r : Wire.AddProgram)
  | removeProcess (r : Wire.RemoveProcess)
  | startProcess (r : Wire.ProcessControl)
  | stopProcess (r : Wire.ProcessControl)
  | getProcess (r : Wire.GetProcess)
  | getAllProcesses (r : Wire.GetAllProcesses)
  | readStdout (r : Wire.ReadLog)
  | readStderr (r : Wire.ReadLog)
  | clearLogs (r : Wire.ClearLogs)
  | command (r : Wire.CommandRequest)
  deriving DecidableEq, Repr

/-- A method of a service: its path, and how the bytes of a request are read. -/
structure ServiceMethod where
  path : String
  read : Bytes → Except DecodeError Incoming

/-- The method at a path that takes one kind of message. -/
def ServiceMethod.taking {ρ : Type} (path : String) (m : Message ρ) (request : ρ → Incoming) :
    ServiceMethod :=
  ⟨path, fun body => (m.decode body).map request⟩

/-- The methods of the supervisor's service and the one of the components' service. -/
def methods : List ServiceMethod :=
  [.taking (Wire.supervisorPath "AddProgramToGroup") Wire.addProgram .addProgram,
    .taking (Wire.supervisorPath "RemoveProcessFromGroup") Wire.removeProcess .removeProcess,
    .taking (Wire.supervisorPath "StartProcess") Wire.processControl .startProcess,
    .taking (Wire.supervisorPath "StopProcess") Wire.processControl .stopProcess,
    .taking (Wire.supervisorPath "GetProcessInfo") Wire.getProcess .getProcess,
    .taking (Wire.supervisorPath "GetAllProcessInfo") Wire.getAllProcesses .getAllProcesses,
    .taking (Wire.supervisorPath "ReadProcessStdoutLog") Wire.readLog .readStdout,
    .taking (Wire.supervisorPath "ReadProcessStderrLog") Wire.readLog .readStderr,
    .taking (Wire.supervisorPath "ClearProcessLogs") Wire.clearLogs .clearLogs,
    .taking Wire.commandPath Wire.commandRequest .command]

/-- The request that a service reads from a message, if there is a method at its path. -/
def incoming? (m : Sent) : Option (Except DecodeError Incoming) :=
  (methods.find? fun method => method.path = m.path).map fun method => method.read m.body

/-- The network whose endpoints are services. What they do depends on the requests that they
read. -/
def serviced {σ : Type} (handle : String → Incoming → σ → Response × σ) : Network σ :=
  fun url m s =>
    match incoming? m with
    | some (.ok request) => (handle url request s).map .answered id
    | some (.error e) => (.answered (.status .internal e.message), s)
    | none => (.answered (.status .unimplemented ""), s)

/-! ### Calls -/

/-- A call to a service. -/
inductive Call where
  | order (order : Order)
  | command (command : String) (args : List String)
  deriving DecidableEq, Repr

namespace Call

/-- The message that is sent for the call. -/
def sent : Call → Sent
  | order o => sentOrder o
  | command c args => sentCommand c args

/-- Bytes are counted in 64 bits. -/
def Fits (c : Call) : Prop :=
  c.sent.body.length < 2 ^ 64

/-- What is asked for. -/
def incoming : Call → Incoming
  | order (.add group name settings) => .addProgram ⟨group, name, settings⟩
  | order (.remove group name) => .removeProcess ⟨group, name⟩
  | order (.start process wait) => .startProcess ⟨process, wait⟩
  | order (.stop process wait) => .stopProcess ⟨process, wait⟩
  | order (.info process) => .getProcess ⟨process⟩
  | order .list => .getAllProcesses ⟨⟩
  | order (.read process .stdout) => .readStdout ⟨process, 0, 0⟩
  | order (.read process .stderr) => .readStderr ⟨process, 0, 0⟩
  | order (.clear process) => .clearLogs ⟨process⟩
  | command c args => .command ⟨c, args⟩

/-- What is wanted of the message that is sent for a call. -/
structure Understood (c : Call) : Prop where
  /-- The service reads what is asked for. -/
  read : incoming? c.sent = some (.ok c.incoming)
  /-- Every other call is sent with another path or other bytes. -/
  alone : ∀ other : Call, other.sent = c.sent → other = c

end Call

/-! ### Reading calls -/

theorem paths_nodup : (methods.map ServiceMethod.path).Nodup := by
  decide +kernel

/-- A message is read by the method at its path. -/
theorem incoming?_of_mem {method : ServiceMethod} (member : method ∈ methods) (body : Bytes) :
    incoming? ⟨method.path, body⟩ = some (method.read body) := by
  have found : methods.find? (fun other => other.path = method.path) = some method := by
    rw [List.find?_eq_some_iff_append]
    obtain ⟨before, after, split⟩ := List.append_of_mem member
    refine ⟨decide_eq_true rfl, before, after, split, fun other earlier => ?_⟩
    have nodup := paths_nodup
    rw [split, List.map_append, List.nodup_append] at nodup
    have apart := nodup.2.2 other.path (List.mem_map_of_mem earlier) method.path (by simp)
    simpa using apart
  unfold incoming?
  rw [found]
  rfl

/-- What is written in the form that the method at the path takes is read. -/
theorem incoming?_encode {ρ : Type} {path : String} {m : Message ρ} {request : ρ → Incoming} {r : ρ}
    (member : .taking path m request ∈ methods) (trips : m.RoundTrips)
    (fits : (m.encode r).length < 2 ^ 64) :
    incoming? ⟨path, m.encode r⟩ = some (.ok (request r)) := by
  have read : (ServiceMethod.taking path m request).read (m.encode r) = .ok (request r) := by
    show (m.decode (m.encode r)).map request = _
    rw [trips.back r fits]
    rfl
  exact (incoming?_of_mem member _).trans (congrArg some read)

theorem Call.incoming?_sent {c : Call} (fits : c.Fits) :
    incoming? c.sent = some (.ok c.incoming) := by
  open Wire in
  cases c with
  | order o =>
      cases o with
      | add group name settings =>
          exact incoming?_encode (by simp [methods]) (addProgram_layout.roundTrips (by decide)) fits
      | remove group name =>
          exact incoming?_encode (by simp [methods]) (removeProcess_layout.roundTrips (by decide))
            fits
      | start process wait =>
          exact incoming?_encode (by simp [methods]) (processControl_layout.roundTrips (by decide))
            fits
      | stop process wait =>
          exact incoming?_encode (by simp [methods]) (processControl_layout.roundTrips (by decide))
            fits
      | info process =>
          exact incoming?_encode (by simp [methods]) (getProcess_layout.roundTrips (by decide)) fits
      | list =>
          exact incoming?_encode (by simp [methods]) (getAllProcesses_layout.roundTrips (by decide))
            fits
      | read process log =>
          cases log with
          | stdout =>
              exact incoming?_encode (by simp [methods]) (readLog_layout.roundTrips (by decide))
                fits
          | stderr =>
              exact incoming?_encode (by simp [methods]) (readLog_layout.roundTrips (by decide))
                fits
      | clear process =>
          exact incoming?_encode (by simp [methods]) (clearLogs_layout.roundTrips (by decide)) fits
  | command c args =>
      exact incoming?_encode (by simp [methods]) (commandRequest_layout.roundTrips (by decide)) fits

/-- The call that asks for something. -/
def Incoming.call : Incoming → Call
  | .addProgram r => .order (.add r.group r.name r.settings)
  | .removeProcess r => .order (.remove r.group r.name)
  | .startProcess r => .order (.start r.name r.wait)
  | .stopProcess r => .order (.stop r.name r.wait)
  | .getProcess r => .order (.info r.name)
  | .getAllProcesses _ => .order .list
  | .readStdout r => .order (.read r.name .stdout)
  | .readStderr r => .order (.read r.name .stderr)
  | .clearLogs r => .order (.clear r.name)
  | .command r => .command r.command r.args

theorem Call.call_incoming (c : Call) : c.incoming.call = c := by
  cases c with
  | order o =>
      cases o with
      | read process log => cases log <;> rfl
      | _ => rfl
  | command c args => rfl

theorem Call.understood {c : Call} (fits : c.Fits) : c.Understood where
  read := incoming?_sent fits
  alone other same := by
    have read : incoming? other.sent = some (.ok other.incoming) := by
      apply incoming?_sent
      rw [Fits, same]
      exact fits
    rw [same, incoming?_sent fits] at read
    injection read with read
    injection read with read
    rw [← other.call_incoming, ← read, c.call_incoming]

/-! ### Replies -/

/-- How an endpoint refuses with a status that does not stand for its not being reached. -/
def refusal : StatusCode → FaultKind
  | .notFound => .badName
  | .failedPrecondition => .notRunning
  | .alreadyExists => .alreadyStarted
  | _ => .rejected

/-- What is wanted of the failure after a status that is not OK. -/
structure Refused (endpoint : String) (code : StatusCode) (message : String) (e : RpcError) :
    Prop where
  /-- The text of the failure ends with the message. -/
  text : ∃ front, e.message = front ++ message
  retryable : e.isRetryable = true ↔
    code = .cancelled ∨ code = .deadlineExceeded ∨ code = .unavailable
  unavailable : e.isRetryable = true → e = .unavailable endpoint message
  fault : e.isRetryable = false → e = .fault (refusal code) message

/-- What is wanted of what a call gets back, when its reply message is of a form and has some
content. -/
structure Returns {ρ α : Type} (endpoint : String) (reply : Message ρ) (content : ρ → α)
    (receive : Delivery → Except RpcError α) : Prop where
  /-- The content of a message is given back, however the message is written. -/
  message : ∀ body r, reply.decode body = .ok r →
    receive (.answered (.message body)) = .ok (content r)
  /-- Every message can be written. -/
  written : ∀ r, (reply.encode r).length < 2 ^ 64 → reply.decode (reply.encode r) = .ok r
  status : ∀ code message, ∃ e, receive (.answered (.status code message)) = .error e ∧
    Refused endpoint code message e

theorem refused_ofStatus (endpoint : String) (code : StatusCode) (message : String) :
    Refused endpoint code message (.ofStatus endpoint code message) := by
  constructor
  case text => cases code <;> exact ⟨_, rfl⟩
  case retryable => cases code <;> simp [RpcError.ofStatus, RpcError.isRetryable]
  case unavailable => cases code <;> first | exact fun _ => rfl | exact nofun
  case fault => cases code <;> first | exact fun _ => rfl | exact nofun

/-- A call that takes the content out of its reply message gives it back. -/
theorem returns_of_eq {ρ α : Type} {endpoint : String} {reply : Message ρ} {content : ρ → α}
    {take : Delivery → Except RpcError α} (trips : reply.RoundTrips)
    (same : ∀ d, take d = (receive endpoint reply d).map content) :
    Returns endpoint reply content take where
  message body r read := by
    rw [same]
    simp only [receive, read, Except.map]
  written := trips.back
  status code message := ⟨_, same _, refused_ofStatus endpoint code message⟩

end RunControl.Transport

namespace RunControl.Order

open Transport (Returns receiveOrder)
open Wire (Message)

/-- The record of the reply message. -/
def ReplyRecord : Order → Type
  | .info _ => ProcessInfo
  | .list => Wire.AllProcesses
  | .read .. => Wire.LogData
  | _ => Wire.Ack

/-- The reply message. -/
def replyMessage : (o : Order) → Message o.ReplyRecord
  | .info _ => Wire.processInfo
  | .list => Wire.allProcesses
  | .read .. => Wire.logData
  | .add .. | .remove .. | .start .. | .stop .. | .clear _ => Wire.ack

/-- What the reply message holds: a record, the records in order, the bytes of a log, or nothing. -/
def content : (o : Order) → o.ReplyRecord → o.Reply
  | .info _, r => r
  | .list, r => r.processes
  | .read .., r => r.data
  | .add .., _ | .remove .., _ | .start .., _ | .stop .., _ | .clear _, _ => ()

open Wire in
theorem returns (endpoint : String) (o : Order) :
    Returns endpoint o.replyMessage o.content (receiveOrder endpoint o) := by
  have acked : ack.RoundTrips := ack_layout.roundTrips (by decide)
  cases o with
  | add | remove | start | stop | clear => exact Transport.returns_of_eq acked fun _ => rfl
  | info process =>
      refine Transport.returns_of_eq (processInfo_layout.roundTrips (by decide)) fun d => ?_
      show Transport.receive endpoint processInfo d =
        (Transport.receive endpoint processInfo d).map fun r => r
      cases Transport.receive endpoint processInfo d <;> rfl
  | list =>
      exact Transport.returns_of_eq (allProcesses_layout.roundTrips (by decide)) fun _ => rfl
  | read =>
      exact Transport.returns_of_eq (logData_layout.roundTrips (by decide)) fun _ => rfl

end RunControl.Order

/-! ### Addresses -/

namespace RunControl.Endpoint

variable {host host' : String} {port port' : UInt16}

/-- The address of a host, with the scheme that it is given if it carries none. -/
def address (host : String) : String :=
  if hasScheme host then host else "http://" ++ host

theorem toList_url (host : String) (port : UInt16) :
    (url host port).toList = (address host).toList ++ ':' :: Nat.toDigits 10 port.toNat := by
  show ((address host ++ ":") ++ toString port.toNat).toList = _
  simp

/-- A row is cut in one way at the last of its colons. -/
theorem eq_of_append_colon {before before' after after' : List Char}
    (same : before ++ ':' :: after = before' ++ ':' :: after') (last : ':' ∉ after)
    (last' : ':' ∉ after') : before = before' ∧ after = after' := by
  have first {more s s' : List Char} (last : ':' ∉ s) (rest : ':' :: s = more ++ ':' :: s') :
      more = [] ∧ s = s' := by
    cases more with
    | nil => exact ⟨rfl, (List.cons.inj rest).2⟩
    | cons c more => simp [(List.cons.inj rest).2] at last
  rcases List.append_eq_append_iff.mp same with ⟨more, longer, rest⟩ | ⟨more, longer, rest⟩
  · obtain ⟨rfl, ends⟩ := first last rest
    exact ⟨by rw [longer, List.append_nil], ends⟩
  · obtain ⟨rfl, ends⟩ := first last' rest
    exact ⟨by rw [longer, List.append_nil], ends.symm⟩

/-- Two hosts and ports have one URL only if they differ at most in whether the scheme is
written. -/
theorem url_inj :
    url host port = url host' port' ↔ address host = address host' ∧ port = port' := by
  have noColon (n : Nat) : ':' ∉ Nat.toDigits 10 n := fun member =>
    absurd (Nat.isDigit_of_mem_toDigits (by decide) (by decide) member) (by decide)
  rw [← String.toList_inj, toList_url, toList_url]
  constructor
  · intro same
    obtain ⟨addresses, digits⟩ := eq_of_append_colon same (noColon _) (noColon _)
    have ports : port.toNat = port'.toNat := by
      rw [← Nat.ofDigitChars_toDigits (b := 10) (n := port.toNat) (by decide) (by decide), digits,
        Nat.ofDigitChars_toDigits (by decide) (by decide)]
    exact ⟨String.toList_inj.mp addresses, UInt16.toNat_inj.mp ports⟩
  · rintro ⟨same, rfl⟩
    rw [same]

end RunControl.Endpoint

/-! ### Calls over a network of services -/

namespace RunControl.Transport

open Utf8 (Bytes)

variable {σ : Type} {α : Type}

/-- A call over a network of services gets back what the service replies to what was asked for. -/
theorem call_serviced (handle : String → Incoming → σ → Response × σ) {url : String} {c : Call}
    (usable : Endpoint.urlFault? url = none) (fits : c.Fits)
    (take : Delivery → Except RpcError α) (s : σ) :
    call (serviced handle) url c.sent take s =
      (handle url c.incoming s).map (fun reply => take (.answered reply)) id := by
  simp only [call, usable, serviced, c.incoming?_sent fits]
  rfl

/-- Nothing is lost or confused on the way to a service and back. From the message of every call
the service reads exactly what is asked for, and any other call is sent with another path or other
bytes; only hosts that are the same but for the scheme share a URL. Every call gives back what its
reply message holds, and after a status that is not OK a failure with its message, which allows
another try exactly if the status says that the endpoint was not reached in time. So a network of
services answers as the services do. -/
theorem calls_understood :
    (∀ c : Call, c.Fits → c.Understood) ∧
    (∀ host port host' port', Endpoint.url host port = Endpoint.url host' port' ↔
      Endpoint.address host = Endpoint.address host' ∧ port = port') ∧
    (∀ endpoint,
      (∀ o : Order, Returns endpoint o.replyMessage o.content (receiveOrder endpoint o)) ∧
      Returns endpoint Wire.commandReply Wire.CommandReply.payload (receiveCommand endpoint)) ∧
    ∀ {σ : Type} (handle : String → Incoming → σ → Response × σ) (host : String) (port : UInt16)
      (now : String) (s : σ), Endpoint.urlFault? (Endpoint.url host port) = none →
      (∀ o : Order, (Call.order o).Fits →
        answer (serviced handle) port now (.order host o) s =
          (handle (Endpoint.url host port) (Call.order o).incoming s).map
            (fun reply => receiveOrder (Endpoint.url host port) o (.answered reply)) id) ∧
      ∀ supervisorPort command args, (Call.command command args).Fits →
        answer (serviced handle) supervisorPort now (.command host port command args) s =
          (handle (Endpoint.url host port) (Call.command command args).incoming s).map
            (fun reply => receiveCommand (Endpoint.url host port) (.answered reply)) id := by
  refine ⟨fun _ => Call.understood, fun _ _ _ _ => Endpoint.url_inj, fun endpoint => ⟨?_, ?_⟩, ?_⟩
  · exact fun o => o.returns endpoint
  · exact returns_of_eq (Wire.commandReply_layout.roundTrips (by decide)) fun _ => rfl
  · intro σ handle host port now s usable
    constructor
    · intro o fits
      exact call_serviced handle usable fits (receiveOrder (Endpoint.url host port) o) s
    · intro supervisorPort command args fits
      exact call_serviced handle usable fits (receiveCommand (Endpoint.url host port)) s

/-- A supervisor that has the error log of one process. -/
def errorLog (_url : String) (request : Incoming) (s : Unit) : Response × Unit :=
  match request with
  | .readStderr r =>
    if r.name = "daq:trigger" then (.message (Wire.logData.encode ⟨[104, 105]⟩), s)
    else (.status .notFound ("no process named " ++ r.name), s)
  | _ => (.status .unimplemented "", s)

/-- The error log of one process is read, and that of another is missing. -/
theorem calls_understood_errorLog :
    Endpoint.urlFault? (Endpoint.url "np04" 9001) = none ∧
      (Call.order (.read "daq:trigger" .stderr)).Fits ∧
      answer (serviced errorLog) 9001 "" (.order "np04" (.read "daq:trigger" .stderr)) () =
        (.ok [104, 105], ()) ∧
      (Call.order (.read "daq:printenv" .stderr)).Fits ∧
      answer (serviced errorLog) 9001 "" (.order "np04" (.read "daq:printenv" .stderr)) () =
        (.error (.fault .badName "no process named daq:printenv"), ()) := by
  have usable : Endpoint.urlFault? (Endpoint.url "np04" 9001) = none := by decide +kernel
  have fits : (Call.order (.read "daq:trigger" .stderr)).Fits := by
    unfold Call.Fits
    decide +kernel
  have fits' : (Call.order (.read "daq:printenv" .stderr)).Fits := by
    unfold Call.Fits
    decide +kernel
  have reads := (calls_understood.2.2.2 errorLog "np04" 9001 "" () usable).1
  have logs := (calls_understood.2.2.1 (Endpoint.url "np04" 9001)).1 (.read "daq:trigger" .stderr)
  have log := logs.message _ _ (logs.written ⟨[104, 105]⟩ (by decide +kernel))
  refine ⟨usable, fits, (reads _ fits).trans ?_, fits', (reads _ fits').trans ?_⟩
  · simp only [errorLog, Call.incoming, if_true, Prod.map]
    exact congrArg (·, ()) log
  · simp [errorLog, Call.incoming]
    rfl

end RunControl.Transport
