import RunControl.Process.Lifecycle
import RunControl.Rpc.Request
import RunControl.Text.Cut

/-!
A supervisor in memory.

It keeps a table of processes by identifier and answers orders as a supervisor does.
It can be made unreachable, and single methods can be made to fail. A program whose
command prints the exported variables is a helper: unless helpers are to hang, it
leaves its output in its logs and comes to rest after a given number of questions for
its record.
-/

namespace RunControl.Simulation

open Utf8 (Bytes)

/-- The methods of the two services. -/
inductive Method where
  | add
  | remove
  | start
  | stop
  | info
  | list
  | read
  | clear
  /-- The method of components. -/
  | call
  deriving DecidableEq, Repr

namespace Method

/-- The name of a method. -/
def name : Method → String
  | .add => "add"
  | .remove => "remove"
  | .start => "start"
  | .stop => "stop"
  | .info => "info"
  | .list => "list"
  | .read => "read"
  | .clear => "clear"
  | .call => "call"

/-- Every method. -/
def all : List Method :=
  [.add, .remove, .start, .stop, .info, .list, .read, .clear, .call]

/-- The method with this name. -/
def ofName? (s : String) : Option Method :=
  all.find? fun m => m.name = s

/-- The method of an order. -/
def ofOrder : Order → Method
  | .add .. => .add
  | .remove .. => .remove
  | .start .. => .start
  | .stop .. => .stop
  | .info _ => .info
  | .list => .list
  | .read .. => .read
  | .clear _ => .clear

end Method

/-! ### Processes -/

/-- A process in a supervisor's table. -/
structure Process where
  group : String
  name : String
  settings : Table String
  state : Int32
  start : Int64
  pid : UInt32
  stdout : Bytes
  stderr : Bytes
  /-- The questions for its record after which a running helper has come to rest. -/
  pollsLeft : Nat
  deriving DecidableEq, Repr

namespace Process

/-- A process that was added and never started. -/
def added (group name : String) (settings : Table String) : Process :=
  ⟨group, name, settings, StateCode.stopped, 0, 0, [], [], 0⟩

/-- Whether a process is starting, running or stopping. -/
def isActive (p : Process) : Bool :=
  p.state = StateCode.starting || p.state = StateCode.running || p.state = StateCode.stopping

/-- Whether a process prints the exported variables. -/
def isHelper (p : Process) : Bool :=
  match p.settings.get? "command" with
  | some command => (Text.cut? "export -p".toList command.toList).isSome
  | none => false

/-- The record that is reported of a process. -/
def report (p : Process) : ProcessInfo :=
  ⟨p.name, p.group, p.state, StateCode.label p.state, p.pid, p.start, ""⟩

/-- The process after a question for its record. -/
def polled (p : Process) : Process :=
  if p.state = StateCode.running ∧ 0 < p.pollsLeft then
    { p with
      pollsLeft := p.pollsLeft - 1
      state := if p.pollsLeft = 1 then StateCode.exited else p.state }
  else p

end Process

/-! ### Supervisors -/

/-- The state of a supervisor in memory. -/
structure Host where
  /-- The processes by identifier. -/
  processes : Table Process
  failing : List Method
  unreachable : Bool
  helperStdout : String
  helperStderr : String
  helperHangs : Bool
  helperPolls : Nat
  lastPid : UInt32
  deriving DecidableEq, Repr

namespace Host

/-- A supervisor without processes. -/
def fresh : Host :=
  ⟨.empty, [], false, "", "", false, 0, 0⟩

/-- Puts a running process into the table, over one with the same identifier. -/
def insertRunning (h : Host) (group name command : String) : Host :=
  let pid := h.lastPid + 1
  let p : Process :=
    { Process.added group name (.ofList [("command", command)]) with
      state := StateCode.running
      start := 1
      pid := pid }
  { h with lastPid := pid, processes := h.processes.insert (qualified group name) p }

/-- The refusal of an order for a process that does not exist. -/
def badName (process : String) : RpcError :=
  .fault .badName ("BAD_NAME: " ++ process)

/-- The failure that was injected for a method, if any. -/
def injected? (h : Host) (m : Method) : Option RpcError :=
  if h.unreachable then some (.unavailable "fake" "connection refused")
  else if h.failing.contains m then some (.fault .rejected (m.name ++ " failed"))
  else none

/-- A process that starts with a new process id. -/
def started (h : Host) (pid : UInt32) (p : Process) : Process :=
  let p := { p with start := 1, pid := pid }
  if p.isHelper && !h.helperHangs then
    { p with
      stdout := p.stdout ++ Utf8.encode h.helperStdout
      stderr := p.stderr ++ Utf8.encode h.helperStderr
      pollsLeft := h.helperPolls
      state := if h.helperPolls = 0 then StateCode.exited else StateCode.running }
  else { p with state := StateCode.running }

/-- The supervisor with a process under an identifier. -/
def put (h : Host) (process : String) (p : Process) : Host :=
  { h with processes := h.processes.insert process p }

/-- Registers a process. -/
def add (h : Host) (group name : String) (settings : Table String) :
    Except RpcError Unit × Host :=
  let id := qualified group name
  if h.processes.contains id then
    (.error (.fault .rejected ("BAD_NAME: " ++ id ++ " already added")), h)
  else (.ok (), h.put id (.added group name settings))

/-- Drops the registration of a process that is not active. -/
def remove (h : Host) (group name : String) : Except RpcError Unit × Host :=
  let id := qualified group name
  match h.processes.get? id with
  | none => (.error (badName id), h)
  | some p =>
    if p.isActive then (.error (.fault .rejected ("STILL_RUNNING: " ++ id)), h)
    else (.ok (), { h with processes := h.processes.erase id })

/-- Starts a process. A process id is used up in any case. -/
def start (h : Host) (process : String) : Except RpcError Unit × Host :=
  let pid := h.lastPid + 1
  let h := { h with lastPid := pid }
  match h.processes.get? process with
  | none => (.error (badName process), h)
  | some p =>
    if p.isActive then (.error (.fault .alreadyStarted ("ALREADY_STARTED: " ++ process)), h)
    else (.ok (), h.put process (h.started pid p))

/-- Stops an active process. -/
def stop (h : Host) (process : String) : Except RpcError Unit × Host :=
  match h.processes.get? process with
  | none => (.error (badName process), h)
  | some p =>
    if p.isActive then (.ok (), h.put process { p with state := StateCode.stopped })
    else (.error (.fault .notRunning ("NOT_RUNNING: " ++ process)), h)

/-- Reports a process, which a helper may take to come to rest. -/
def info (h : Host) (process : String) : Except RpcError ProcessInfo × Host :=
  match h.processes.get? process with
  | none => (.error (badName process), h)
  | some p => (.ok p.polled.report, h.put process p.polled)

/-- Gives a log of a process. -/
def read (h : Host) (process : String) (log : LogKind) : Except RpcError Bytes × Host :=
  match h.processes.get? process with
  | none => (.error (badName process), h)
  | some p => (.ok (match log with
    | .stdout => p.stdout
    | .stderr => p.stderr), h)

/-- Empties the logs of a process. -/
def clear (h : Host) (process : String) : Except RpcError Unit × Host :=
  match h.processes.get? process with
  | none => (.error (badName process), h)
  | some p => (.ok (), h.put process { p with stdout := [], stderr := [] })

/-- Answers an order that no failure was injected for. -/
def perform : (o : Order) → Host → Except RpcError o.Reply × Host
  | .add group name settings, h => h.add group name settings
  | .remove group name, h => h.remove group name
  | .start process _, h => h.start process
  | .stop process _, h => h.stop process
  | .info process, h => h.info process
  | .list, h => (.ok (h.processes.values.map Process.report), h)
  | .read process log, h => h.read process log
  | .clear process, h => h.clear process

/-- Answers an order. An injected failure comes before any effect. -/
def answer (o : Order) (h : Host) : Except RpcError o.Reply × Host :=
  match h.injected? (.ofOrder o) with
  | some e => (.error e, h)
  | none => perform o h

end Host

end RunControl.Simulation
