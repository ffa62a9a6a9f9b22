import RunControl.Process.Lifecycle
import RunControl.Process.Spec
import RunControl.Rpc.Plan

/-!
The supervisor of a host as one group of processes sees it.

`Binding.remove` never orphans a running process: the registration is dropped only
when the process is known to rest or was stopped.
-/

namespace RunControl

open Utf8 (Bytes)

/-- A host and the group whose processes are meant there. -/
structure Binding where
  host : String
  group : String
  deriving DecidableEq, Repr

namespace Binding

/-- Gives the host's supervisor an order. -/
def order (b : Binding) (o : Order) : Plan (Except RpcError o.Reply) :=
  .request (.order b.host o)

/-- The identifier of a process of the group. -/
def identifier (b : Binding) (name : String) : String :=
  qualified b.group name

/-- Registers a program with given settings. -/
def addSettings (b : Binding) (name : String) (settings : Table String) :
    Plan (Except RpcError Unit) :=
  b.order (.add b.group name settings)

/-- Registers the program of a specification. -/
def add (b : Binding) (s : ProcessSpec) : Plan (Except RpcError Unit) :=
  b.addSettings s.name s.settings

/-- Starts a process and waits for it. -/
def start (b : Binding) (name : String) : Plan (Except RpcError Unit) :=
  b.order (.start (b.identifier name) true)

/-- Stops a process and waits for it. -/
def stop (b : Binding) (name : String) : Plan (Except RpcError Unit) :=
  b.order (.stop (b.identifier name) true)

/-- The supervisor's record of a process. -/
def info (b : Binding) (name : String) : Plan (Except RpcError ProcessInfo) :=
  b.order (.info (b.identifier name))

/-- A log of a process. -/
def readLog (b : Binding) (name : String) (log : LogKind) : Plan (Except RpcError Bytes) :=
  b.order (.read (b.identifier name) log)

/-- Empties the logs of a process. -/
def clearLogs (b : Binding) (name : String) : Plan (Except RpcError Unit) :=
  b.order (.clear (b.identifier name))

/-- The lifecycle state that the answer to a question for a record shows. A failure
shows nothing, unless it says that there is no such process. -/
def stateOf : Except RpcError ProcessInfo → Lifecycle
  | .ok i => .ofReport i.state i.start
  | .error e => if e.isBadName then .notRegistered else .unknown

/-- The lifecycle state of a process. -/
def state (b : Binding) (name : String) : Plan Lifecycle := do
  return stateOf (← b.info name)

/-- Whether a process of the group is listed. A listing that fails shows none. -/
def hasProcess (b : Binding) (name : String) : Plan Bool := do
  match ← b.order .list with
  | .ok all => return all.any fun p => p.group = b.group && p.name = name
  | .error _ => return false

/-- The records of the group's processes. -/
def list (b : Binding) : Plan (Except RpcError (List ProcessInfo)) := do
  match ← b.order .list with
  | .ok all => return .ok (all.filter fun p => p.group = b.group)
  | .error e => return .error e

/-- The process ids of the group by name; of two records with one name the later
counts. -/
def processIds (b : Binding) : Plan (Except RpcError (Table UInt32)) := do
  return (← b.list).map fun all => .ofList (all.map fun p => (p.name, p.pid))

/-! ### Removal -/

/-- Drops a registration; one that is gone already is no failure. -/
def unregister (b : Binding) (name : String) : Plan (Except RpcError Unit) := do
  match ← b.order (.remove b.group name) with
  | .ok () => return .ok ()
  | .error e => return if e.isBadName then .ok () else .error e

/-- Stops a process and then drops its registration. The registration stays when the
process may still run. -/
def stopAndUnregister (b : Binding) (name : String) : Plan (Except RpcError Unit) := do
  match ← b.stop name with
  | .ok () => b.unregister name
  | .error e => if e.isNotRunning || e.isBadName then b.unregister name else return .error e

/-- Removes a process, which is stopped first unless it is known to rest. A process
that is not registered is removed already. -/
def remove (b : Binding) (name : String) : Plan (Except RpcError Unit) := do
  match ← b.info name with
  | .ok i =>
    if (Lifecycle.ofReport i.state i.start).isTerminal then b.unregister name
    else b.stopAndUnregister name
  | .error e => if e.isBadName then return .ok () else b.stopAndUnregister name

end Binding

end RunControl
