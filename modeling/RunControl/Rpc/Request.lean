import RunControl.Rpc.Error
import RunControl.Wire.Supervisor

/-!
What the control plane can ask for.

An `Order` is a call to the supervisor of a host; its `Order.Reply` is the type of what
an accepted order gives back. A `Request` is anything that a plan can ask for, and
`Request.Answer` the type of what it gets.
-/

namespace RunControl

open Utf8 (Bytes)

/-- The two logs of a process. -/
inductive LogKind where
  | stdout
  | stderr
  deriving DecidableEq, Repr

/-- The identifier of a process. -/
def qualified (group name : String) : String :=
  group ++ ":" ++ name

/-- A call to a supervisor. Except for adding and removing, a process is named by its
identifier. -/
inductive Order where
  | add (group name : String) (settings : Table String)
  | remove (group name : String)
  | start (process : String) (wait : Bool)
  | stop (process : String) (wait : Bool)
  | info (process : String)
  | list
  | read (process : String) (log : LogKind)
  | clear (process : String)
  deriving DecidableEq, Repr

/-- What an accepted order gives back. -/
def Order.Reply : Order → Type
  | .add .. => Unit
  | .remove .. => Unit
  | .start .. => Unit
  | .stop .. => Unit
  | .info _ => ProcessInfo
  | .list => List ProcessInfo
  | .read .. => Bytes
  | .clear _ => Unit

/-- Something to ask for. -/
inductive Request where
  /-- A call to the supervisor of a host. -/
  | order (host : String) (order : Order)
  /-- A command to the component at a host and port. -/
  | command (host : String) (port : UInt16) (command : String) (args : List String)
  /-- The local time as fourteen digits. -/
  | now
  /-- A pause of so many milliseconds. -/
  | pause (milliseconds : Nat)
  deriving DecidableEq, Repr

/-- What a request gets. A component's reply is not decoded. -/
def Request.Answer : Request → Type
  | .order _ o => Except RpcError o.Reply
  | .command .. => Except RpcError Bytes
  | .now => String
  | .pause _ => Unit

end RunControl
