import RunControl.Rpc.Plan
import RunControl.Simulation.Endpoint
import RunControl.Simulation.Host

/-!
A world of hosts in memory: a supervisor on every host, component endpoints at some
ports, prepared answers, and a record of what was asked.

A prepared answer takes the place of the next call of its method to its host. Every
call is recorded, also one that fails.
-/

namespace RunControl.Simulation

open Utf8 (Bytes)

/-- The results of a prepared success, of which a call gets the one of its kind. -/
structure Results where
  record : ProcessInfo
  records : List ProcessInfo
  /-- A log, or the reply of a component. -/
  data : Bytes
  deriving DecidableEq, Repr

/-- An answer that is prepared for a call. -/
inductive Prepared where
  | fail (error : RpcError)
  /-- The call goes to the host. -/
  | pass
  /-- The call succeeds without reaching the host. -/
  | succeed (results : Results)
  deriving DecidableEq, Repr

/-- What a prepared success gives back to an order. -/
def Results.toOrder (r : Results) : (o : Order) → o.Reply
  | .add .. => ()
  | .remove .. => ()
  | .start .. => ()
  | .stop .. => ()
  | .info _ => r.record
  | .list => r.records
  | .read .. => r.data
  | .clear _ => ()

/-- What a prepared answer says to an order, unless the order goes to the host. -/
def Prepared.toOrder? (o : Order) : Prepared → Option (Except RpcError o.Reply)
  | .fail e => some (.error e)
  | .pass => none
  | .succeed r => some (.ok (r.toOrder o))

/-- What a prepared answer says to a command, unless the command goes to its endpoint. -/
def Prepared.toCommand? : Prepared → Option (Except RpcError Bytes)
  | .fail e => some (.error e)
  | .pass => none
  | .succeed r => some (.ok r.data)

/-- The world. -/
structure World where
  hosts : String → Host
  endpoints : String → UInt16 → Option Endpoint
  prepared : String → Method → List Prepared
  /-- The calls in order. -/
  calls : List Request
  /-- The sum of the pauses in milliseconds. -/
  paused : Nat
  now : String

namespace World

/-- A world in which nothing has happened. -/
def fresh (now : String) : World where
  hosts _ := .fresh
  endpoints _ _ := none
  prepared _ _ := []
  calls := []
  paused := 0
  now := now

/-- The world with another supervisor on a host. -/
def setHost (w : World) (host : String) (h : Host) : World :=
  { w with hosts := fun other => if other = host then h else w.hosts other }

/-- The world with another endpoint at a port. -/
def setEndpoint (w : World) (host : String) (port : UInt16) (e : Endpoint) : World :=
  { w with
    endpoints := fun other p => if other = host ∧ p = port then some e else w.endpoints other p }

/-- The world with other prepared answers for a method. -/
def setPrepared (w : World) (host : String) (m : Method) (answers : List Prepared) : World :=
  { w with
    prepared := fun other n => if other = host ∧ n = m then answers else w.prepared other n }

/-- Prepares answers behind those that are prepared already. -/
def prepare (w : World) (host : String) (m : Method) (answers : List Prepared) : World :=
  w.setPrepared host m (w.prepared host m ++ answers)

/-- Changes the supervisor of a host. -/
def onHost (w : World) (host : String) (change : Host → Host) : World :=
  w.setHost host (change (w.hosts host))

/-- Changes the endpoint at a port, which is made if there is none. -/
def onEndpoint (w : World) (host : String) (port : UInt16) (change : Endpoint → Endpoint) :
    World :=
  w.setEndpoint host port (change ((w.endpoints host port).getD .fresh))

/-- Records a call. -/
def record (w : World) (r : Request) : World :=
  { w with calls := w.calls ++ [r] }

/-- Takes the next prepared answer for a method. -/
def takePrepared (w : World) (host : String) (m : Method) : Prepared × World :=
  match w.prepared host m with
  | [] => (.pass, w)
  | answer :: rest => (answer, w.setPrepared host m rest)

/-- Answers an order. -/
def answerOrder (w : World) (host : String) (o : Order) : Except RpcError o.Reply × World :=
  let (prepared, w) := (w.record (.order host o)).takePrepared host (.ofOrder o)
  match prepared.toOrder? o with
  | some reply => (reply, w)
  | none =>
    let (reply, h) := (w.hosts host).answer o
    (reply, w.setHost host h)

/-- Answers a command. -/
def answerCommand (w : World) (host : String) (port : UInt16) (command : String)
    (args : List String) : Except RpcError Bytes × World :=
  let (prepared, w) := (w.record (.command host port command args)).takePrepared host .call
  match prepared.toCommand? with
  | some reply => (reply, w)
  | none =>
    match w.endpoints host port with
    | none =>
      (.error (.unavailable ("http://" ++ host ++ ":" ++ toString port.toNat) "connection refused"),
        w)
    | some e =>
      let (reply, e) := e.answer command args
      (.ok reply, w.setEndpoint host port e)

/-- Answers requests. -/
def answer : Answerer World
  | .order host o, w => w.answerOrder host o
  | .command host port command args, w => w.answerCommand host port command args
  | .now, w => (w.now, w)
  | .pause milliseconds, w => ((), { w with paused := w.paused + milliseconds })

/-- Plays a plan in the world. -/
def play {α : Type} (w : World) (plan : Plan α) : α × World :=
  plan.run answer w

end World

end RunControl.Simulation
