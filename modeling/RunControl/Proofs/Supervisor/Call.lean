import RunControl.Proofs.Rpc.Course
import RunControl.Supervisor.Binding

/-!
Calls about one process of a group, and what a binding does in terms of them.

Everything that is asked about a process through its binding is one of the calls here
(`Call.event`). `Removal` lists the ways in which a removal can go, and
`removal_of_course` says that there are no others.
-/

namespace RunControl

open Utf8 (Bytes)

/-- A call about a process, with its answer. Pauses between calls count as calls. -/
inductive Call where
  | list (reply : Except RpcError (List ProcessInfo))
  | add (settings : Table String) (reply : Except RpcError Unit)
  | remove (reply : Except RpcError Unit)
  | start (reply : Except RpcError Unit)
  | stop (reply : Except RpcError Unit)
  | info (reply : Except RpcError ProcessInfo)
  | read (log : LogKind) (reply : Except RpcError Bytes)
  | clear (reply : Except RpcError Unit)
  | pause (milliseconds : Nat)

/-- What a call is when it is made through a binding about the process of a name. -/
def Call.event (b : Binding) (name : String) : Call → Event
  | .list reply => ⟨.order b.host .list, reply⟩
  | .add settings reply => ⟨.order b.host (.add b.group name settings), reply⟩
  | .remove reply => ⟨.order b.host (.remove b.group name), reply⟩
  | .start reply => ⟨.order b.host (.start (b.identifier name) true), reply⟩
  | .stop reply => ⟨.order b.host (.stop (b.identifier name) true), reply⟩
  | .info reply => ⟨.order b.host (.info (b.identifier name)), reply⟩
  | .read log reply => ⟨.order b.host (.read (b.identifier name) log), reply⟩
  | .clear reply => ⟨.order b.host (.clear (b.identifier name)), reply⟩
  | .pause milliseconds => ⟨.pause milliseconds, ()⟩

/-- Whether a call only looks at the process or stops it. -/
def Call.isQuiet : Call → Bool
  | .list _ | .stop _ | .info _ | .read .. | .pause _ => true
  | .add .. | .remove _ | .start _ | .clear _ => false

namespace Binding

variable {b : Binding} {name : String} {events : List Event}

/-! ### Single calls -/

theorem order_course {o : Order} {reply : Except RpcError o.Reply}
    (course : (b.order o).Course events reply) : events = [⟨.order b.host o, reply⟩] :=
  Plan.course_request_iff.mp course

/-- An order and what comes after its answer. -/
theorem order_bind_course {α : Type} {o : Order} {next : Except RpcError o.Reply → Plan α} {a : α}
    (course : (b.order o >>= next).Course events a) :
    ∃ reply rest, events = ⟨.order b.host o, reply⟩ :: rest ∧ (next reply).Course rest a := by
  obtain ⟨first, reply, rest, rfl, asked, further⟩ := Plan.course_bind_iff.mp course
  obtain rfl := order_course asked
  exact ⟨reply, rest, rfl, further⟩

theorem state_course {l : Lifecycle} (course : (b.state name).Course events l) :
    ∃ reply, events = [Call.info reply].map (Call.event b name) ∧ l = stateOf reply := by
  obtain ⟨_, reply, _, rfl, asked, rest⟩ := Plan.course_bind_iff.mp course
  obtain ⟨rfl, rfl⟩ := Plan.course_pure_iff.mp rest
  obtain rfl := order_course asked
  exact ⟨reply, rfl, rfl⟩

/-- Whether a listing shows a process of the group. -/
def lists (b : Binding) (name : String) : Except RpcError (List ProcessInfo) → Bool
  | .ok all => all.any fun p => p.group = b.group && p.name = name
  | .error _ => false

theorem hasProcess_course {found : Bool} (course : (b.hasProcess name).Course events found) :
    ∃ reply, events = [Call.list reply].map (Call.event b name) ∧ found = b.lists name reply := by
  obtain ⟨reply, _, rfl, rest⟩ := order_bind_course course
  cases reply with
  | ok all =>
      obtain ⟨rfl, rfl⟩ := Plan.course_pure_iff.mp rest
      exact ⟨.ok all, rfl, rfl⟩
  | error e =>
      obtain ⟨rfl, rfl⟩ := Plan.course_pure_iff.mp rest
      exact ⟨.error e, rfl, rfl⟩

/-! ### Removals -/

/-- Whether a process may still run, for all that the answer to a question for its record
shows. One that is not registered does not. -/
def mayRun : Except RpcError ProcessInfo → Bool
  | .ok i => !(Lifecycle.ofReport i.state i.start).isTerminal
  | .error e => !e.isBadName

/-- Whether a process does not run after this answer to a stop. -/
def settles : Except RpcError Unit → Bool
  | .ok () => true
  | .error e => e.isNotRunning || e.isBadName

/-- What the answer to the removal of a registration counts as. -/
def dropped : Except RpcError Unit → Except RpcError Unit
  | .ok () => .ok ()
  | .error e => if e.isBadName then .ok () else .error e

/-- The calls of a removal and its result. -/
inductive Removal : List Call → Except RpcError Unit → Prop where
  | absent {e : RpcError} (unknown : e.isBadName = true) : Removal [.info (.error e)] (.ok ())
  | resting {i : ProcessInfo} {reply : Except RpcError Unit}
      (rests : (Lifecycle.ofReport i.state i.start).isTerminal = true) :
      Removal [.info (.ok i), .remove reply] (dropped reply)
  | kept {answer : Except RpcError ProcessInfo} {e : RpcError} (runs : mayRun answer = true)
      (fails : settles (.error e) = false) : Removal [.info answer, .stop (.error e)] (.error e)
  | stopped {answer : Except RpcError ProcessInfo} {stop reply : Except RpcError Unit}
      (runs : mayRun answer = true) (stops : settles stop = true) :
      Removal [.info answer, .stop stop, .remove reply] (dropped reply)

theorem unregister_course {result : Except RpcError Unit}
    (course : (b.unregister name).Course events result) :
    ∃ reply, events = [Call.remove reply].map (Call.event b name) ∧ result = dropped reply := by
  obtain ⟨reply, _, rfl, rest⟩ := order_bind_course course
  cases reply with
  | ok u =>
      obtain ⟨rfl, rfl⟩ := Plan.course_pure_iff.mp rest
      exact ⟨.ok u, rfl, rfl⟩
  | error e =>
      obtain ⟨rfl, rfl⟩ := Plan.course_pure_iff.mp rest
      exact ⟨.error e, rfl, rfl⟩

theorem stopAndUnregister_course {result : Except RpcError Unit}
    {answer : Except RpcError ProcessInfo} (runs : mayRun answer = true)
    (course : (b.stopAndUnregister name).Course events result) :
    ∃ calls, events = calls.map (Call.event b name) ∧ Removal (.info answer :: calls) result := by
  obtain ⟨reply, _, rfl, rest⟩ := order_bind_course course
  cases reply with
  | ok u =>
      obtain ⟨reply, rfl, rfl⟩ := unregister_course rest
      exact ⟨[.stop (.ok u), .remove reply], rfl, .stopped runs rfl⟩
  | error e =>
      dsimp only at rest
      by_cases settled : e.isNotRunning || e.isBadName
      · rw [if_pos settled] at rest
        obtain ⟨reply, rfl, rfl⟩ := unregister_course rest
        exact ⟨[.stop (.error e), .remove reply], rfl, .stopped runs settled⟩
      · rw [if_neg settled] at rest
        obtain ⟨rfl, rfl⟩ := Plan.course_pure_iff.mp rest
        exact ⟨[.stop (.error e)], rfl, .kept runs (Bool.eq_false_iff.mpr settled)⟩

/-- A removal goes in one of the ways of `Removal`, whoever answers. -/
theorem removal_of_course {result : Except RpcError Unit}
    (course : (b.remove name).Course events result) :
    ∃ calls, events = calls.map (Call.event b name) ∧ Removal calls result := by
  obtain ⟨answer, _, rfl, rest⟩ := order_bind_course course
  cases answer with
  | ok i =>
      dsimp only at rest
      by_cases rests : (Lifecycle.ofReport i.state i.start).isTerminal
      · rw [if_pos rests] at rest
        obtain ⟨reply, rfl, rfl⟩ := unregister_course rest
        exact ⟨[.info (.ok i), .remove reply], rfl, .resting rests⟩
      · rw [if_neg rests] at rest
        have runs : mayRun (.ok i) = true := by simpa [mayRun] using rests
        obtain ⟨calls, rfl, removal⟩ := stopAndUnregister_course runs rest
        exact ⟨.info (.ok i) :: calls, rfl, removal⟩
  | error e =>
      dsimp only at rest
      by_cases unknown : e.isBadName
      · rw [if_pos unknown] at rest
        obtain ⟨rfl, rfl⟩ := Plan.course_pure_iff.mp rest
        exact ⟨[.info (.error e)], rfl, .absent unknown⟩
      · rw [if_neg unknown] at rest
        have runs : mayRun (.error e) = true := by simpa [mayRun] using unknown
        obtain ⟨calls, rfl, removal⟩ := stopAndUnregister_course runs rest
        exact ⟨.info (.error e) :: calls, rfl, removal⟩

end Binding

end RunControl
