import RunControl.Proofs.Supervisor.Call

/-!
Everything that a binding offers, and how it goes.

Each `Operation` is a row of calls about one process of the group at most, and what it gives is
read off their answers: `Operation.Goes` lists the ways in which operations go, and
`Operation.plan_course` says that there are no others.
-/

namespace RunControl

open Utf8 (Bytes)

/-- Something to do through a binding. -/
inductive Operation where
  | add (name : String) (settings : Table String)
  | start (name : String)
  | stop (name : String)
  | remove (name : String)
  | clear (name : String)
  | info (name : String)
  | state (name : String)
  | read (name : String) (log : LogKind)
  | hasProcess (name : String)
  | list
  | processIds

namespace Operation

/-- What an operation gives. -/
def Reply : Operation → Type
  | .add .. | .start _ | .stop _ | .remove _ | .clear _ => Except RpcError Unit
  | .info _ => Except RpcError ProcessInfo
  | .state _ => Lifecycle
  | .read .. => Except RpcError Bytes
  | .hasProcess _ => Bool
  | .list => Except RpcError (List ProcessInfo)
  | .processIds => Except RpcError (Table UInt32)

/-- How an operation is done. -/
def plan (b : Binding) : (o : Operation) → Plan o.Reply
  | .add name settings => b.addSettings name settings
  | .start name => b.start name
  | .stop name => b.stop name
  | .remove name => b.remove name
  | .clear name => b.clearLogs name
  | .info name => b.info name
  | .state name => b.state name
  | .read name log => b.readLog name log
  | .hasProcess name => b.hasProcess name
  | .list => b.list
  | .processIds => b.processIds

/-- The name of the process that an operation is about. -/
def name? : Operation → Option String
  | .add name _ | .start name | .stop name | .remove name | .clear name | .info name | .state name
  | .read name _ | .hasProcess name => some name
  | .list | .processIds => none

end Operation

variable {b : Binding} {events : List Event}

namespace Binding

/-- The records of the group in a listing. -/
def listed (b : Binding) (listing : Except RpcError (List ProcessInfo)) :
    Except RpcError (List ProcessInfo) :=
  listing.map fun all => all.filter fun p => p.group = b.group

/-- The process ids of records by name. -/
def ids (all : List ProcessInfo) : Table UInt32 :=
  .ofList (all.map fun p => (p.name, p.pid))

theorem list_course {result : Except RpcError (List ProcessInfo)}
    (course : b.list.Course events result) :
    ∃ listing, events = [⟨.order b.host .list, listing⟩] ∧ result = b.listed listing := by
  obtain ⟨listing, _, rfl, rest⟩ := order_bind_course course
  refine ⟨listing, ?_⟩
  cases listing with
  | ok all =>
      obtain ⟨rfl, rfl⟩ := Plan.course_pure_iff.mp rest
      exact ⟨rfl, rfl⟩
  | error e =>
      obtain ⟨rfl, rfl⟩ := Plan.course_pure_iff.mp rest
      exact ⟨rfl, rfl⟩

theorem processIds_course {result : Except RpcError (Table UInt32)}
    (course : b.processIds.Course events result) :
    ∃ listing, events = [⟨.order b.host .list, listing⟩] ∧
      result = (b.listed listing).map ids := by
  obtain ⟨_, _, _, rfl, asked, rest⟩ := Plan.course_bind_iff.mp course
  obtain ⟨listing, rfl, rfl⟩ := list_course asked
  obtain ⟨rfl, rfl⟩ := Plan.course_pure_iff.mp rest
  exact ⟨listing, List.append_nil _, rfl⟩

end Binding

namespace Operation

/-- The calls of an operation and what it gives. -/
inductive Goes (b : Binding) : (o : Operation) → List Call → o.Reply → Prop where
  | add {name settings} (reply) : Goes b (.add name settings) [.add settings reply] reply
  | start {name} (reply) : Goes b (.start name) [.start reply] reply
  | stop {name} (reply) : Goes b (.stop name) [.stop reply] reply
  | remove {name calls result} (removal : Binding.Removal calls result) :
      Goes b (.remove name) calls result
  | clear {name} (reply) : Goes b (.clear name) [.clear reply] reply
  | info {name} (reply) : Goes b (.info name) [.info reply] reply
  | state {name} (reply) : Goes b (.state name) [.info reply] (Binding.stateOf reply)
  | read {name log} (reply) : Goes b (.read name log) [.read log reply] reply
  | hasProcess {name} (listing) :
      Goes b (.hasProcess name) [.list listing] (b.lists name listing)
  | list (listing) : Goes b .list [.list listing] (b.listed listing)
  | processIds (listing) :
      Goes b .processIds [.list listing] ((b.listed listing).map Binding.ids)

/-- An operation goes in one of the ways of `Goes`, whoever answers, and its calls are about its
process. -/
theorem plan_course {o : Operation} {reply : o.Reply}
    (course : (o.plan b).Course events reply) :
    ∃ calls : List Call, events = calls.map (Call.event b (o.name?.getD "")) ∧
      Goes b o calls reply := by
  cases o with
  | add name settings => exact ⟨[.add settings reply], Binding.order_course course, .add reply⟩
  | start name => exact ⟨[.start reply], Binding.order_course course, .start reply⟩
  | stop name => exact ⟨[.stop reply], Binding.order_course course, .stop reply⟩
  | clear name => exact ⟨[.clear reply], Binding.order_course course, .clear reply⟩
  | info name => exact ⟨[.info reply], Binding.order_course course, .info reply⟩
  | read name log => exact ⟨[.read log reply], Binding.order_course course, .read reply⟩
  | remove name =>
      obtain ⟨calls, same, removal⟩ := Binding.removal_of_course course
      exact ⟨calls, same, .remove removal⟩
  | state name =>
      obtain ⟨answer, same, rfl⟩ := Binding.state_course course
      exact ⟨[.info answer], same, .state answer⟩
  | hasProcess name =>
      obtain ⟨listing, same, rfl⟩ := Binding.hasProcess_course course
      exact ⟨[.list listing], same, .hasProcess listing⟩
  | list =>
      obtain ⟨listing, same, rfl⟩ := Binding.list_course course
      exact ⟨[.list listing], same, .list listing⟩
  | processIds =>
      obtain ⟨listing, same, rfl⟩ := Binding.processIds_course course
      exact ⟨[.list listing], same, .processIds listing⟩

end Operation

end RunControl
