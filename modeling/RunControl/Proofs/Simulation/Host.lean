import RunControl.Proofs.Table
import RunControl.Simulation.Host

/-!
What a supervisor in memory can do with an order.

`Answers` lists every way in which an order can be answered, with the reply and the table
that is left, and `Refusal` the reasons of a refusal. `answer_answers` says that there are no
others. What orders have in common is read off these lists: an order touches one process at
most (`Answers.frame`), does not change what a process was registered with
(`Answers.program`) and leaves the table keyed as it should be (`Answers.keyed`).
-/

namespace RunControl.Simulation

open Utf8 (Bytes)

/-- The process that an order is about. -/
def process? : Order → Option String
  | .add group name _ => some (qualified group name)
  | .remove group name => some (qualified group name)
  | .start process _ => some process
  | .stop process _ => some process
  | .info process => some process
  | .list => none
  | .read process _ => some process
  | .clear process => some process

/-- Whether an order only looks at a process or stops it. -/
def isQuiet : Order → Bool
  | .stop .. | .info _ | .list | .read .. => true
  | .add .. | .remove .. | .start .. | .clear _ => false

namespace Process

/-- A log of a process. -/
def log (p : Process) : LogKind → Bytes
  | .stdout => p.stdout
  | .stderr => p.stderr

/-- What a process was registered with. -/
def program (p : Process) : String × String × Table String :=
  (p.group, p.name, p.settings)

theorem program_polled (p : Process) : p.polled.program = p.program := by
  unfold polled
  split <;> rfl

theorem program_started (h : Host) (pid : UInt32) (p : Process) :
    (h.started pid p).program = p.program := by
  unfold Host.started
  dsimp only
  split <;> rfl

/-- What a process was registered with and what it has written. -/
def footprint (p : Process) : Table String × Bytes :=
  (p.settings, p.stdout)

/-- All that a process has but its state and the questions after which it rests. -/
def still (p : Process) : Process :=
  { p with state := StateCode.stopped, pollsLeft := 0 }

theorem still_polled (p : Process) : p.polled.still = p.still := by
  unfold polled
  split <;> rfl

theorem footprint_of_still {p q : Process} (same : q.still = p.still) :
    q.footprint = p.footprint := by
  show q.still.footprint = p.still.footprint
  rw [same]

theorem eq_of_still {p q : Process} (same : q.still = p.still) :
    q = { p with state := q.state, pollsLeft := q.pollsLeft } := by
  show { q.still with state := q.state, pollsLeft := q.pollsLeft } =
    { p.still with state := q.state, pollsLeft := q.pollsLeft }
  rw [same]

end Process

/-- The same holds of every process: of its identifier and of what it was registered with. -/
def Each (holds : String → String × String × Table String → Prop) (processes : Table Process) :
    Prop :=
  ∀ id p, processes.get? id = some p → holds id p.program

section Each

variable {holds : String → String × String × Table String → Prop} {processes : Table Process}
  {id : String} {p q : Process}

theorem Each.insert (each : Each holds processes) (new : holds id p.program) :
    Each holds (processes.insert id p) := by
  intro other q found
  rw [Table.get?_insert] at found
  split at found
  · rename_i same
    cases found
    exact same ▸ new
  · exact each other q found

theorem Each.update (each : Each holds processes) (found : processes.get? id = some p)
    (same : q.program = p.program) : Each holds (processes.insert id q) :=
  each.insert (same ▸ each id p found)

theorem Each.erase (each : Each holds processes) (id : String) :
    Each holds (processes.erase id) := by
  intro other q found
  rw [Table.get?_erase] at found
  split at found
  · cases found
  · exact each other q found

end Each

/-- An identifier is the one that a group and a name make. -/
def Belongs (id : String) (program : String × String × Table String) : Prop :=
  id = qualified program.1 program.2.1

/-- Every process has the identifier that its group and name make. -/
def Keyed (processes : Table Process) : Prop :=
  ∀ id p, processes.get? id = some p → id = qualified p.group p.name

theorem Keyed.empty : Keyed .empty :=
  fun _ _ found => nomatch found

theorem Keyed.insert {processes : Table Process} (keyed : Keyed processes) {id : String}
    {p : Process} (named : id = qualified p.group p.name) : Keyed (processes.insert id p) := by
  have each : Each Belongs processes := keyed
  exact each.insert named

namespace Host

variable {h : Host} {o : Order} {id : String}

/-! ### The ways to answer -/

/-- The reasons to refuse an order. -/
inductive Refusal (h : Host) : Order → RpcError → Prop where
  | injected {o : Order} {e : RpcError} (fails : h.injected? (.ofOrder o) = some e) :
      Refusal h o e
  | absent {o : Order} {id : String} (about : process? o = some id)
      (unknown : h.processes.get? id = none) : Refusal h o (badName id)
  | taken {group name message : String} {settings : Table String} {p : Process}
      (found : h.processes.get? (qualified group name) = some p) :
      Refusal h (.add group name settings) (.fault .rejected message)
  | stillRunning {group name message : String} {p : Process}
      (found : h.processes.get? (qualified group name) = some p) (active : p.isActive = true) :
      Refusal h (.remove group name) (.fault .rejected message)
  | alreadyStarted {id message : String} {wait : Bool} {p : Process}
      (found : h.processes.get? id = some p) (active : p.isActive = true) :
      Refusal h (.start id wait) (.fault .alreadyStarted message)
  | notRunning {id message : String} {wait : Bool} {p : Process}
      (found : h.processes.get? id = some p) (rests : p.isActive = false) :
      Refusal h (.stop id wait) (.fault .notRunning message)

/-- The answers to orders with the table that is left. -/
inductive Answers (h : Host) : (o : Order) → Except RpcError o.Reply → Table Process → Prop where
  | refused {o : Order} {e : RpcError} (why : Refusal h o e) : Answers h o (.error e) h.processes
  | added {group name : String} {settings : Table String}
      (free : h.processes.get? (qualified group name) = none) :
      Answers h (.add group name settings) (.ok ())
        (h.processes.insert (qualified group name) (.added group name settings))
  | removed {group name : String} {p : Process}
      (found : h.processes.get? (qualified group name) = some p) (rests : p.isActive = false) :
      Answers h (.remove group name) (.ok ()) (h.processes.erase (qualified group name))
  | started {id : String} {wait : Bool} {p : Process} (found : h.processes.get? id = some p)
      (rests : p.isActive = false) (pid : UInt32) :
      Answers h (.start id wait) (.ok ()) (h.processes.insert id (h.started pid p))
  | stopped {id : String} {wait : Bool} {p : Process} (found : h.processes.get? id = some p)
      (active : p.isActive = true) :
      Answers h (.stop id wait) (.ok ())
        (h.processes.insert id { p with state := StateCode.stopped })
  | polled {id : String} {p : Process} (found : h.processes.get? id = some p) :
      Answers h (.info id) (.ok p.polled.report) (h.processes.insert id p.polled)
  | listed : Answers h .list (.ok (h.processes.values.map Process.report)) h.processes
  | read {id : String} {log : LogKind} {p : Process} (found : h.processes.get? id = some p) :
      Answers h (.read id log) (.ok (p.log log)) h.processes
  | cleared {id : String} {p : Process} (found : h.processes.get? id = some p) :
      Answers h (.clear id) (.ok ()) (h.processes.insert id { p with stdout := [], stderr := [] })

/-- A result of an operation that is one of the answers. -/
theorem Answers.of_eq {result : Except RpcError o.Reply × Host} (same : perform o h = result)
    (answers : Answers h o result.1 result.2.processes) :
    Answers h o (perform o h).1 (perform o h).2.processes :=
  same ▸ answers

/-- An order that no failure was injected for is answered in one of these ways. -/
theorem perform_answers (o : Order) (h : Host) :
    Answers h o (perform o h).1 (perform o h).2.processes := by
  cases o with
  | add group name settings =>
      cases found : h.processes.get? (qualified group name) with
      | none => exact .of_eq (by simp [perform, add, Table.contains, found]; rfl) (.added found)
      | some p =>
          exact .of_eq (by simp [perform, add, Table.contains, found]; rfl)
            (.refused (.taken found))
  | remove group name =>
      cases found : h.processes.get? (qualified group name) with
      | none => exact .of_eq (by simp [perform, remove, found]; rfl) (.refused (.absent rfl found))
      | some p =>
          cases active : p.isActive with
          | false =>
              exact .of_eq (by simp [perform, remove, found, active]; rfl) (.removed found active)
          | true =>
              exact .of_eq (by simp [perform, remove, found, active]; rfl)
                (.refused (.stillRunning found active))
  | start id wait =>
      cases found : h.processes.get? id with
      | none => exact .of_eq (by simp [perform, start, found]; rfl) (.refused (.absent rfl found))
      | some p =>
          cases active : p.isActive with
          | false =>
              exact .of_eq (by simp [perform, start, found, active]; rfl) (.started found active _)
          | true =>
              exact .of_eq (by simp [perform, start, found, active]; rfl)
                (.refused (.alreadyStarted found active))
  | stop id wait =>
      cases found : h.processes.get? id with
      | none => exact .of_eq (by simp [perform, stop, found]; rfl) (.refused (.absent rfl found))
      | some p =>
          cases active : p.isActive with
          | false =>
              exact .of_eq (by simp [perform, stop, found, active]; rfl)
                (.refused (.notRunning found active))
          | true =>
              exact .of_eq (by simp [perform, stop, found, active]; rfl) (.stopped found active)
  | info id =>
      cases found : h.processes.get? id with
      | none => exact .of_eq (by simp [perform, info, found]; rfl) (.refused (.absent rfl found))
      | some p => exact .of_eq (by simp [perform, info, found]; rfl) (.polled found)
  | list => exact .listed
  | read id log =>
      cases found : h.processes.get? id with
      | none => exact .of_eq (by simp [perform, read, found]; rfl) (.refused (.absent rfl found))
      | some p =>
          cases log with
          | stdout => exact .of_eq (by simp [perform, read, found]; rfl) (.read found)
          | stderr => exact .of_eq (by simp [perform, read, found]; rfl) (.read found)
  | clear id =>
      cases found : h.processes.get? id with
      | none => exact .of_eq (by simp [perform, clear, found]; rfl) (.refused (.absent rfl found))
      | some p => exact .of_eq (by simp [perform, clear, found]; rfl) (.cleared found)

/-- A method that is made to fail changes nothing. -/
theorem answer_of_injected {e : RpcError} (fails : h.injected? (.ofOrder o) = some e) :
    h.answer o = (.error e, h) := by
  rw [answer, fails]

/-- An order is carried out unless it is made to fail. -/
theorem answer_of_sound (sound : h.injected? (.ofOrder o) = none) :
    h.answer o = perform o h := by
  rw [answer, sound]

/-- Every order is answered in one of these ways. -/
theorem answer_answers (o : Order) (h : Host) :
    Answers h o (h.answer o).1 (h.answer o).2.processes := by
  cases fails : h.injected? (.ofOrder o) with
  | some e =>
      rw [answer_of_injected fails]
      exact .refused (.injected fails)
  | none =>
      rw [answer_of_sound fails]
      exact perform_answers o h

/-! ### What orders have in common -/

variable {reply : Except RpcError o.Reply} {after : Table Process}

/-- What was set up for a supervisor: all of it but its processes and the last process id. -/
def setup (h : Host) : Host :=
  { h with processes := .empty, lastPid := 0 }

/-- No order changes what was set up. -/
theorem answer_setup (o : Order) (h : Host) : (h.answer o).2.setup = h.setup := by
  cases fails : h.injected? (.ofOrder o) with
  | some e => rw [answer_of_injected fails]
  | none =>
      rw [answer_of_sound fails]
      cases o <;> simp only [perform, add, remove, start, stop, info, read, clear] <;>
        repeat' split
      all_goals rfl

/-- Failures of a supervisor that can be reached are injected method by method. -/
theorem injected?_eq_none_iff {m : Method} :
    h.injected? m = none ↔ h.unreachable = false ∧ m ∉ h.failing := by
  cases reach : h.unreachable <;> simp [injected?, reach]

/-- Which failures are injected does not hang on the processes. -/
theorem injected?_of_setup {h' : Host} (same : h'.setup = h.setup) (m : Method) :
    h'.injected? m = h.injected? m := by
  show h'.setup.injected? m = h.setup.injected? m
  rw [same]

/-- A failure that is injected says nothing of the process. -/
theorem injected?_kind {m : Method} {e : RpcError} (fails : h.injected? m = some e) :
    e.isBadName = false ∧ e.isNotRunning = false := by
  unfold injected? at fails
  split at fails
  · cases fails
    exact ⟨rfl, rfl⟩
  · split at fails
    · cases fails
      exact ⟨rfl, rfl⟩
    · cases fails

/-- An order that is carried out, or refused for what the process is, was not made to fail. -/
theorem injected?_of_answer {h' : Host} {reply : Except RpcError o.Reply}
    (same : h.answer o = (reply, h'))
    (known : ∀ e, reply = .error e → e.isBadName = true ∨ e.isNotRunning = true) :
    h.injected? (.ofOrder o) = none := by
  cases fails : h.injected? (.ofOrder o) with
  | none => rfl
  | some e =>
      obtain ⟨unnamed, runs⟩ := injected?_kind fails
      rw [answer_of_injected fails] at same
      cases same
      simp [unnamed, runs] at known

theorem injected?_of_ok {h' : Host} {result : o.Reply} (same : h.answer o = (.ok result, h')) :
    h.injected? (.ofOrder o) = none :=
  injected?_of_answer same nofun

/-- What is free is added, unless additions are made to fail. -/
theorem answer_add_of_free {group name : String} {settings : Table String}
    (sound : h.injected? .add = none) (free : h.processes.get? (qualified group name) = none) :
    h.answer (.add group name settings) =
      (.ok (), h.put (qualified group name) (.added group name settings)) := by
  rw [answer_of_sound sound]
  simp only [perform, add, Table.contains, free, Option.isSome_none]
  rfl

/-- An order about a process that does not exist is refused and changes nothing, unless it adds
the process or asks for its start. -/
theorem answer_of_absent (unknown : h.processes.get? id = none) (about : process? o = some id)
    (unadded : ∀ group name settings, o ≠ .add group name settings)
    (unstarted : ∀ wait, o ≠ .start id wait) :
    ∃ e, h.answer o = (.error e, h) ∧ (h.injected? (.ofOrder o) = none → e = badName id) := by
  cases fails : h.injected? (.ofOrder o) with
  | some e => exact ⟨e, answer_of_injected fails, nofun⟩
  | none =>
      refine ⟨badName id, ?_, fun _ => rfl⟩
      rw [answer_of_sound fails]
      cases o with
      | add group name settings => exact absurd rfl (unadded group name settings)
      | list => cases about
      | start process wait =>
          cases about
          exact absurd rfl (unstarted wait)
      | _ =>
          cases about
          simp only [perform, remove, stop, info, read, clear, unknown]
          rfl

/-- An order leaves every process but the one it is about as it is. -/
theorem Answers.frame (answers : Answers h o reply after) (other : process? o ≠ some id) :
    after.get? id = h.processes.get? id := by
  cases answers <;> simp_all [process?]

/-- No answer but that to an addition brings a process into the table. -/
theorem Answers.absent (answers : Answers h o reply after)
    (unadded : ∀ group name settings, o = .add group name settings → ∃ e, reply = .error e)
    (free : h.processes.get? id = none) : after.get? id = none := by
  have kept {other : String} {p q : Process} (found : h.processes.get? other = some p) :
      (h.processes.insert other q).get? id = none := by
    have apart : other ≠ id := by
      rintro rfl
      exact nomatch found.symm.trans free
    rw [Table.get?_insert, if_neg apart, free]
  cases answers with
  | refused _ => exact free
  | added _ =>
      obtain ⟨e, same⟩ := unadded _ _ _ rfl
      cases same
  | removed _ _ =>
      rw [Table.get?_erase, free, ite_self]
  | started found _ _ => exact kept found
  | stopped found _ => exact kept found
  | polled found => exact kept found
  | listed => exact free
  | read _ => exact free
  | cleared found => exact kept found

/-- Every process keeps its program, unless one is added or removed. -/
theorem Answers.program (answers : Answers h o reply after)
    (unadded : ∀ group name settings, o ≠ .add group name settings)
    (unremoved : ∀ group name, o ≠ .remove group name) :
    (after.get? id).map Process.program = (h.processes.get? id).map Process.program := by
  cases answers with
  | refused _ => rfl
  | added _ => exact absurd rfl (unadded _ _ _)
  | removed _ _ => exact absurd rfl (unremoved _ _)
  | started found _ pid => exact Table.map_get?_insert found (Process.program_started h pid _)
  | stopped found _ => exact Table.map_get?_insert found rfl
  | polled found => exact Table.map_get?_insert found (Process.program_polled _)
  | listed => rfl
  | read _ => rfl
  | cleared found => exact Table.map_get?_insert found rfl

/-- A refused order changes nothing. -/
theorem Answers.of_error {e : RpcError} (answers : Answers h o (.error e) after) :
    after = h.processes := by
  cases answers
  rfl

/-- Only what is free is registered. -/
theorem Answers.of_add {group name : String} {settings : Table String}
    (answers : Answers h (.add group name settings) (.ok ()) after) :
    h.processes.get? (qualified group name) = none ∧
      after = h.processes.insert (qualified group name) (.added group name settings) := by
  cases answers with
  | added free => exact ⟨free, rfl⟩

/-- Only a process that is registered is started. -/
theorem Answers.of_start {wait : Bool} (answers : Answers h (.start id wait) (.ok ()) after) :
    ∃ p pid, h.processes.get? id = some p ∧ after.get? id = some (h.started pid p) := by
  cases answers with
  | started found _ pid => exact ⟨_, pid, found, by simp⟩

/-- What is read is the log of the process. -/
theorem Answers.of_read {log : LogKind} {bytes : Bytes}
    (answers : Answers h (.read id log) (.ok bytes) after) :
    ∃ p, h.processes.get? id = some p ∧ bytes = p.log log := by
  cases answers with
  | read found => exact ⟨_, found, rfl⟩

/-- A listing shows the whole table, unless it is made to fail. -/
theorem Answers.of_list {listing : Except RpcError (List ProcessInfo)}
    (answers : Answers h .list listing after) :
    after = h.processes ∧ (listing = .ok (h.processes.values.map Process.report) ∨
      ∃ e, listing = .error e ∧ h.injected? .list = some e) := by
  cases answers with
  | listed => exact ⟨rfl, .inl rfl⟩
  | refused why =>
      cases why with
      | injected fails => exact ⟨rfl, .inr ⟨_, rfl, fails⟩⟩
      | absent about _ => cases about

/-- Orders that only look at processes or stop them change nothing but states. -/
theorem Answers.still (answers : Answers h o reply after) (quiet : isQuiet o = true) :
    (after.get? id).map Process.still = (h.processes.get? id).map Process.still := by
  cases answers with
  | refused _ => rfl
  | added _ => cases quiet
  | removed _ _ => cases quiet
  | started _ _ _ => cases quiet
  | stopped found _ => exact Table.map_get?_insert found rfl
  | polled found => exact Table.map_get?_insert found (Process.still_polled _)
  | listed => rfl
  | read _ => rfl
  | cleared _ => cases quiet

/-- What holds of every process holds of those that an order leaves, if it holds of what is added:
no order changes what a process was registered with. -/
theorem Answers.each {holds : String → String × String × Table String → Prop}
    (answers : Answers h o reply after) (each : Each holds h.processes)
    (new : ∀ group name settings, o = .add group name settings →
      holds (qualified group name) (group, name, settings)) : Each holds after := by
  cases answers with
  | refused _ => exact each
  | added _ => exact each.insert (new _ _ _ rfl)
  | removed _ _ => exact each.erase _
  | started found _ pid => exact each.update found (Process.program_started h pid _)
  | stopped found _ => exact each.update found rfl
  | polled found => exact each.update found (Process.program_polled _)
  | listed => exact each
  | read _ => exact each
  | cleared found => exact each.update found rfl

/-- Orders leave a table keyed, so every table that orders make of the empty one is. -/
theorem Answers.keyed (answers : Answers h o reply after) (keyed : Keyed h.processes) :
    Keyed after := by
  have each : Each Belongs h.processes := keyed
  exact answers.each each fun _ _ _ _ => rfl

end Host

end RunControl.Simulation
