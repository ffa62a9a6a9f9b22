import Mathlib.Data.List.Nodup
import Mathlib.Logic.Function.Basic
import RunControl.Proofs.Supervisor.Operation
import RunControl.Proofs.Table

/-!
The automaton of a process as its group sees it.

A process is absent, registered, running or stopped, and each operation on it is a step of its
automaton or refused. `Phases.Conforms` says for every operation that it gives what the automata
of the group's processes have it give.
-/

namespace RunControl

/-- An operation adds no program that prints the exported variables. -/
def Operation.IsPlain : Operation → Prop
  | .add _ settings => ∀ command, settings.get? "command" = some command →
    ¬ "export -p".toList <:+: command.toList
  | _ => True

/-! ### One process -/

/-- The states of the automaton of a process. -/
inductive Phase where
  | absent
  /-- Added, and never started since. -/
  | registered
  | running
  | stopped
  deriving DecidableEq, Repr

namespace Phase

/-- The lifecycle state that a phase is reported as. -/
def lifecycle : Phase → Lifecycle
  | .absent => .notRegistered
  | .registered => .registered
  | .running => .running
  | .stopped => .stopped

/-- What becomes of a process by an operation on it, or how the operation is refused. -/
def step : Operation → Phase → Except FaultKind Phase
  | .add .., .absent => .ok .registered
  | .add .., _ => .error .rejected
  | .start _, .absent => .error .badName
  | .start _, .running => .error .alreadyStarted
  | .start _, _ => .ok .running
  | .stop _, .absent => .error .badName
  | .stop _, .running => .ok .stopped
  | .stop _, _ => .error .notRunning
  | .remove _, _ => .ok .absent
  | .clear _, .absent | .info _, .absent | .read .., .absent => .error .badName
  | _, phase => .ok phase

/-- The phase after an operation. One that is refused changes nothing. -/
def after (o : Operation) (phase : Phase) : Phase :=
  match phase.step o with
  | .ok next => next
  | .error _ => phase

variable {o : Operation} {phase next : Phase} {kind : FaultKind}

theorem after_of_ok (step : phase.step o = .ok next) : phase.after o = next := by
  rw [after, step]

theorem after_of_error (step : phase.step o = .error kind) : phase.after o = phase := by
  rw [after, step]

/-- A process that is there can be asked for, its logs can be read and emptied, and it is not
added again. -/
theorem step_of_ne_absent (there : phase ≠ .absent) (name : String) (log : LogKind)
    (settings : Table String) :
    phase.step (.info name) = .ok phase ∧ phase.step (.read name log) = .ok phase ∧
      phase.step (.clear name) = .ok phase ∧
      phase.step (.add name settings) = .error .rejected := by
  cases phase with
  | absent => exact absurd rfl there
  | _ => exact ⟨rfl, rfl, rfl, rfl⟩

end Phase

/-! ### The processes of a group -/

/-- The phases of the processes of a group, by name. -/
abbrev Phases := String → Phase

namespace Phases

/-- An operation is a step of the automaton of its process. -/
def after (o : Operation) (phases : Phases) : Phases :=
  match o.name? with
  | some name => Function.update phases name ((phases name).after o)
  | none => phases

/-- The phases after operations, where there was no process at first. -/
def run (operations : List Operation) : Phases :=
  operations.foldl (fun phases o => phases.after o) fun _ => .absent

/-- An operation is refused by the automaton of its process. -/
def Refuses (phases : Phases) (o : Operation) : Prop :=
  ∃ name kind, o.name? = some name ∧ (phases name).step o = .error kind

/-- Every process that is there is named once, and no other. -/
def Enumerated (phases : Phases) (names : List String) : Prop :=
  ∀ name, names.count name = if phases name = .absent then 0 else 1

/-- A record shows a process of the group as its automaton has it. -/
def Shown (b : Binding) (phases : Phases) (p : ProcessInfo) : Prop :=
  p.group = b.group ∧ .ofReport p.state p.start = (phases p.name).lifecycle

end Phases

/-- A reply is a success or a refusal as it is expected. -/
def Grants {α : Type} (expected : Except FaultKind Phase) (reply : Except RpcError α) : Prop :=
  match expected, reply with
  | .ok _, .ok _ => True
  | .error kind, .error e => ∃ message, e = .fault kind message
  | _, _ => False

/-- What an operation gives is what the automata have it give. -/
def Phases.Conforms (b : Binding) (phases : Phases) : (o : Operation) → o.Reply → Prop
  | .add name settings, reply => Grants ((phases name).step (.add name settings)) reply
  | .start name, reply => Grants ((phases name).step (.start name)) reply
  | .stop name, reply => Grants ((phases name).step (.stop name)) reply
  | .remove name, reply => Grants ((phases name).step (.remove name)) reply
  | .clear name, reply => Grants ((phases name).step (.clear name)) reply
  | .read name log, reply => Grants ((phases name).step (.read name log)) reply
  | .info name, reply =>
    Grants ((phases name).step (.info name)) reply ∧
      ∀ p, reply = .ok p → p.name = name ∧ phases.Shown b p
  | .state name, l => l = (phases name).lifecycle
  | .hasProcess name, found => found = true ↔ phases name ≠ .absent
  | .list, reply =>
    ∃ all, reply = .ok all ∧ (∀ p ∈ all, phases.Shown b p) ∧
      phases.Enumerated (all.map ProcessInfo.name)
  | .processIds, reply => ∃ ids, reply = .ok ids ∧ phases.Enumerated ids.keys

theorem grants_ok {α : Type} {expected : Except FaultKind Phase} {next : Phase}
    (step : expected = .ok next) (a : α) : Grants expected (.ok a) := by
  rw [step]
  trivial

theorem grants_fault {α : Type} {expected : Except FaultKind Phase} {kind : FaultKind}
    (step : expected = .error kind) (message : String) :
    Grants (α := α) expected (.error (.fault kind message)) := by
  rw [step]
  exact ⟨message, rfl⟩

/-! ### Enumerations -/

namespace Phases.Enumerated

variable {phases : Phases} {names : List String} {all : List ProcessInfo}

theorem mem_iff (enumerated : phases.Enumerated names) {name : String} :
    name ∈ names ↔ phases name ≠ .absent := by
  rw [← List.count_pos_iff, enumerated name]
  split <;> simp_all

theorem nodup (enumerated : phases.Enumerated names) : names.Nodup := by
  rw [List.nodup_iff_count_le_one]
  intro name
  rw [enumerated name]
  split <;> decide

/-- Where the records name every process once, so do the process ids that are read off them. -/
theorem ids (enumerated : phases.Enumerated (all.map ProcessInfo.name)) :
    phases.Enumerated (Binding.ids all).keys := by
  have names : (all.map fun p => (p.name, p.pid)).map Prod.fst = all.map ProcessInfo.name := by
    rw [List.map_map]
    rfl
  have found_iff (name : String) :
      (Binding.ids all).get? name ≠ none ↔ phases name ≠ .absent := by
    rw [← enumerated.mem_iff, Option.ne_none_iff_exists']
    constructor
    · rintro ⟨pid, found⟩
      rw [← names]
      exact List.mem_map_of_mem (Table.mem_of_get?_ofList found)
    · intro member
      obtain ⟨p, there, rfl⟩ := List.mem_map.mp member
      exact ⟨p.pid, Table.get?_ofList_of_mem (names ▸ enumerated.nodup)
        (List.mem_map_of_mem there)⟩
  intro name
  rw [Table.count_keys]
  simp only [not_iff_not.mp (found_iff name)]

end Phases.Enumerated

end RunControl
