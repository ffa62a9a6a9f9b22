import Mathlib.Data.List.Count
import RunControl.Proofs.Rpc.Identifier
import RunControl.Proofs.Simulation.Served
import RunControl.Proofs.Supervisor.Automaton
import RunControl.Proofs.Text.Cut

/-!
A binding and a supervisor in memory, seen as automata.

The phase of a process is not kept anywhere: it is read off its record (`phases`). Seen so, every
operation is a step of the automata (`Refines`), whatever operations there were before
(`refines_run`), as long as no program is added that comes to rest by itself.
-/

namespace RunControl.Simulation

open Utf8 (Bytes)

variable {b : Binding} {name id : String} {h next : Host} {before after : Table Process}
  {p q : Process} {o : Operation} {reply : o.Reply} {calls : List Call} {w : World}

/-! ### Phases of records -/

/-- The phase that a record is in. -/
def phaseOf : Option Process → Phase
  | none => .absent
  | some p => if p.isActive then .running else if p.start = 0 then .registered else .stopped

/-- The phases of the processes of a group in a table. -/
def phases (b : Binding) (processes : Table Process) : Phases :=
  fun name => phaseOf (processes.get? (b.identifier name))

theorem phases_of_get? {record : Option Process}
    (found : before.get? (b.identifier name) = record) : phases b before name = phaseOf record :=
  congrArg phaseOf found

theorem step_of_get? {record : Option Process} {result : Except FaultKind Phase}
    (found : before.get? (b.identifier name) = record)
    (step : (phaseOf record).step o = result) : (phases b before name).step o = result := by
  rw [phases_of_get? found]
  exact step

theorem phaseOf_of_active (active : p.isActive = true) : phaseOf (some p) = .running :=
  if_pos active

theorem phaseOf_eq_absent_iff {record : Option Process} :
    phaseOf record = .absent ↔ record = none := by
  cases record with
  | none => simp [phaseOf]
  | some p =>
      simp only [phaseOf, reduceCtorEq, iff_false]
      repeat' split
      all_goals exact nofun

theorem phaseOf_some_ne (p : Process) : phaseOf (some p) ≠ .absent :=
  mt phaseOf_eq_absent_iff.mp nofun

theorem step_start_of_rests (rests : p.isActive = false) (name : String) :
    (phaseOf (some p)).step (.start name) = .ok .running := by
  by_cases fresh : p.start = 0 <;> simp [phaseOf, rests, fresh, Phase.step]

theorem step_stop_of_rests (rests : p.isActive = false) (name : String) :
    (phaseOf (some p)).step (.stop name) = .error .notRunning := by
  by_cases fresh : p.start = 0 <;> simp [phaseOf, rests, fresh, Phase.step]

/-! ### Tables that change by operations only -/

/-- A process of the group that changes by operations only: it is no helper, and it rests or
runs. -/
structure Steady (b : Binding) (p : Process) : Prop where
  group : p.group = b.group
  plain : p.isHelper = false
  settled : p.pollsLeft = 0
  known : p.state = StateCode.stopped ∨ p.state = StateCode.running ∧ p.start ≠ 0

theorem isActive_of_stopped (stopped : p.state = StateCode.stopped) : p.isActive = false := by
  rw [Process.isActive, stopped]
  rfl

namespace Steady

theorem polled (steady : Steady b p) : p.polled = p := by
  unfold Process.polled
  rw [steady.settled]
  exact if_neg fun waits => Nat.lt_irrefl 0 waits.2

/-- An active process was started. -/
theorem start_ne (steady : Steady b p) (active : p.isActive = true) : p.start ≠ 0 := by
  rcases steady.known with stopped | ⟨-, used⟩
  · exact nomatch active.symm.trans (isActive_of_stopped stopped)
  · exact used

/-- What a record is reported as is the lifecycle state of its phase. -/
theorem lifecycle (steady : Steady b p) :
    .ofReport p.state p.start = (phaseOf (some p)).lifecycle := by
  rcases steady.known with stopped | ⟨running, used⟩
  · have rests := isActive_of_stopped stopped
    by_cases fresh : p.start = 0
    · simp [Lifecycle.ofReport, phaseOf, rests, stopped, fresh, Phase.lifecycle]
    · simp [Lifecycle.ofReport, phaseOf, rests, stopped, fresh, Phase.lifecycle]
  · have active : p.isActive = true := by simp [Process.isActive, running]
    rw [phaseOf_of_active active, running]
    exact if_neg (by simp [used])

end Steady

/-- A table of processes of one group that change by operations only. -/
structure Tame (b : Binding) (processes : Table Process) : Prop where
  keyed : Keyed processes
  steady : ∀ id p, processes.get? id = some p → Steady b p

namespace Tame

theorem empty (b : Binding) : Tame b .empty :=
  ⟨.empty, fun _ _ found => nomatch found⟩

/-- A record has the identifier of its name, and shows its phase. -/
theorem shown (tame : Tame b before) (found : before.get? id = some p) :
    id = b.identifier p.name ∧ (phases b before).Shown b p.report := by
  have steady := tame.steady id p found
  have same := tame.keyed id p found
  rw [steady.group] at same
  refine ⟨same, steady.group, ?_⟩
  show _ = (phases b before p.name).lifecycle
  rw [phases_of_get? (same ▸ found)]
  exact steady.lifecycle

theorem name_eq (tame : Tame b before) (found : before.get? (b.identifier name) = some p) :
    p.name = name :=
  (qualified_inj.mp (tame.shown found).1).symm

theorem shown_of_mem (tame : Tame b before) {i : ProcessInfo}
    (member : i ∈ before.values.map Process.report) : (phases b before).Shown b i := by
  obtain ⟨p, there, rfl⟩ := List.mem_map.mp member
  obtain ⟨e, stored, rfl⟩ := List.mem_map.mp there
  exact (tame.shown (Table.get?_eq_some_iff.mpr stored)).2

/-- The records name every process that is there once. -/
theorem enumerated (tame : Tame b before) :
    (phases b before).Enumerated ((before.values.map Process.report).map ProcessInfo.name) := by
  have keys : before.keys =
      ((before.values.map Process.report).map ProcessInfo.name).map b.identifier := by
    rw [Table.keys, Table.values, List.map_map, List.map_map, List.map_map]
    exact List.map_congr_left fun e member => (tame.shown (Table.get?_eq_some_iff.mpr member)).1
  intro name
  rw [← List.count_map_of_injective _ b.identifier fun _ _ => qualified_inj.mp, ← keys,
    Table.count_keys]
  simp only [phases, phaseOf_eq_absent_iff]

/-- No record is about another group. -/
theorem listed (tame : Tame b before) : b.listed (.ok (before.values.map Process.report)) =
    .ok (before.values.map Process.report) := by
  refine congrArg Except.ok (List.filter_eq_self.mpr fun i member => ?_)
  exact decide_eq_true (tame.shown_of_mem member).1

theorem lists_iff (tame : Tame b before) :
    b.lists name (.ok (before.values.map Process.report)) = true ↔
      phases b before name ≠ .absent := by
  rw [← tame.enumerated.mem_iff, Binding.lists, List.any_eq_true, List.mem_map]
  refine exists_congr fun i => and_congr_right fun member => ?_
  simp [(tame.shown_of_mem member).1]

end Tame

/-! ### Steps of the automata -/

/-- An operation on a tame table is a step of the automata. -/
structure Refines (b : Binding) (o : Operation) (reply : o.Reply) (before after : Table Process) :
    Prop where
  conforms : (phases b before).Conforms b o reply
  steps : phases b after = (phases b before).after o
  kept : (phases b before).Refuses o → after = before
  tame : o.IsPlain → Tame b after

namespace Refines

/-- An operation that leaves the table as it is. -/
theorem of_same (tame : Tame b before) (conforms : (phases b before).Conforms b o reply)
    (stays : ∀ name, o.name? = some name →
      (phases b before name).after o = phases b before name) : Refines b o reply before before := by
  refine ⟨conforms, ?_, fun _ => rfl, fun _ => tame⟩
  unfold Phases.after
  cases about : o.name? with
  | none => rfl
  | some name => exact (Function.update_eq_self_iff.mpr (stays name about)).symm

/-- An operation that is refused. -/
theorem of_refused {kind : FaultKind} (tame : Tame b before) (about : o.name? = some name)
    (step : (phases b before name).step o = .error kind)
    (conforms : (phases b before).Conforms b o reply) : Refines b o reply before before :=
  .of_same tame conforms fun other same => by
    cases about.symm.trans same
    exact Phase.after_of_error step

/-- An operation that changes the process it is about. -/
theorem of_change (tame : Tame b before) (about : o.name? = some name)
    (step : (phases b before name).step o = .ok (phaseOf (after.get? (b.identifier name))))
    (conforms : (phases b before).Conforms b o reply)
    (frame : ∀ id, id ≠ b.identifier name → after.get? id = before.get? id) (keyed : Keyed after)
    (steady : o.IsPlain → ∀ p, after.get? (b.identifier name) = some p → Steady b p) :
    Refines b o reply before after := by
  refine ⟨conforms, ?_, ?_, fun plain => ⟨keyed, fun id p found => ?_⟩⟩
  · have stepped : (phases b before).after o = Function.update (phases b before) name
        (phaseOf (after.get? (b.identifier name))) := by
      simp only [Phases.after, about, Phase.after_of_ok step]
    rw [stepped]
    funext other
    by_cases here : other = name
    · rw [here, Function.update_self]
      rfl
    · rw [Function.update_of_ne here]
      exact congrArg phaseOf (frame _ fun same => here (qualified_inj.mp same))
  · rintro ⟨other, kind, same, refused⟩
    cases about.symm.trans same
    cases step.symm.trans refused
  · by_cases here : id = b.identifier name
    · rw [here] at found
      exact steady plain p found
    · rw [frame id here] at found
      exact tame.steady id p found

/-- An operation that leaves another record in the place of the process it is about. -/
theorem of_insert (tame : Tame b before) (about : o.name? = some name)
    (step : (phases b before name).step o = .ok (phaseOf (some q)))
    (conforms : (phases b before).Conforms b o reply) (group : q.group = b.group)
    (called : q.name = name) (steady : o.IsPlain → Steady b q) :
    Refines b o reply before (before.insert (b.identifier name) q) := by
  have inserted : (before.insert (b.identifier name) q).get? (b.identifier name) = some q := by
    simp
  refine .of_change tame about (inserted ▸ step) conforms (fun id other => ?_)
    (tame.keyed.insert (by rw [group, called]; rfl)) fun plain p found => ?_
  · rw [Table.get?_insert, if_neg other.symm]
  · cases inserted.symm.trans found
    exact steady plain

end Refines

/-! ### Single operations -/

theorem isHelper_added {settings : Table String} (plain : (Operation.add name settings).IsPlain)
    (group : String) : (Process.added group name settings).isHelper = false := by
  unfold Process.isHelper
  split
  · rename_i command found
    rw [Option.isSome_eq_false_iff, Option.isNone_iff_eq_none]
    exact (Text.cut?_eq_none_iff (by decide)).mpr (plain command found)
  · rfl

/-- What a program that is no helper is when it was started. -/
theorem started_of_plain (h : Host) (pid : UInt32) (plain : p.isHelper = false) :
    h.started pid p = { p with start := 1, pid := pid, state := StateCode.running } := by
  have still : ({ p with start := 1, pid := pid } : Process).isHelper = false := plain
  simp [Host.started, still]

section Host

variable (tame : Tame b h.processes) (sound : ∀ m, h.injected? m = none)
include tame sound

theorem refines_add {settings : Table String} {reply : Except RpcError Unit}
    (answered : h.answer (.add b.group name settings) = (reply, next)) :
    Refines b (.add name settings) reply h.processes next.processes := by
  cases found : h.processes.get? (b.identifier name) with
  | none =>
      have step : (phases b h.processes name).step (.add name settings) = .ok .registered :=
        step_of_get? found rfl
      rw [Host.answer_add_of_free (sound .add) found] at answered
      cases answered
      exact .of_insert tame rfl step (grants_ok step ()) rfl rfl fun plain =>
        ⟨rfl, isHelper_added plain b.group, rfl, .inl rfl⟩
  | some p =>
      have step : (phases b h.processes name).step (.add name settings) = .error .rejected :=
        step_of_get? found (Phase.step_of_ne_absent (phaseOf_some_ne p) name .stdout settings).2.2.2
      have answers := Host.answer_answers (.add b.group name settings) h
      rw [answered] at answers
      dsimp only at answers
      generalize next.processes = after at answers
      cases answers with
      | refused why =>
          cases why with
          | injected fails => exact nomatch (sound _).symm.trans fails
          | absent about unknown =>
              cases about
              exact nomatch found.symm.trans unknown
          | taken _ => exact .of_refused tame rfl step (grants_fault step _)
      | added free => exact nomatch found.symm.trans free

theorem refines_start {reply : Except RpcError Unit}
    (answers : h.Answers (.start (b.identifier name) true) reply after) :
    Refines b (.start name) reply h.processes after := by
  cases answers with
  | refused why =>
      cases why with
      | injected fails => exact nomatch (sound _).symm.trans fails
      | absent about unknown =>
          cases about
          have step : (phases b h.processes name).step (.start name) = .error .badName :=
            step_of_get? unknown rfl
          exact .of_refused tame rfl step (grants_fault step _)
      | alreadyStarted found active =>
          have step : (phases b h.processes name).step (.start name) = .error .alreadyStarted := by
            rw [phases_of_get? found, phaseOf_of_active active]
            rfl
          exact .of_refused tame rfl step (grants_fault step _)
  | @started _ _ p found rests pid =>
      have step : (phases b h.processes name).step (.start name) = .ok .running :=
        step_of_get? found (step_start_of_rests rests name)
      obtain ⟨group, plain, settled, -⟩ := tame.steady _ p found
      have called := tame.name_eq found
      rw [started_of_plain h pid plain]
      exact .of_insert tame rfl step (grants_ok step ()) group called fun _ =>
        ⟨group, plain, settled, .inr ⟨rfl, (by decide : (1 : Int64) ≠ 0)⟩⟩

theorem refines_stop {reply : Except RpcError Unit}
    (answers : h.Answers (.stop (b.identifier name) true) reply after) :
    Refines b (.stop name) reply h.processes after := by
  cases answers with
  | refused why =>
      cases why with
      | injected fails => exact nomatch (sound _).symm.trans fails
      | absent about unknown =>
          cases about
          have step : (phases b h.processes name).step (.stop name) = .error .badName :=
            step_of_get? unknown rfl
          exact .of_refused tame rfl step (grants_fault step _)
      | notRunning found rests =>
          have step : (phases b h.processes name).step (.stop name) = .error .notRunning :=
            step_of_get? found (step_stop_of_rests rests name)
          exact .of_refused tame rfl step (grants_fault step _)
  | @stopped _ _ p found active =>
      have step : (phases b h.processes name).step (.stop name) = .ok .stopped := by
        rw [phases_of_get? found, phaseOf_of_active active]
        rfl
      have steady := tame.steady _ p found
      have called := tame.name_eq found
      have rests : phaseOf (some { p with state := StateCode.stopped }) = .stopped :=
        if_neg (steady.start_ne active)
      exact .of_insert tame rfl (rests ▸ step) (grants_ok step ()) steady.group called fun _ =>
        ⟨steady.group, steady.plain, steady.settled, .inl rfl⟩

theorem refines_clear {reply : Except RpcError Unit}
    (answers : h.Answers (.clear (b.identifier name)) reply after) :
    Refines b (.clear name) reply h.processes after := by
  cases answers with
  | refused why =>
      cases why with
      | injected fails => exact nomatch (sound _).symm.trans fails
      | absent about unknown =>
          cases about
          have step : (phases b h.processes name).step (.clear name) = .error .badName :=
            step_of_get? unknown rfl
          exact .of_refused tame rfl step (grants_fault step _)
  | @cleared _ p found =>
      have step : (phases b h.processes name).step (.clear name) = .ok (phaseOf (some p)) :=
        step_of_get? found (Phase.step_of_ne_absent (phaseOf_some_ne p) name .stdout .empty).2.2.1
      obtain ⟨group, plain, settled, known⟩ := tame.steady _ p found
      have called := tame.name_eq found
      exact .of_insert tame rfl step (grants_ok step ()) group called fun _ =>
        ⟨group, plain, settled, known⟩

theorem refines_read {log : LogKind} {reply : Except RpcError Bytes}
    (answers : h.Answers (.read (b.identifier name) log) reply after) :
    Refines b (.read name log) reply h.processes after := by
  cases answers with
  | refused why =>
      cases why with
      | injected fails => exact nomatch (sound _).symm.trans fails
      | absent about unknown =>
          cases about
          have step : (phases b h.processes name).step (.read name log) = .error .badName :=
            step_of_get? unknown rfl
          exact .of_refused tame rfl step (grants_fault step _)
  | @read _ _ p found =>
      have step : (phases b h.processes name).step (.read name log) =
          .ok (phases b h.processes name) := by
        rw [phases_of_get? found]
        exact (Phase.step_of_ne_absent (phaseOf_some_ne p) name log .empty).2.1
      refine .of_same tame (grants_ok step _) fun other about => ?_
      cases about
      exact Phase.after_of_ok step

/-- A question for a process changes nothing, and its record is given if there is one. -/
theorem info_cases {reply : Except RpcError ProcessInfo}
    (answers : h.Answers (.info (b.identifier name)) reply after) : after = h.processes ∧
      ((h.processes.get? (b.identifier name) = none ∧
          reply = .error (Host.badName (b.identifier name))) ∨
        ∃ p, h.processes.get? (b.identifier name) = some p ∧ reply = .ok p.report) := by
  cases answers with
  | refused why =>
      cases why with
      | injected fails => exact nomatch (sound _).symm.trans fails
      | absent about unknown =>
          cases about
          exact ⟨rfl, .inl ⟨unknown, rfl⟩⟩
  | @polled _ p found =>
      rw [(tame.steady _ p found).polled, Table.insert_eq_self found]
      exact ⟨rfl, .inr ⟨p, found, rfl⟩⟩

theorem refines_info {reply : Except RpcError ProcessInfo}
    (answers : h.Answers (.info (b.identifier name)) reply after) :
    Refines b (.info name) reply h.processes after := by
  obtain ⟨rfl, ⟨unknown, rfl⟩ | ⟨p, found, rfl⟩⟩ := info_cases tame sound answers
  · have step : (phases b h.processes name).step (.info name) = .error .badName :=
      step_of_get? unknown rfl
    exact .of_refused tame rfl step ⟨grants_fault step _, nofun⟩
  · have step : (phases b h.processes name).step (.info name) =
        .ok (phases b h.processes name) := by
      rw [phases_of_get? found]
      exact (Phase.step_of_ne_absent (phaseOf_some_ne p) name .stdout .empty).1
    refine .of_same tame ⟨grants_ok step _, ?_⟩ fun other about => ?_
    · rintro _ ⟨⟩
      exact ⟨tame.name_eq found, (tame.shown found).2⟩
    · cases about
      exact Phase.after_of_ok step

theorem refines_state {reply : Except RpcError ProcessInfo}
    (answers : h.Answers (.info (b.identifier name)) reply after) :
    Refines b (.state name) (Binding.stateOf reply) h.processes after := by
  obtain ⟨rfl, record⟩ := info_cases tame sound answers
  refine .of_same tame ?_ fun other about => Phase.after_of_ok rfl
  show Binding.stateOf reply = (phases b h.processes name).lifecycle
  rcases record with ⟨unknown, rfl⟩ | ⟨p, found, rfl⟩
  · rw [phases_of_get? unknown]
    rfl
  · rw [phases_of_get? found]
    exact (tame.steady _ p found).lifecycle

omit tame in
/-- A listing changes nothing and gives all records. -/
theorem listing_eq {listing : Except RpcError (List ProcessInfo)}
    (answers : h.Answers .list listing after) :
    after = h.processes ∧ listing = .ok (h.processes.values.map Process.report) := by
  obtain ⟨same, listed | ⟨e, -, fails⟩⟩ := answers.of_list
  · exact ⟨same, listed⟩
  · exact nomatch (sound _).symm.trans fails

theorem refines_hasProcess {listing : Except RpcError (List ProcessInfo)}
    (answers : h.Answers .list listing after) :
    Refines b (.hasProcess name) (b.lists name listing) h.processes after := by
  obtain ⟨rfl, rfl⟩ := listing_eq sound answers
  exact .of_same tame tame.lists_iff fun _ _ => Phase.after_of_ok rfl

theorem refines_list {listing : Except RpcError (List ProcessInfo)}
    (answers : h.Answers .list listing after) :
    Refines b .list (b.listed listing) h.processes after := by
  obtain ⟨rfl, rfl⟩ := listing_eq sound answers
  rw [tame.listed]
  exact .of_same tame ⟨_, rfl, fun i => tame.shown_of_mem, tame.enumerated⟩ nofun

theorem refines_processIds {listing : Except RpcError (List ProcessInfo)}
    (answers : h.Answers .list listing after) :
    Refines b .processIds ((b.listed listing).map Binding.ids) h.processes after := by
  obtain ⟨rfl, rfl⟩ := listing_eq sound answers
  rw [tame.listed]
  exact .of_same tame ⟨_, rfl, tame.enumerated.ids⟩ nofun

theorem refines_remove {result : Except RpcError Unit} (removal : Binding.Removal calls result)
    (served : Served b name calls h next) :
    Refines b (.remove name) result h.processes next.processes := by
  obtain ⟨rfl, gone⟩ := served.succeeds removal (sound .stop) (sound .remove)
  have step : (phases b h.processes name).step (.remove name) = .ok .absent := rfl
  refine .of_change tame rfl (by rw [gone]; exact step) (grants_ok step ())
    (fun id other => served.frame other) (served.keyed tame.keyed) fun _ p found => ?_
  cases gone.symm.trans found

/-- In whatever way an operation goes on a tame table, it is a step of the automata. -/
theorem refines_of_goes (goes : o.Goes b calls reply)
    (served : Served b (o.name?.getD "") calls h next) :
    Refines b o reply h.processes next.processes := by
  cases goes with
  | add reply =>
      obtain ⟨_, step, rfl⟩ := served
      exact refines_add tame sound (step.answered _ _ rfl)
  | start reply =>
      obtain ⟨_, step, rfl⟩ := served
      exact refines_start tame sound (step.answers rfl)
  | stop reply =>
      obtain ⟨_, step, rfl⟩ := served
      exact refines_stop tame sound (step.answers rfl)
  | remove removal => exact refines_remove tame sound removal served
  | clear reply =>
      obtain ⟨_, step, rfl⟩ := served
      exact refines_clear tame sound (step.answers rfl)
  | read reply =>
      obtain ⟨_, step, rfl⟩ := served
      exact refines_read tame sound (step.answers rfl)
  | info reply =>
      obtain ⟨_, step, rfl⟩ := served
      exact refines_info tame sound (step.answers rfl)
  | state reply =>
      obtain ⟨_, step, rfl⟩ := served
      exact refines_state tame sound (step.answers rfl)
  | hasProcess listing =>
      obtain ⟨_, step, rfl⟩ := served
      exact refines_hasProcess tame sound (step.answers rfl)
  | list listing =>
      obtain ⟨_, step, rfl⟩ := served
      exact refines_list tame sound (step.answers rfl)
  | processIds listing =>
      obtain ⟨_, step, rfl⟩ := served
      exact refines_processIds tame sound (step.answers rfl)

end Host

/-! ### Rows of operations -/

/-- A world in which the processes of a host are those of one group and change by operations
only. -/
structure Ready (b : Binding) (w : World) : Prop where
  plain : w.Unprepared b.host
  sound : ∀ m, (w.hosts b.host).injected? m = none
  tame : Tame b (w.hosts b.host).processes

/-- The world after operations. -/
def World.operate (w : World) (b : Binding) (operations : List Operation) : World :=
  operations.foldl (fun w o => (w.play (o.plan b)).2) w

/-- In such a world an operation is a step of the automata, and it leaves such a world if it adds
no helper. -/
theorem Ready.step (ready : Ready b w) (o : Operation) :
    Refines b o (w.play (o.plan b)).1 (w.hosts b.host).processes
        ((w.play (o.plan b)).2.hosts b.host).processes ∧
      (o.IsPlain → Ready b (w.play (o.plan b)).2) := by
  obtain ⟨calls, trace, goes⟩ := Operation.plan_course (Plan.play_course World.answer (o.plan b) w)
  have answered := Plan.play_answered World.answer (o.plan b) w
  rw [trace] at answered
  obtain ⟨served, -⟩ := served_of_answered ready.plain answered
  have refines := refines_of_goes ready.tame ready.sound goes served
  refine ⟨refines, fun plain => ⟨ready.plain.play (o.plan b), fun m => ?_, refines.tame plain⟩⟩
  exact (Host.injected?_of_setup served.setup m).trans (ready.sound m)

/-- Operations are steps of the automata one after another. -/
theorem Ready.operate (ready : Ready b w) {operations : List Operation}
    (plain : ∀ o ∈ operations, o.IsPlain) : Ready b (w.operate b operations) ∧
      phases b ((w.operate b operations).hosts b.host).processes =
        operations.foldl (fun phases o => phases.after o) (phases b (w.hosts b.host).processes) := by
  induction operations generalizing w with
  | nil => exact ⟨ready, rfl⟩
  | cons o operations ih =>
      obtain ⟨refines, still⟩ := ready.step o
      obtain ⟨last, same⟩ := ih (still (plain o (.head _))) fun o member =>
        plain o (.tail _ member)
      rw [refines.steps] at same
      exact ⟨last, same⟩

/-- For every row of operations through one binding, on a host without processes that can be
reached and where nothing is made to fail, if no program that prints the exported variables is
added: whatever is done next gives what the automata of the processes have it give after these
operations, and changes no process if it is refused. -/
theorem refines_run (w : World) (b : Binding) (operations : List Operation) (o : Operation)
    (plain : w.Unprepared b.host) (reached : (w.hosts b.host).unreachable = false)
    (unfailing : (w.hosts b.host).failing = []) (empty : (w.hosts b.host).processes = .empty)
    (harmless : ∀ o ∈ operations, o.IsPlain) :
    let before := w.operate b operations
    let played := before.play (o.plan b)
    (Phases.run operations).Conforms b o played.1 ∧
      ((Phases.run operations).Refuses o →
        (played.2.hosts b.host).processes = (before.hosts b.host).processes) := by
  intro before played
  have ready : Ready b w := by
    refine ⟨plain, fun m => ?_, ?_⟩
    · rw [Host.injected?_eq_none_iff, unfailing]
      exact ⟨reached, List.not_mem_nil⟩
    · rw [empty]
      exact .empty b
  obtain ⟨last, same⟩ := ready.operate harmless
  rw [empty] at same
  have run : phases b (before.hosts b.host).processes = Phases.run operations := same
  obtain ⟨refines, -⟩ := last.step o
  rw [← run]
  exact ⟨refines.conforms, refines.kept⟩

/-- A process that was started and stopped is not stopped again, and is listed once. -/
theorem refines_run_stopped :
    let w := World.fresh "20260101120000"
    let b : Binding := ⟨"np04", "daq"⟩
    let operations : List Operation := [.add "trigger" (.ofList [("command", "bin/daqling")]),
      .start "trigger", .stop "trigger"]
    w.Unprepared "np04" ∧ (w.hosts "np04").unreachable = false ∧ (w.hosts "np04").failing = [] ∧
      (w.hosts "np04").processes = .empty ∧ (∀ o ∈ operations, o.IsPlain) ∧
      Phases.run operations "trigger" = .stopped ∧
      (Phases.run operations).Conforms b (.stop "trigger")
        ((w.operate b operations).play ((Operation.stop "trigger").plan b)).1 ∧
      (Phases.run operations).Conforms b .list
        ((w.operate b operations).play (Operation.list.plan b)).1 := by
  intro w b operations
  have plain : w.Unprepared "np04" := fun _ => rfl
  have harmless : ∀ o ∈ operations, o.IsPlain := by
    intro o member
    simp only [operations, List.mem_cons, List.not_mem_nil, or_false] at member
    rcases member with rfl | rfl | rfl
    · intro command found
      cases found
      exact (Text.cut?_eq_none_iff (by decide)).mp (by decide)
    · trivial
    · trivial
  exact ⟨plain, rfl, rfl, rfl, harmless, by decide,
    (refines_run w b operations (.stop "trigger") plain rfl rfl rfl harmless).1,
    (refines_run w b operations .list plain rfl rfl rfl harmless).1⟩

end RunControl.Simulation
