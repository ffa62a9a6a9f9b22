import RunControl.Proofs.HostEnvironment.Course
import RunControl.Proofs.Rpc.Identifier
import RunControl.Proofs.Simulation.Served
import RunControl.Proofs.Supervisor.Operation

/-!
How far the groups of a host are kept apart.

Processes are asked for by their identifiers. So what is done for one group can reach a process
of another exactly if the two groups have an identifier in common, and a process that is not there
is taken for another unless its identifier belongs to it alone (`isolation_iff`).
-/

namespace RunControl.Simulation

variable {group other name name' : String} {b : Binding} {w : World}

/-! ### What is done for a group -/

/-- What can be done for the group of a binding: every operation, and finding out the environment
of its processes. -/
inductive Issued (b : Binding) : {α : Type} → Plan α → Prop where
  | operation (o : Operation) : Issued b (o.plan b)
  | resolve (poll : PollBudget) : Issued b (HostEnvironment.resolve b poll)

/-- Whatever is done for a group is a row of calls about one of its processes. -/
theorem Issued.course {α : Type} {p : Plan α} {events : List Event} {a : α} (issued : Issued b p)
    (course : p.Course events a) :
    ∃ (name : String) (calls : List Call), events = calls.map (Call.event b name) := by
  cases issued with
  | operation o =>
      obtain ⟨calls, same, -⟩ := Operation.plan_course course
      exact ⟨_, calls, same⟩
  | resolve poll =>
      obtain ⟨forward, cleared, removed, _, same, -⟩ := HostEnvironment.resolve_course course
      exact ⟨HostEnvironment.helperName, _, same⟩

/-- Whatever is done for a group leaves every process of another with all it has. -/
def Isolated (group other : String) : Prop :=
  ∀ (host : String) (w : World), w.Unprepared host → Keyed (w.hosts host).processes →
    ∀ (α : Type) (p : Plan α), Issued ⟨host, group⟩ p → ∀ id q, q.group = other →
      (((w.play p).2.hosts host).processes.get? id = some q ↔
        (w.hosts host).processes.get? id = some q)

/-- Groups without an identifier in common are kept apart. -/
theorem isolated_of_ne (apart : ∀ name name', qualified group name ≠ qualified other name') :
    Isolated group other := by
  intro host w plain keyed α p issued id q own
  obtain ⟨name, calls, trace⟩ := issued.course (Plan.play_course World.answer p w)
  have answered := Plan.play_answered World.answer p w
  rw [trace] at answered
  obtain ⟨served, -⟩ := served_of_answered plain answered
  by_cases here : id = Binding.identifier ⟨host, group⟩ name
  · -- No process of the other group is there, before or after.
    have elsewhere {processes : Table Process} (keyed : Keyed processes) :
        processes.get? id ≠ some q := by
      intro found
      have same := keyed id q found
      rw [here, own] at same
      exact apart name q.name same
    exact ⟨fun found => absurd found (elsewhere (served.keyed keyed)),
      fun found => absurd found (elsewhere keyed)⟩
  · have frame : ((w.play p).2.hosts host).processes.get? id = _ := served.frame here
    rw [frame]

/-- A supervisor with one process. -/
def holding (p : Process) : World :=
  (World.fresh "").onHost "" fun h => h.put (qualified p.group p.name) p

theorem holding_hosts (p : Process) :
    (holding p).hosts "" = Host.fresh.put (qualified p.group p.name) p := rfl

theorem holding_keyed (p : Process) : Keyed ((holding p).hosts "").processes :=
  Keyed.empty.insert rfl

theorem holding_get? (p : Process) :
    ((holding p).hosts "").processes.get? (qualified p.group p.name) = some p := by
  simp [holding_hosts, Host.put]

/-- A process of another group is stopped by the identifier that it has in common with one of
this group. -/
theorem not_isolated (same : qualified group name = qualified other name') :
    ¬ Isolated group other := by
  intro isolated
  let p : Process := { Process.added other name' .empty with state := StateCode.running }
  have plain : (holding p).Unprepared "" := fun _ => rfl
  have found : ((holding p).hosts "").processes.get? (qualified group name) = some p := by
    rw [same]
    exact holding_get? p
  have kept := (isolated "" (holding p) plain (holding_keyed p) _ _ (.operation (.stop name))
    (qualified group name) p rfl).mpr found
  have active : p.isActive = true := rfl
  have stopped : ((holding p).hosts "").answer (.stop (qualified group name) true) =
      (.ok (), ((holding p).hosts "").put (qualified group name)
        { p with state := StateCode.stopped }) := by
    have sound : ((holding p).hosts "").injected? .stop = none := rfl
    rw [Host.answer_of_sound sound]
    simp only [Host.perform, Host.stop, found, active]
    rfl
  have after := (World.play_order (b := ⟨"", group⟩) plain (.stop (qualified group name) true)).2
  rw [stopped] at after
  have given : ((((holding p).play ((Operation.stop name).plan ⟨"", group⟩)).2).hosts "") = _ :=
    after
  rw [given] at kept
  simp [Host.put, p, StateCode.stopped, StateCode.running] at kept

/-- What is done for a group leaves the processes of another exactly if neither of the two
extends the other. -/
theorem isolated_iff (different : group ≠ other) :
    Isolated group other ↔ ¬ Extends group other ∧ ¬ Extends other group := by
  rw [← not_or, ← exists_qualified_eq_iff different]
  constructor
  · rintro isolated ⟨name, name', same⟩
    exact not_isolated same isolated
  · intro apart
    exact isolated_of_ne fun name name' same => apart ⟨name, name', same⟩

/-! ### What is not there -/

/-- A process of a group that is not there is never taken for another, on a host that answers
questions for processes. -/
def Honest (group name : String) : Prop :=
  ∀ (host : String) (w : World), w.Unprepared host → Keyed (w.hosts host).processes →
    (w.hosts host).unreachable = false → .info ∉ (w.hosts host).failing →
    registers ⟨host, group⟩ name (w.hosts host).processes = false →
      (w.play ((Operation.state name).plan ⟨host, group⟩)).1 = .notRegistered

theorem play_state (plain : w.Unprepared b.host) (name : String) :
    (w.play (b.state name)).1 =
      Binding.stateOf ((w.hosts b.host).answer (.info (b.identifier name))).1 := by
  have asked := (World.play_order plain (.info (b.identifier name))).1
  rw [← asked]
  rfl

/-- A process that is there under the identifier of another is taken for it. -/
theorem unique_of_honest (honest : Honest group name)
    (same : qualified other name' = qualified group name) : other = group ∧ name' = name := by
  by_contra apart
  let p : Process := .added other name' .empty
  have plain : (holding p).Unprepared "" := fun _ => rfl
  have found : ((holding p).hosts "").processes.get? (qualified group name) = some p := by
    rw [← same]
    exact holding_get? p
  have absent : registers ⟨"", group⟩ name ((holding p).hosts "").processes = false := by
    have single : registers ⟨"", group⟩ name ((holding p).hosts "").processes =
        owns ⟨"", group⟩ name p := registers_single
    rw [single, Bool.eq_false_iff]
    intro own
    exact apart (by simpa [owns, p, Process.added] using own)
  have asked : ((holding p).hosts "").answer (.info (qualified group name)) =
      (.ok p.polled.report, ((holding p).hosts "").put (qualified group name) p.polled) := by
    have sound : ((holding p).hosts "").injected? .info = none := rfl
    rw [Host.answer_of_sound sound]
    simp only [Host.perform, Host.info, found]
    rfl
  have said : ((holding p).play (Binding.state ⟨"", group⟩ name)).1 = .notRegistered :=
    honest "" (holding p) plain (holding_keyed p) rfl List.not_mem_nil absent
  have shown : Binding.stateOf (.ok p.polled.report) = .registered := rfl
  rw [play_state plain, Binding.identifier, asked] at said
  cases shown.symm.trans said

/-- A process whose identifier belongs to it alone is never taken for another. -/
theorem honest_of_unique (unique : ∀ group' name', qualified group' name' = qualified group name →
    group' = group ∧ name' = name) : Honest group name := by
  intro host w plain keyed reached sound absent
  have free : (w.hosts host).processes.get? (qualified group name) = none := by
    rw [Option.eq_none_iff_forall_ne_some]
    intro p found
    obtain ⟨own, called⟩ := unique p.group p.name (keyed _ p found).symm
    have there : registers ⟨host, group⟩ name (w.hosts host).processes = true :=
      registers_iff.mpr ⟨_, p, found, by simp [owns, own, called]⟩
    cases absent.symm.trans there
  obtain ⟨e, answer, bad⟩ := Host.answer_of_absent (o := .info (qualified group name)) free rfl
    (by rintro _ _ _ ⟨⟩) (by rintro _ ⟨⟩)
  obtain rfl := bad (Host.injected?_eq_none_iff.mpr ⟨reached, sound⟩)
  show (w.play (Binding.state ⟨host, group⟩ name)).1 = .notRegistered
  rw [play_state plain, Binding.identifier, answer]
  rfl

/-- No process is taken for another exactly if there is no colon in its group and its name. -/
theorem honest_iff : Honest group name ↔ ':' ∉ group.toList ∧ ':' ∉ name.toList := by
  rw [← qualified_unique_iff]
  constructor
  · intro honest group' name' same
    exact unique_of_honest honest same
  · intro unique
    exact honest_of_unique unique

/-- For every two groups, every process that a host's supervisor can have and everything that is
done for the one group: it leaves the processes of the other with all they have exactly if neither
group is the other with a colon and more behind it. And a process of a group that is not there is
never taken for another exactly if there is no colon in its group and its name. -/
theorem isolation_iff (group other : String) (different : group ≠ other) :
    (Isolated group other ↔ ¬ Extends group other ∧ ¬ Extends other group) ∧
      ∀ name, Honest group name ↔ ':' ∉ group.toList ∧ ':' ∉ name.toList := by
  constructor
  · exact isolated_iff different
  · intro name
    exact honest_iff

/-- Two groups without colons are kept apart. -/
theorem isolation_trigger : "daq" ≠ "trigger" ∧ Isolated "daq" "trigger" ∧ Honest "daq" "np04" := by
  have different : "daq" ≠ "trigger" := by decide
  obtain ⟨isolated, honest⟩ := isolation_iff "daq" "trigger" different
  have unextended {group other : String} (plain : ':' ∉ group.toList) : ¬ Extends group other := by
    rintro ⟨more, same⟩
    exact plain (mem_colon_iff.mpr ⟨other, more, same⟩)
  exact ⟨different, isolated.mpr ⟨unextended (by decide), unextended (by decide)⟩,
    (honest "np04").mpr ⟨by decide, by decide⟩⟩

/-- A process of the group `daq:a` is stopped through the group `daq`, where it passes for one that
is not there. -/
theorem isolation_fails :
    let w := (World.fresh "20260101120000").onHost "np04" fun h =>
      h.insertRunning "daq:a" "b" "bin/daqling"
    let b : Binding := ⟨"np04", "daq"⟩
    let after := (w.play (b.stop "a:b")).2
    registers b "a:b" (w.hosts "np04").processes = false ∧
      (w.play (b.state "a:b")).1 = .running ∧
      ((w.hosts "np04").processes.get? "daq:a:b").map (fun p => (p.group, p.state)) =
        some ("daq:a", StateCode.running) ∧
      ((after.hosts "np04").processes.get? "daq:a:b").map (fun p => (p.group, p.state)) =
        some ("daq:a", StateCode.stopped) := by
  decide +kernel

end RunControl.Simulation
