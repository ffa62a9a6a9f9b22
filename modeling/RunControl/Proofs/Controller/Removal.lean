import Mathlib.Data.List.Perm.Basic
import Mathlib.Logic.Function.Iterate
import RunControl.Controller
import RunControl.Proofs.Registrar
import RunControl.Proofs.Simulation.Confined
import RunControl.Proofs.Supervisor.Removal

/-!
Batches of removals.

What one removal leaves of a process hangs on the process and on what of its supervisor fails
(`Host.remains`), and no other process changes. So what a batch leaves of a process hangs, beside
these, only on how often the process is removed, and not on when (`forEach_record`).
-/

namespace RunControl

namespace Simulation

open Binding (Removal mayRun settles dropped)

/-! ### What one removal leaves -/

/-- Whether a process is at rest by its record. -/
def Process.rests (p : Process) : Bool :=
  (Lifecycle.ofReport p.state p.start).isTerminal

/-- A process after a stop. -/
def Process.halted (p : Process) : Process :=
  if p.isActive then { p with state := StateCode.stopped } else p

namespace Host

/-- A process after a question for its record. -/
def seen (h : Host) (p : Process) : Process :=
  if h.injected? .info = none then p.polled else p

/-- What is left of a process at rest whose registration is dropped. -/
def kept (h : Host) (p : Process) : Option Process :=
  if h.injected? .remove = none then none else some p

/-- What a removal leaves of a process. It is not stopped if its record shows it at rest, and stays
as it is if it cannot be stopped. -/
def remains (h : Host) (p : Process) : Option Process :=
  if h.injected? .info = none ∧ (h.seen p).rests = true then h.kept (h.seen p)
  else if h.injected? .stop = none then h.kept (h.seen p).halted
  else some (h.seen p)

variable {h h' : Host}

theorem seen_of_setup (same : h'.setup = h.setup) : h'.seen = h.seen := by
  funext p
  rw [seen, seen, injected?_of_setup same]

theorem kept_of_setup (same : h'.setup = h.setup) : h'.kept = h.kept := by
  funext p
  rw [kept, kept, injected?_of_setup same]

theorem remains_of_setup (same : h'.setup = h.setup) : h'.remains = h.remains := by
  funext p
  rw [remains, remains, seen_of_setup same, kept_of_setup same, injected?_of_setup same,
    injected?_of_setup same]

/-- Where neither stops nor drops are made to fail, a removal leaves nothing. -/
theorem remains_eq_none (stops : h.injected? .stop = none) (removes : h.injected? .remove = none)
    (p : Process) : h.remains p = none := by
  unfold remains kept
  rw [if_pos stops, if_pos removes, if_pos removes, ite_self]

end Host

variable {b : Binding} {name : String} {calls : List Call} {h mid h' : Host}

/-- What a question for the record of a process does to it, and what the answer shows. -/
theorem Step.seen {answer : Except RpcError ProcessInfo} (step : Step b name (.info answer) h mid) :
    (h.processes.get? (b.identifier name) = none ∧
        mid.processes.get? (b.identifier name) = none) ∨
      ∃ p, h.processes.get? (b.identifier name) = some p ∧
        mid.processes.get? (b.identifier name) = some (h.seen p) ∧
        (mayRun answer = false ↔ h.injected? .info = none ∧ (h.seen p).rests = true) := by
  have answered : h.answer (.info (b.identifier name)) = (answer, mid) := step.answered _ _ rfl
  cases fails : h.injected? .info with
  | some e =>
      rw [Host.answer_of_injected fails] at answered
      obtain ⟨rfl, rfl⟩ := Prod.mk.inj answered
      cases found : h.processes.get? (b.identifier name) with
      | none => exact .inl ⟨rfl, rfl⟩
      | some p => simp [Host.seen, fails, mayRun, (Host.injected?_kind fails).1]
  | none =>
      rw [Host.answer_of_sound fails, Host.perform, Host.info] at answered
      cases found : h.processes.get? (b.identifier name) with
      | none =>
          rw [found] at answered
          obtain ⟨rfl, rfl⟩ := Prod.mk.inj answered
          exact .inl ⟨rfl, found⟩
      | some p =>
          rw [found] at answered
          obtain ⟨rfl, rfl⟩ := Prod.mk.inj answered
          refine .inr ⟨p, rfl, ?_⟩
          simp [Host.seen, fails, mayRun, Host.put, Process.rests, Process.report]

/-- What a stop does to a process, and what the answer shows. -/
theorem Step.halted {answer : Except RpcError Unit} (step : Step b name (.stop answer) h mid) :
    (settles answer = true ↔ h.injected? .stop = none) ∧
      mid.processes.get? (b.identifier name) = if h.injected? .stop = none
        then (h.processes.get? (b.identifier name)).map Process.halted
        else h.processes.get? (b.identifier name) := by
  have answered : h.answer (.stop (b.identifier name) true) = (answer, mid) :=
    step.answered _ _ rfl
  cases fails : h.injected? .stop with
  | some e =>
      obtain ⟨known, runs⟩ := Host.injected?_kind fails
      rw [Host.answer_of_injected fails] at answered
      obtain ⟨rfl, rfl⟩ := Prod.mk.inj answered
      simp [settles, known, runs]
  | none =>
      rw [Host.answer_of_sound fails, Host.perform, Host.stop] at answered
      cases found : h.processes.get? (b.identifier name) with
      | none =>
          rw [found] at answered
          obtain ⟨rfl, rfl⟩ := Prod.mk.inj answered
          simp [settles, Host.badName, RpcError.isBadName, found]
      | some p =>
          cases active : p.isActive with
          | true =>
              simp only [found, active] at answered
              obtain ⟨rfl, rfl⟩ := Prod.mk.inj answered
              simp [settles, Host.put, Process.halted, active]
          | false =>
              simp only [found, active] at answered
              obtain ⟨rfl, rfl⟩ := Prod.mk.inj answered
              simp [settles, RpcError.isNotRunning, Process.halted, active, found]

/-- What a drop leaves of a process that is not active. -/
theorem Step.kept {answer : Except RpcError Unit} (step : Step b name (.remove answer) h mid)
    (quiet : Quiet h.processes (b.identifier name)) :
    mid.processes.get? (b.identifier name) =
      (h.processes.get? (b.identifier name)).bind h.kept := by
  have answered : h.answer (.remove b.group name) = (answer, mid) := step.answered _ _ rfl
  cases fails : h.injected? .remove with
  | some e =>
      rw [Host.answer_of_injected fails] at answered
      obtain ⟨rfl, rfl⟩ := Prod.mk.inj answered
      cases h.processes.get? (b.identifier name) <;> simp [Host.kept, fails]
  | none =>
      rw [Host.answer_of_sound fails, Host.perform, Host.remove] at answered
      cases found : h.processes.get? (qualified b.group name) with
      | none =>
          rw [found] at answered
          obtain ⟨rfl, rfl⟩ := Prod.mk.inj answered
          simp [Binding.identifier, found]
      | some p =>
          simp only [found, quiet p found] at answered
          obtain ⟨rfl, rfl⟩ := Prod.mk.inj answered
          simp [Binding.identifier, Host.kept, fails, found]

/-- In whatever way a removal goes, this is what it leaves of its process. -/
theorem Served.remains {result : Except RpcError Unit} (removal : Removal calls result)
    (served : Served b name calls h h') : h'.processes.get? (b.identifier name) =
      (h.processes.get? (b.identifier name)).bind h.remains := by
  have resting {p : Process} {answer : Except RpcError ProcessInfo} (runs : mayRun answer = true)
      (known : mayRun answer = false ↔ h.injected? .info = none ∧ (h.seen p).rests = true) :
      ¬ (h.injected? .info = none ∧ (h.seen p).rests = true) := by
    rw [← known, runs]
    exact Bool.false_ne_true.symm
  cases removal with
  | absent unknown =>
      obtain ⟨mid, asked, rfl⟩ := served
      rcases asked.seen with ⟨free, gone⟩ | ⟨p, found, left, known⟩
      · rw [free, gone]
        rfl
      · cases (info_absent unknown (asked.answers rfl)).symm.trans left
  | resting rests =>
      obtain ⟨mid, asked, next, drop, rfl⟩ := served
      rw [drop.kept (info_quiet rests (asked.answers rfl)), Host.kept_of_setup asked.setup]
      rcases asked.seen with ⟨free, gone⟩ | ⟨p, found, left, known⟩
      · rw [free, gone]
        rfl
      · have rested := known.mp (by simp [mayRun, rests])
        rw [found, left]
        exact (if_pos rested).symm
  | kept runs fails =>
      obtain ⟨mid, asked, next, stop, rfl⟩ := served
      obtain ⟨settled, halted⟩ := stop.halted
      rw [fails, Host.injected?_of_setup asked.setup] at settled
      have unstopped : h.injected? .stop ≠ none := fun sound =>
        Bool.false_ne_true (settled.mpr sound)
      rw [halted, Host.injected?_of_setup asked.setup, if_neg unstopped]
      rcases asked.seen with ⟨free, gone⟩ | ⟨p, found, left, known⟩
      · rw [free, gone]
        rfl
      · rw [found, left, Option.bind_some, Host.remains, if_neg (resting runs known),
          if_neg unstopped]
  | stopped runs stops =>
      obtain ⟨mid, asked, next, stop, last, drop, rfl⟩ := served
      obtain ⟨settled, halted⟩ := stop.halted
      rw [Host.injected?_of_setup asked.setup] at settled
      rw [drop.kept (stop_quiet stops (stop.answers rfl)),
        Host.kept_of_setup (stop.setup.trans asked.setup), halted,
        Host.injected?_of_setup asked.setup, if_pos (settled.mp stops)]
      rcases asked.seen with ⟨free, gone⟩ | ⟨p, found, left, known⟩
      · rw [free, gone]
        rfl
      · rw [found, left, Option.bind_some, Host.remains, if_neg (resting runs known),
          if_pos (settled.mp stops)]
        rfl

/-- So it is in a world. -/
theorem remove_record {w : World} (b : Binding) (name : String) (plain : w.Unprepared b.host) :
    ((w.play (b.remove name)).2.hosts b.host).processes.get? (b.identifier name) =
      ((w.hosts b.host).processes.get? (b.identifier name)).bind (w.hosts b.host).remains := by
  obtain ⟨calls, removal, served, -⟩ := remove_served b name plain
  exact served.remains removal

end Simulation

namespace Controller

open Simulation

variable {c : Config} {components components' : List Component} {extra extra' : List String}
  {w : World} {host id : String}

/-! ### What a batch leaves -/

/-- The processes that a batch removes one after another, each by its host and its name. -/
def removals (components : List Component) (extra : List String) : List (String × String) :=
  components.flatMap fun component => (component.name :: extra).map (component.host, ·)

/-- Removes a process of the group. -/
def removal (c : Config) (target : String × String) : Plan (Except RpcError Unit) :=
  (⟨target.1, c.group⟩ : Binding).remove target.2

/-- Whether a process is the one under an identifier on a host. -/
def isAt (c : Config) (host id : String) (target : String × String) : Bool :=
  target.1 = host && qualified c.group target.2 = id

theorem removeComponents_after (components : List Component) (extra : List String) (w : World) :
    (w.play (removeComponents c components extra)).2 =
      (w.play (Plan.forEach components (removeOne c extra))).2 :=
  congrArg Prod.snd (Plan.run_bind ..)

/-- What is done for one component is done for its processes one after another. -/
theorem removeOne_after (component : Component) (extra : List String) (w : World) :
    (w.play (removeOne c extra component)).2 = (w.play (Plan.forEach
      ((component.name :: extra).map (component.host, ·)) (removal c))).2 := by
  have same (names : List String) : Plan.forEach (names.map (component.host, ·)) (removal c) =
      Plan.forEach names (bindingOf c component).remove := by
    induction names with
    | nil => rfl
    | cons name names ih =>
        rw [List.map_cons, Plan.forEach, Plan.forEach, ih]
        rfl
  rw [same]
  exact congrArg Prod.snd (Plan.run_bind ..)

/-- A batch for components is one for processes. -/
theorem removeComponents_removals (components : List Component) (extra : List String) (w : World) :
    (w.play (removeComponents c components extra)).2 =
      (w.play (Plan.forEach (removals components extra) (removal c))).2 := by
  rw [removeComponents_after]
  induction components generalizing w with
  | nil => rfl
  | cons component components ih =>
      have first : (w.play (Plan.forEach (component :: components) (removeOne c extra))).2 = _ :=
        Plan.run_forEach_cons World.answer (removeOne c extra) component components w
      have split : (w.play (Plan.forEach (removals (component :: components) extra)
          (removal c))).2 = _ :=
        Plan.run_forEach_append World.answer (removal c)
          ((component.name :: extra).map (component.host, ·)) (removals components extra) w
      rw [first, split]
      exact (ih _).trans (congrArg (fun w' : World => (w'.play (Plan.forEach
        (removals components extra) (removal c))).2) (removeOne_after component extra w))

/-- What a batch leaves under an identifier is what so many removals leave of what was there as the
batch has for this process. -/
theorem forEach_record (targets : List (String × String))
    (plain : ∀ target ∈ targets, w.Unprepared target.1) (host id : String) :
    ((w.play (Plan.forEach targets (removal c))).2.hosts host).processes.get? id =
      (Option.bind · (w.hosts host).remains)^[targets.countP (isAt c host id)]
        ((w.hosts host).processes.get? id) := by
  induction targets generalizing w with
  | nil => rfl
  | cons target targets ih =>
      have first : w.Unprepared target.1 := plain target (.head _)
      let mid := (w.play (removal c target)).2
      have confined : Confined _ w mid :=
        confined_of_concerns (concerns_operation (.remove target.2)) first
      have rest := ih (w := mid) fun other listed =>
        confined.plain _ (plain other (.tail _ listed))
      have split : (w.play (Plan.forEach (target :: targets) (removal c))).2 =
          (mid.play (Plan.forEach targets (removal c))).2 :=
        Plan.run_forEach_cons World.answer (removal c) target targets w
      rw [split, rest, Host.remains_of_setup (confined.setup host), List.countP_cons]
      by_cases here : isAt c host id target = true
      · have record : (mid.hosts target.1).processes.get? (qualified c.group target.2) = _ :=
          remove_record ⟨target.1, c.group⟩ target.2 first
        obtain ⟨rfl, rfl⟩ : target.1 = host ∧ qualified c.group target.2 = id := by
          simpa [isAt] using here
        rw [if_pos here, Function.iterate_succ_apply, record]
        rfl
      · have away : ¬ (host = target.1 ∧ id = qualified c.group target.2) := by
          rintro ⟨rfl, rfl⟩
          exact here (by simp [isAt])
        rw [if_neg here, Nat.add_zero, confined.frame host id away]

theorem removals_plain (plain : ∀ component ∈ components, w.Unprepared component.host) :
    ∀ target ∈ removals components extra, w.Unprepared target.1 := by
  intro target member
  obtain ⟨component, listed, member⟩ := List.mem_flatMap.mp member
  obtain ⟨name, -, rfl⟩ := List.mem_map.mp member
  exact plain component listed

/-- The processes that are removed in another order of components and names are the same, each as
often. -/
theorem removals_perm (order : components'.Perm components) (names : extra'.Perm extra) :
    (removals components' extra').Perm (removals components extra) := by
  refine order.flatMap fun component _ => ?_
  exact (names.cons component.name).map _

/-- A batch leaves no process registered that it removes, on a host that makes neither stops nor
removals fail. -/
theorem removeComponents_gone (plain : ∀ component ∈ components, w.Unprepared component.host)
    {component : Component} (listed : component ∈ components)
    (stops : (w.hosts component.host).injected? .stop = none)
    (removes : (w.hosts component.host).injected? .remove = none) {name : String}
    (named : name ∈ component.name :: extra) :
    ((w.play (removeComponents c components extra)).2.hosts component.host).processes.get?
      (qualified c.group name) = none := by
  have target : (component.host, name) ∈ removals components extra :=
    List.mem_flatMap.mpr ⟨component, listed, List.mem_map_of_mem named⟩
  have removed : 0 < (removals components extra).countP
      (isAt c component.host (qualified c.group name)) :=
    List.countP_pos_iff.mpr ⟨_, target, by simp [isAt]⟩
  rw [removeComponents_removals, forEach_record _ (removals_plain plain),
    ← Nat.sub_add_cancel removed, Function.iterate_succ_apply', Option.bind_eq_none_iff]
  exact fun p _ => Host.remains_eq_none stops removes p

/-- What a batch of removals does to the tables of processes. -/
structure Cleared (c : Config) (components : List Component) (extra : List String) (w : World) :
    Prop where
  /-- The tables that are left do not hang on the order of the components or of the other names. -/
  unordered : ∀ components' extra', components'.Perm components → extra'.Perm extra → ∀ host,
    ((w.play (removeComponents c components' extra')).2.hosts host).processes =
      ((w.play (removeComponents c components extra)).2.hosts host).processes
  /-- No process that was to be removed is registered on a host that can be reached and makes
  neither stops nor removals fail. -/
  complete : ∀ component ∈ components, (w.hosts component.host).unreachable = false →
    .stop ∉ (w.hosts component.host).failing → .remove ∉ (w.hosts component.host).failing →
    ∀ name ∈ component.name :: extra, ((w.play (removeComponents c components extra)).2.hosts
      component.host).processes.get? (qualified c.group name) = none
  /-- Nothing changes under an identifier that none of the processes has that were to be removed on
  the host. -/
  frame : ∀ host id, (∀ component ∈ components, component.host = host →
      ∀ name ∈ component.name :: extra, id ≠ qualified c.group name) →
    ((w.play (removeComponents c components extra)).2.hosts host).processes.get? id =
      (w.hosts host).processes.get? id

/-- For every list of components, every list of further names and every world in which no answers
are prepared, whatever fails and whatever cannot be reached: the tables that a batch of removals
leaves do not hang on the order of either list, it leaves none of its processes registered where it
can remove them, and it changes nothing else. -/
theorem removeComponents_cleared (c : Config) (components : List Component) (extra : List String)
    (w : World) (plain : ∀ component ∈ components, w.Unprepared component.host) :
    Cleared c components extra w := by
  have record := forEach_record (c := c) (removals components extra) (removals_plain plain)
  constructor
  case unordered =>
    intro components' extra' order names host
    have plain' : ∀ component ∈ components', w.Unprepared component.host :=
      fun component listed => plain component (order.mem_iff.mp listed)
    refine Table.ext fun id => ?_
    rw [removeComponents_removals, removeComponents_removals, record,
      forEach_record _ (removals_plain plain'), (removals_perm order names).countP_eq]
  case complete =>
    intro component listed reached stops removes name named
    exact removeComponents_gone plain listed (Host.injected?_eq_none_iff.mpr ⟨reached, stops⟩)
      (Host.injected?_eq_none_iff.mpr ⟨reached, removes⟩) named
  case frame =>
    intro host id away
    have never : (removals components extra).countP (isAt c host id) = 0 := by
      refine List.countP_eq_zero.mpr fun target member here => ?_
      obtain ⟨component, listed, member⟩ := List.mem_flatMap.mp member
      obtain ⟨name, named, rfl⟩ := List.mem_map.mp member
      obtain ⟨place, same⟩ : component.host = host ∧ qualified c.group name = id := by
        simpa [isAt] using here
      exact away component listed place name named same.symm
    rw [removeComponents_removals, record, never]
    rfl

/-! ### Two hosts -/

/-- Two components share a host, and one stands on another. -/
def fleet : List Component :=
  [("trigger", "np04"), ("readout", "np05"), ("builder", "np04")].map fun (name, host) =>
    ⟨name, host, 5555, .default, [], .empty⟩

/-- On one host a component's process and one more are running; on the other registrations cannot
be dropped. -/
def running : World :=
  let first := (Host.fresh.insertRunning "daq" "trigger" "bin/daqling").insertRunning "daq"
    "monitor" "bin/monitor"
  let second := { Host.fresh.insertRunning "daq" "readout" "bin/daqling" with
    failing := [.remove] }
  ((World.fresh "20260101120000").setHost "np04" first).setHost "np05" second

/-- The further names, one of which is that of a component, are removed on both hosts. Where the
process cannot be dropped it is stopped. -/
theorem removeComponents_cleared_fleet :
    (∀ component ∈ fleet, running.Unprepared component.host) ∧
      Cleared Registrar.operator fleet ["monitor", "trigger"] running ∧
      ((running.play (removeComponents Registrar.operator fleet ["monitor", "trigger"])).2.hosts
        "np04").processes.get? (qualified "daq" "monitor") = none ∧
      (((running.play (removeComponents Registrar.operator fleet ["monitor", "trigger"])).2.hosts
        "np05").processes.get? (qualified "daq" "readout")).map Process.state =
          some StateCode.stopped := by
  have plain : ∀ component ∈ fleet, running.Unprepared component.host := fun _ _ _ => rfl
  have cleared :=
    removeComponents_cleared Registrar.operator fleet ["monitor", "trigger"] running plain
  have sound : (running.hosts "np04").failing = [] := rfl
  have gone := cleared.complete _ (.head _) rfl (by simp [sound]) (by simp [sound]) "monitor"
    (.tail _ (.head _))
  exact ⟨plain, cleared, gone, by decide +kernel⟩

end Controller

end RunControl
