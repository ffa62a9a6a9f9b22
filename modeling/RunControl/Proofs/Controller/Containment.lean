import RunControl.Controller
import RunControl.Proofs.HostEnvironment.Serial
import RunControl.Proofs.Registrar
import RunControl.Proofs.Simulation.Beside
import RunControl.Proofs.Supervisor.Operation

/-!
A faulty host does not disturb the others.

A registration reads the clock once and then stays at its host, and a start or a removal asks its
host only. Batches consist of such items, so they keep two worlds side by side that differ in one
host, and what is seen of the others is the same in both (`faults_contained`).
-/

namespace RunControl

theorem Operation.stays (o : Operation) (b : Binding) :
    (o.plan b).Only (Request.StaysAt b.host) := by
  intro events reply course e member
  obtain ⟨calls, rfl, -⟩ := Operation.plan_course course
  obtain ⟨c, -, rfl⟩ := List.mem_map.mp member
  exact HostEnvironment.event_staysAt b _ c

namespace Controller

open HostEnvironment Registrar Simulation

variable {c : Config} {clock : Clock} {host other : String} {s t : Timed} {stamp : String}

theorem afterAnswer_stays (r : ProcessRequest) (reply : Except RpcError Unit) :
    (afterAnswer c other r stamp reply).Only (Request.StaysAt other) := by
  cases reply with
  | error e => exact Plan.only_done _
  | ok u => exact (resolve_stays ⟨other, c.group⟩ c.poll).bind fun _ => Plan.only_done _

/-- What a registration asks for after the time stays at its host. -/
theorem submission_stays (stamp : String) (r : ProcessRequest) :
    (Plan.ask (.order other (.add c.group r.name (submitted c.user stamp r).settings)) fun reply =>
      afterAnswer c other r stamp reply).Only (Request.StaysAt other) :=
  Plan.only_ask rfl fun reply => afterAnswer_stays r reply

/-- A registration that succeeds is one at its host. -/
theorem afterAnswer_host {σ : Type} {answer : Answerer σ} {u : σ} (r : ProcessRequest)
    (reply : Except RpcError Unit) {given : Registration}
    (succeeds : ((afterAnswer c other r stamp reply).run answer u).1 = .ok given) :
    given.host = other := by
  cases reply with
  | error e => cases succeeds
  | ok u =>
      simp only [afterAnswer, Plan.run_bind, Plan.run] at succeeds
      cases succeeds
      rfl

/-- The log of a registration, if it succeeded. -/
def log : Except RpcError Registration → Option LogLocation
  | .ok r => some ⟨r.host, r.logFile⟩
  | .error _ => none

/-- A registration that is logged is logged at its host. -/
theorem afterAnswer_log {σ : Type} {answer : Answerer σ} {u : σ} (r : ProcessRequest)
    (reply : Except RpcError Unit) :
    (log ((afterAnswer c host r stamp reply).run answer u).1).filter (·.host ≠ host) = none := by
  cases given : ((afterAnswer c host r stamp reply).run answer u).1 with
  | error e => rfl
  | ok registration =>
      have here := afterAnswer_host r reply given
      simp [log, Option.filter, here]

/-- A registration keeps two worlds side by side, and is logged as in the one in the other unless it
is at the one host. -/
theorem register_beside (clock : Clock) (r : ProcessRequest) (beside : Beside host s t) :
    (log ((register c other r).run (Timed.answer clock) s).1).filter (·.host ≠ host) =
        (log ((register c other r).run (Timed.answer clock) t).1).filter (·.host ≠ host) ∧
      Beside host ((register c other r).run (Timed.answer clock) s).2
        ((register c other r).run (Timed.answer clock) t).2 := by
  obtain ⟨stamp, later⟩ := answer_beside clock (r := .now) trivial beside
  rw [register_eq]
  rw [Plan.run, Plan.run]
  dsimp only
  rw [← stamp]
  obtain ⟨same, after⟩ := staying_beside clock
    (submission_stays (c := c) (Timed.answer clock .now s).1 r) later
  refine ⟨?_, after⟩
  by_cases here : other = host
  · subst here
    rw [Plan.run, Plan.run]
    exact (afterAnswer_log r _).trans (afterAnswer_log r _).symm
  · exact congrArg (fun given => (log given).filter (·.host ≠ host)) (same here)

theorem registerAll_beside (items : List (String × ProcessRequest)) (beside : Beside host s t) :
    ((registerAll c items).run (Timed.answer clock) s).1.filter (·.host ≠ host) =
        ((registerAll c items).run (Timed.answer clock) t).1.filter (·.host ≠ host) ∧
      Beside host ((registerAll c items).run (Timed.answer clock) s).2
        ((registerAll c items).run (Timed.answer clock) t).2 := by
  let one (item : String × ProcessRequest) := register c item.1 item.2
  obtain ⟨logs, after⟩ := forEach_beside clock items one
    (fun given => (log given).filter (·.host ≠ host))
    (fun item _ s t beside => register_beside clock item.2 beside) beside
  have run (u : Timed) : (registerAll c items).run (Timed.answer clock) u =
      (((Plan.forEach items one).run (Timed.answer clock) u).1.filterMap log,
        ((Plan.forEach items one).run (Timed.answer clock) u).2) := Plan.run_bind ..
  have others := congrArg (List.filterMap id) logs
  rw [List.filterMap_map, List.filterMap_map] at others
  rw [run, run]
  dsimp only
  rw [List.filter_filterMap, List.filter_filterMap]
  exact ⟨others, after⟩

/-- The start of a component's process asks its host only. -/
theorem bootOne_stays (component : Component) :
    (bootOne c component).Only (Request.StaysAt component.host) := by
  refine ((Operation.start component.name).stays (bindingOf c component)).bind fun reply => ?_
  cases reply with
  | ok u => exact Plan.only_done _
  | error e => exact Plan.only_done _

/-- So does the removal of its process and of further ones. -/
theorem removeOne_stays (extra : List String) (component : Component) :
    (removeOne c extra component).Only (Request.StaysAt component.host) := by
  refine Plan.Only.bind ?_ fun _ => Plan.only_done _
  exact Plan.only_forEach fun name _ =>
    (Operation.remove name).stays (bindingOf c component)

/-- A batch of plans that stay each at a host keeps two worlds side by side. -/
theorem forEach_stays {items : List α} {plan : α → Plan β} (place : α → String)
    (each : ∀ a, (plan a).Only (Request.StaysAt (place a))) (beside : Beside host s t) :
    Beside host ((Plan.forEach items plan).run (Timed.answer clock) s).2
      ((Plan.forEach items plan).run (Timed.answer clock) t).2 :=
  (forEach_beside clock items plan (fun _ => ())
    (fun a _ _ _ beside => ⟨rfl, (staying_beside clock (each a) beside).2⟩)
    beside).2

/-! ### Whole batches -/

/-- Something that is done to components, one after another. -/
inductive Batch where
  | add (components : List Component)
  | boot (components : List Component)
  /-- The names are those of further processes on the host of each component. -/
  | remove (components : List Component) (extra : List String)

/-- What a batch does. Only additions give logs. -/
def Batch.plan (c : Config) : Batch → Plan (List LogLocation)
  | .add components => addComponents c components
  | .boot components => do
    let _ ← bootComponents c components
    return []
  | .remove components extra => do
    removeComponents c components extra
    return []

theorem Batch.plan_beside (batch : Batch) (beside : Beside host s t) :
    ((batch.plan c).run (Timed.answer clock) s).1.filter (·.host ≠ host) =
        ((batch.plan c).run (Timed.answer clock) t).1.filter (·.host ≠ host) ∧
      Beside host ((batch.plan c).run (Timed.answer clock) s).2
        ((batch.plan c).run (Timed.answer clock) t).2 := by
  cases batch with
  | add components => exact registerAll_beside _ beside
  | boot components =>
      have run (u : Timed) : ((Batch.boot components).plan c).run (Timed.answer clock) u =
          ([], ((Plan.forEach components (bootOne c)).run (Timed.answer clock) u).2) := by
        simp only [Batch.plan, bootComponents, bind, Plan.run_bind, pure, Plan.run]
      rw [run, run]
      exact ⟨rfl, forEach_stays Component.host bootOne_stays beside⟩
  | remove components extra =>
      have run (u : Timed) : ((Batch.remove components extra).plan c).run (Timed.answer clock) u =
          ([], ((Plan.forEach components (removeOne c extra)).run (Timed.answer clock) u).2) := by
        simp only [Batch.plan, removeComponents, bind, Plan.run_bind, pure, Plan.run]
      rw [run, run]
      exact ⟨rfl, forEach_stays Component.host (removeOne_stays extra) beside⟩

/-- The status of a component elsewhere asks the one host for nothing. -/
theorem status_avoids {component : Component} (away : component.host ≠ host) :
    (status c component).Only (Request.Avoids host) := by
  have asked : (Command.statusReport component).Only (Request.Avoids host) := by
    refine Plan.Only.bind (Plan.Only.bind (Plan.only_request away) fun reply => ?_)
      fun report => Plan.only_done _
    cases reply with
    | ok payload => exact Plan.only_done _
    | error e => exact Plan.only_done _
  have info := Plan.Only.mono ((Operation.info component.name).stays (bindingOf c component))
    fun r stays => stays.avoids away
  refine asked.bind fun answer => ?_
  cases answer with
  | ok report => exact Plan.only_done report
  | error e =>
      dsimp only
      split
      · exact info.bind fun record => Plan.only_done _
      · exact Plan.only_done _

/-- Batches of any kinds are played in two worlds that differ in the supervisor of one host only, in
its processes, in what of it fails, in whether it can be reached, or in how its helpers behave. The
clock shows the same in both. Then every batch gives the same logs of other hosts, in the same
order, in both worlds. The supervisors of other hosts are the same in both afterwards, and so are the
states of components on other hosts, however many are asked for. -/
theorem faults_contained (c : Config) (clock : Clock) (w : World) (host : String) (faulty : Host)
    (batches : List Batch) :
    let played (w : World) := (Plan.forEach batches (Batch.plan c)).run (Timed.answer clock)
      (.started w)
    let spoilt := w.setHost host faulty
    (played spoilt).1.map (List.filter (·.host ≠ host)) =
        (played w).1.map (List.filter (·.host ≠ host)) ∧
      (∀ other, other ≠ host →
        (played spoilt).2.world.hosts other = (played w).2.world.hosts other) ∧
      ∀ components : List Component, (∀ component ∈ components, component.host ≠ host) →
        ((Plan.forEach components (status c)).run (Timed.answer clock) (played spoilt).2).1 =
          ((Plan.forEach components (status c)).run (Timed.answer clock) (played w).2).1 := by
  intro played spoilt
  have start : Beside host (.started spoilt) (.started w) :=
    ⟨fun other away => World.site_setHost_away away, rfl, rfl⟩
  obtain ⟨logs, after⟩ := forEach_beside clock batches (Batch.plan c)
    (fun logs : List LogLocation => logs.filter (·.host ≠ host))
    (fun batch _ _ _ beside => batch.plan_beside (c := c) beside) start
  refine ⟨logs, fun other away => ?_, fun components away => ?_⟩
  · exact congrArg Site.supervisor (after.sites other away)
  · have only := Plan.only_forEach fun component listed =>
      status_avoids (c := c) (away component listed)
    exact (avoiding_beside clock only after).1

/-- A host that cannot be reached stands between two others: the processes there are registered
with the logs that they would have had. -/
theorem faults_contained_unreachable :
    let on (host : String) : Component := ⟨"readout", host, 5555, .default, [], .empty⟩
    let clock : Clock := fun n => if n = 0 then "20260101120000" else "20260101120001"
    let w := World.fresh "20260101120000"
    let played (w : World) := (Plan.forEach [.add [on "np04", on "np05", on "np06"]]
      (Batch.plan operator)).run (Timed.answer clock) (.started w)
    let spoilt := w.setHost "np05" { Host.fresh with unreachable := true }
    (played spoilt).1.map (List.filter (·.host ≠ "np05")) =
        (played w).1.map (List.filter (·.host ≠ "np05")) ∧
      (played spoilt).1.map (List.map LogLocation.host) = [["np04", "np06"]] ∧
      (played w).1.map (List.map LogLocation.host) = [["np04", "np05", "np06"]] := by
  intro on clock w played spoilt
  refine ⟨(faults_contained operator clock w "np05" _ _).1, ?_, ?_⟩
  · decide +kernel
  · decide +kernel

end Controller

end RunControl
