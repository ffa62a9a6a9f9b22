import RunControl.Cli.Tool
import RunControl.Proofs.Controller.RunStates
import RunControl.Proofs.Controller.Status

/-!
What a batch does, and what is said of it.

A batch goes on whatever becomes of its items, and only its end depends on them. For a command this
is `Tallied`: each component is called once, a reply is printed, and a component that did not reply
with success is remembered. For an addition it is `Added`. Both are proved item by item, for every
course of the batch, and `batch_reported` reads off what the tool prints and how it ends.
-/

namespace RunControl.Cli

open Controller (Directive Replies Unanswered decode_cases sendTo_course)
open Registrar (Submission)
open Utf8 (Bytes)

variable {c : Config} {files : FileReader} {diagnosis : Diagnosis} {arguments : List String}
  {i : Invocation} {path text : String} {d : Deployment} {o : Outcome}
  {directive : Component → Directive} {component : Component} {components : List Component}
  {events : List Event} {documents : List Json} {failed : List String}

/-! ### Commands -/

/-- What an action asks of each component, if it sends them a command and prints their replies. -/
def Action.directive? : Action → Option (Component → Directive)
  | .configure => some .configure
  | .unconfigure => some .unconfigure
  | .start run => some fun component => .start component run
  | .stop => some .stop
  | .shutdown => some .shutdown
  | .custom name arg => some fun component => .custom component name arg
  | .add | .addScripts | .boot | .remove _ | .status | .pids _ => none

/-- The command of a directive, to where a component takes commands. -/
def call (directive : Component → Directive) (component : Component) : Request :=
  .command component.host component.port (directive component).command (directive component).args

/-- The command with what becomes of it. -/
def called (directive : Component → Directive) (component : Component)
    (outcome : Except RpcError Bytes) : Event :=
  ⟨call directive component, outcome⟩

/-- The component replied with success. -/
def Succeeds (outcome : Except RpcError Bytes) : Prop :=
  ∃ r, Replies outcome r ∧ r.status = Reply.success

theorem outcome_inj {component component' : Component} {outcome outcome' : Except RpcError Bytes}
    (same : called directive component outcome = called directive component' outcome') :
    outcome = outcome' := by
  injection same

theorem replies_inj {outcome : Except RpcError Bytes} {r r' : Wire.CommandResult}
    (replies : Replies outcome r) (replies' : Replies outcome r') : r = r' := by
  obtain ⟨payload, rfl, decoded, -⟩ := replies
  obtain ⟨payload', same, decoded', -⟩ := replies'
  cases same
  exact Except.ok.inj (decoded.symm.trans decoded')

/-- What comes of a directive, component by component: the calls, a document for each reply, and the
name of each component that did not reply with success. -/
inductive Tallied (directive : Component → Directive) :
    List Component → List Event → List Json → List String → Prop where
  | nil : Tallied directive [] [] [] []
  | succeeded {component : Component} {components : List Component}
      {outcome : Except RpcError Bytes} {r : Wire.CommandResult} {events : List Event}
      {documents : List Json} {failed : List String}
      (replies : Replies outcome r) (success : r.status = Reply.success)
      (rest : Tallied directive components events documents failed) :
      Tallied directive (component :: components) (called directive component outcome :: events)
        (replyDocument component.name ⟨r.status, r.response, r.modules⟩ :: documents) failed
  | declined {component : Component} {components : List Component}
      {outcome : Except RpcError Bytes} {r : Wire.CommandResult} {events : List Event}
      {documents : List Json} {failed : List String}
      (replies : Replies outcome r) (unsuccessful : r.status ≠ Reply.success)
      (rest : Tallied directive components events documents failed) :
      Tallied directive (component :: components) (called directive component outcome :: events)
        (replyDocument component.name ⟨r.status, r.response, r.modules⟩ :: documents)
        (component.name :: failed)
  | unanswered {component : Component} {components : List Component}
      {outcome : Except RpcError Bytes} {events : List Event}
      {documents : List Json} {failed : List String}
      (unanswered : Unanswered outcome)
      (rest : Tallied directive components events documents failed) :
      Tallied directive (component :: components) (called directive component outcome :: events)
        documents (component.name :: failed)

namespace Tallied

/-- Each component is called once, in order. -/
theorem requests (tallied : Tallied directive components events documents failed) :
    events.map Event.request = components.map (call directive) := by
  induction tallied with
  | nil => rfl
  | succeeded _ _ _ ih | declined _ _ _ ih | unanswered _ _ ih => exact congrArg (_ :: ·) ih

/-- No name is remembered exactly if every component replied with success. -/
theorem failed_eq_nil_iff (tallied : Tallied directive components events documents failed) :
    failed = [] ↔
      ∀ component outcome, called directive component outcome ∈ events → Succeeds outcome := by
  induction tallied with
  | nil => simp
  | succeeded replies success _ ih =>
      rw [ih]
      constructor
      · intro others component outcome member
        rcases List.mem_cons.mp member with same | member
        · exact outcome_inj same ▸ ⟨_, replies, success⟩
        · exact others component outcome member
      · intro all component outcome member
        exact all component outcome (.tail _ member)
  | declined replies unsuccessful _ _ =>
      constructor
      · exact nofun
      · intro all
        obtain ⟨r, replies', success⟩ := all _ _ (.head _)
        obtain rfl := replies_inj replies replies'
        exact absurd success unsuccessful
  | unanswered unanswered _ _ =>
      constructor
      · exact nofun
      · intro all
        obtain ⟨r, replies, -⟩ := all _ _ (.head _)
        exact absurd replies (unanswered r)

end Tallied

/-- The components whose reply does not say success. -/
def declining (replies : List (String × Except RpcError Reply)) : List String :=
  replies.filterMap fun (name, reply) =>
    match reply with
    | .ok r => if r.isSuccess then none else some name
    | .error _ => some name

theorem commandReport_eq (replies : List (String × Except RpcError Reply)) :
    commandReport replies = ⟨(commandReport replies).documents,
      if (declining replies).isEmpty then none
      else some (.commandFailed (declining replies))⟩ :=
  rfl

/-- One more component is tallied by what its reply says. -/
theorem Tallied.cons {replies : List (String × Except RpcError Reply)}
    (component : Component) (outcome : Except RpcError Bytes)
    (rest : Tallied directive components events (commandReport replies).documents
      (declining replies)) :
    Tallied directive (component :: components) (called directive component outcome :: events)
      (commandReport ((component.name, outcome.bind Reply.decode) :: replies)).documents
      (declining ((component.name, outcome.bind Reply.decode) :: replies)) := by
  rcases decode_cases outcome with ⟨r, answered, decoded⟩ | ⟨unanswered, e, failed⟩
  · rw [decoded]
    by_cases success : r.status = Reply.success
    · have named : (⟨r.status, r.response, r.modules⟩ : Reply).isSuccess = true :=
        decide_eq_true success
      simpa [commandReport, declining, named] using rest.succeeded answered success
    · have named : (⟨r.status, r.response, r.modules⟩ : Reply).isSuccess = false :=
        decide_eq_false success
      simpa [commandReport, declining, named] using rest.declined answered success
  · rw [failed]
    exact rest.unanswered unanswered

/-- Whoever answers, a command that goes to each component is tallied. -/
theorem tallied_of_course {replies : List (String × Except RpcError Reply)}
    (course : (Plan.forEach components fun component => do
      return (component.name, ← Command.sendTo component (directive component).command
        (directive component).args)).Course events replies) :
    Tallied directive components events (commandReport replies).documents (declining replies) := by
  induction components generalizing events replies with
  | nil =>
      obtain ⟨rfl, rfl⟩ := Plan.course_forEach_nil course
      exact .nil
  | cons component components ih =>
      obtain ⟨first, reply, second, others, rfl, rfl, head, tail⟩ :=
        Plan.course_forEach_cons course
      obtain ⟨sending, result, ended, rfl, sent, given⟩ := Plan.course_bind_iff.mp head
      obtain ⟨outcome, rfl, rfl⟩ := sendTo_course sent
      obtain ⟨rfl, rfl⟩ := Plan.course_pure_iff.mp given
      exact (ih tail).cons component outcome

/-- An action with a directive sends its command to each component. -/
theorem Action.perform_eq {action : Action} (asks : action.directive? = some directive)
    (c : Config) (d : Deployment) :
    action.perform c d = toEach d.components fun component =>
      Command.sendTo component (directive component).command (directive component).args := by
  cases action with
  | configure | unconfigure | start | stop | shutdown | custom =>
      cases asks
      rfl
  | add | addScripts | boot | remove | status | pids => cases asks

/-! ### Additions -/

/-- What comes of adding components, one after another: what is asked for each, the logs of those
that could be added, and the names of those that were refused. -/
inductive Added (c : Config) :
    List Component → List Event → List Controller.LogLocation → List String → Prop where
  | nil : Added c [] [] [] []
  | accepted {component : Component} {components : List Component} {first events : List Event}
      {given : Registration} {logs : List Controller.LogLocation} {refused : List String}
      (submission : Submission c component.host (Controller.componentRequest component) first
        (.ok given))
      (rest : Added c components events logs refused) :
      Added c (component :: components) (first ++ events) (⟨given.host, given.logFile⟩ :: logs)
        refused
  | refused {component : Component} {components : List Component} {first events : List Event}
      {e : RpcError} {logs : List Controller.LogLocation} {refused : List String}
      (submission : Submission c component.host (Controller.componentRequest component) first
        (.error e))
      (rest : Added c components events logs refused) :
      Added c (component :: components) (first ++ events) logs (component.name :: refused)

/-- Each component has a log or was refused. -/
theorem Added.length {logs : List Controller.LogLocation} {refused : List String}
    (added : Added c components events logs refused) :
    logs.length + refused.length = components.length := by
  induction added with
  | nil => rfl
  | accepted _ _ ih | refused _ _ ih =>
      simp only [List.length_cons]
      omega

/-- Whoever answers, all components are tried. -/
theorem added_of_course {logs : List Controller.LogLocation}
    (course : (Controller.addComponents c components).Course events logs) :
    ∃ refused, Added c components events logs refused := by
  obtain ⟨trying, results, ended, rfl, tried, given⟩ := Plan.course_bind_iff.mp course
  obtain ⟨rfl, rfl⟩ := Plan.course_pure_iff.mp given
  rw [List.append_nil]
  clear course given
  induction components generalizing trying results with
  | nil =>
      obtain ⟨rfl, rfl⟩ := Plan.course_forEach_nil tried
      exact ⟨[], .nil⟩
  | cons component components ih =>
      obtain ⟨first, result, second, others, rfl, rfl, head, tail⟩ :=
        Plan.course_forEach_cons tried
      obtain ⟨refused, rest⟩ := ih _ _ tail
      have submission := Registrar.submission_of_course head
      cases result with
      | ok given => exact ⟨refused, .accepted submission rest⟩
      | error e => exact ⟨component.name :: refused, .refused submission rest⟩

/-! ### The tool -/

/-- How the tool ends: it prints the documents, and fails with a message if there are names of
components that failed. -/
structure Ends (o : Outcome) (documents : List Json) (failed : List String) (message : String) :
    Prop where
  output : o.output = String.join (documents.map fun j => j.pretty ++ "\n")
  exitCode : o.exitCode = if failed = [] then 0 else 1
  errorOutput : o.errorOutput = if failed = [] then "" else "Error: " ++ message ++ "\n"

/-- The tool fails exactly if there are such names. -/
theorem Ends.exitCode_eq_zero_iff {message : String} (ends : Ends o documents failed message) :
    o.exitCode = 0 ↔ failed = [] := by
  rw [ends.exitCode]
  split
  · rename_i none
    exact ⟨fun _ => none, fun _ => rfl⟩
  · rename_i some
    exact ⟨nofun, fun none => absurd none some⟩

theorem Report.ends (documents : List Json) (failed : List String) (failure : Failure) :
    Ends (⟨documents, if failed.isEmpty then none else some failure⟩ : Report).outcome documents
      failed failure.message := by
  cases failed with
  | nil => exact ⟨rfl, rfl, rfl⟩
  | cons name failed => exact ⟨rfl, rfl, rfl⟩

/-- The deployment that is loaded has the components that pass the filter. -/
theorem Invocation.load_eq (named : i.deployment = some path) (there : files path = some text)
    (read : Deployment.reader.ofText text = .ok d) (deployed : ∀ host, i.action ≠ .pids host) :
    i.load files diagnosis = .ok (d.restrict i.only) := by
  unfold load
  split
  · rename_i host pids
    exact absurd pids (deployed host)
  · simp only [named, loadDeployment, there, read, Except.map]

theorem restrict_components (only : List String) (d : Deployment) :
    (d.restrict only).components =
      d.components.filter fun component => only = [] ∨ component.name ∈ only := by
  have passes (component : Component) : Deployment.passes only component.name =
      decide (only = [] ∨ component.name ∈ only) := by
    rw [Bool.eq_iff_iff]
    simp [Deployment.passes]
  exact congrArg (d.components.filter ·) (funext passes)

/-- The tool carries out the invocation in its arguments. -/
theorem tool_course (given : Invocation.ofArguments arguments = .ok i)
    (loaded : i.load files diagnosis = .ok d)
    (course : (tool c files arguments diagnosis).Course events o) :
    ∃ report, (i.action.perform (i.configuration c) d).Course events report ∧
      o = report.outcome := by
  unfold tool Invocation.perform at course
  rw [given] at course
  dsimp only at course
  rw [loaded] at course
  obtain ⟨first, report, second, rfl, performed, ended⟩ := Plan.course_bind_iff.mp course
  obtain ⟨rfl, rfl⟩ := Plan.course_pure_iff.mp ended
  rw [List.append_nil]
  exact ⟨report, performed, rfl⟩

/-- What an operator sees of a command to the selected components. -/
structure Commanded (directive : Component → Directive) (selected : List Component)
    (events : List Event) (o : Outcome) (documents : List Json) (failed : List String) : Prop where
  calls : events.map Event.request = selected.map (call directive)
  tallied : Tallied directive selected events documents failed
  ends : Ends o documents failed ("command failed for: " ++ ", ".intercalate failed)
  success : o.exitCode = 0 ↔
    ∀ component outcome, called directive component outcome ∈ events → Succeeds outcome

/-- What an operator sees of the addition of the selected components. -/
structure Registered (c : Config) (selected : List Component) (events : List Event) (o : Outcome)
    (logs : List Controller.LogLocation) (refused : List String) : Prop where
  added : Added c selected events logs refused
  ends : Ends o [logDocument logs] refused
    (toString logs.length ++ " of " ++ toString selected.length ++ " components added")

/-- Whoever answers, the replies to a command are reported as they are tallied. -/
theorem commanded_of_course (asks : i.action.directive? = some directive)
    {report : Report} (course : (i.action.perform c d).Course events report) :
    ∃ documents failed, Commanded directive d.components events report.outcome documents failed := by
  rw [Action.perform_eq asks] at course
  obtain ⟨first, replies, second, rfl, sent, ended⟩ := Plan.course_bind_iff.mp course
  obtain ⟨rfl, rfl⟩ := Plan.course_pure_iff.mp ended
  rw [List.append_nil]
  have tallied := tallied_of_course sent
  have ends : Ends (commandReport replies).outcome (commandReport replies).documents
      (declining replies) (Failure.commandFailed (declining replies)).message := by
    rw [commandReport_eq]
    exact Report.ends _ _ _
  refine ⟨_, declining replies, tallied.requests, tallied, ends, ?_⟩
  exact ends.exitCode_eq_zero_iff.trans tallied.failed_eq_nil_iff

/-- Whoever answers, an addition is reported as a failure if anything was refused. -/
theorem registered_of_course (adds : i.action = .add) {report : Report}
    (course : (i.action.perform c d).Course events report) :
    ∃ logs refused, Registered c d.components events report.outcome logs refused := by
  rw [adds] at course
  obtain ⟨first, logs, second, rfl, tried, ended⟩ := Plan.course_bind_iff.mp course
  obtain ⟨rfl, rfl⟩ := Plan.course_pure_iff.mp ended
  rw [List.append_nil]
  obtain ⟨refused, added⟩ := added_of_course tried
  have whole : logs.length = d.components.length ↔ refused.isEmpty = true := by
    rw [← added.length, List.isEmpty_iff, ← List.length_eq_zero_iff]
    omega
  refine ⟨logs, refused, added, ?_⟩
  simp only [whole]
  exact Report.ends _ _ (.notAllAdded _ _)

/-- Whatever is deployed, filtered and configured, and whoever answers: a command is sent once to
each selected component in order, whatever became of the ones before; the replies are printed in this
order; and the tool fails exactly if a component did not reply with success, and names those that
did not. An addition tries all selected components, prints the logs of those that were added, and
fails exactly if one was refused. -/
theorem batch_reported (c : Config) (files : FileReader) (arguments : List String)
    (diagnosis : Diagnosis) (given : Invocation.ofArguments arguments = .ok i)
    (named : i.deployment = some path) (there : files path = some text)
    (read : Deployment.reader.ofText text = .ok d) (σ : Type) (answer : Answerer σ) (s : σ) :
    let selected := d.components.filter fun component => i.only = [] ∨ component.name ∈ i.only
    let o := ((tool c files arguments diagnosis).run answer s).1
    let events := (tool c files arguments diagnosis).trace answer s
    (∀ directive, i.action.directive? = some directive →
      ∃ documents failed, Commanded directive selected events o documents failed) ∧
    (i.action = .add →
      ∃ logs refused, Registered (i.configuration c) selected events o logs refused) := by
  intro selected o events
  have selection : (d.restrict i.only).components = selected := restrict_components i.only d
  have performed (deployed : ∀ host, i.action ≠ .pids host) :
      ∃ report, (i.action.perform (i.configuration c) (d.restrict i.only)).Course events report ∧
        o = report.outcome :=
    tool_course given (i.load_eq named there read deployed) (Plan.play_course answer _ s)
  constructor
  · intro directive asks
    obtain ⟨report, course, same⟩ := performed fun host pids => by
      rw [pids] at asks
      cases asks
    rw [← selection, same]
    exact commanded_of_course asks course
  · intro adds
    obtain ⟨report, course, same⟩ := performed fun host pids => nomatch adds.symm.trans pids
    rw [← selection, same]
    exact registered_of_course adds course

/-! ### Two components -/

/-- A description of two components on two hosts. -/
def description : String :=
  "\x7b\"components\": [\x7b\"name\": \"readout\", \"host\": \"np04\", \"port\": 5555\x7d, " ++
    "\x7b\"name\": \"monitor\", \"host\": \"np05\", \"port\": 5556\x7d]\x7d"

theorem description_read : ∃ readout monitor scripts,
    Deployment.reader.ofText description = .ok ⟨[readout, monitor], scripts⟩ ∧
      readout.name = "readout" ∧ readout.host = "np04" ∧ readout.port = 5555 ∧
      monitor.name = "monitor" := by
  have described : (Deployment.reader.ofText description).map (fun d =>
      d.components.map fun component => (component.name, component.host, component.port)) =
      .ok [("readout", "np04", 5555), ("monitor", "np05", 5556)] := by
    decide +kernel
  cases read : Deployment.reader.ofText description with
  | error e =>
      rw [read] at described
      cases described
  | ok d =>
      rw [read] at described
      obtain ⟨components, scripts⟩ := d
      obtain ⟨readout, rest, rfl, first, others⟩ :=
        List.map_eq_cons_iff.mp (Except.ok.inj described)
      obtain ⟨monitor, rest, rfl, second, none⟩ := List.map_eq_cons_iff.mp others
      obtain rfl := List.map_eq_nil_iff.mp none
      obtain ⟨name, place⟩ := Prod.mk.inj first
      obtain ⟨host, port⟩ := Prod.mk.inj place
      exact ⟨readout, monitor, scripts, rfl, name, host, port, (Prod.mk.inj second).1⟩

/-- Nothing listens at the ports of the components, and the second host cannot be reached. So the run
is not started on the one component that is selected, and not all components can be added. -/
theorem batch_reported_unreachable :
    let files : FileReader := fun path => if path = "d.json" then some description else none
    let w := (Simulation.World.fresh "20260101120000").setHost "np05"
      { Simulation.Host.fresh with unreachable := true }
    let starting := ["-d", "d.json", "-c", "readout", "start", "--run", "7"]
    let start := tool Registrar.operator files starting
    let adding := ["-d", "d.json", "add"]
    let add := tool Registrar.operator files adding
    Invocation.ofArguments starting = .ok ⟨some "d.json", none, ["readout"], .start 7⟩ ∧
      Invocation.ofArguments adding = .ok ⟨some "d.json", none, [], .add⟩ ∧
      ∃ d, Deployment.reader.ofText description = .ok d ∧
        (start.trace Simulation.World.answer w).map Event.request =
          [.command "np04" 5555 "start" ["7"]] ∧
        (start.run Simulation.World.answer w).1 =
          ⟨1, "", "Error: command failed for: readout\n"⟩ ∧
        ∃ logs refused, refused ≠ [] ∧
          Registered Registrar.operator d.components (add.trace Simulation.World.answer w)
            (add.run Simulation.World.answer w).1 logs refused := by
  intro files w starting start adding add
  have started : Invocation.ofArguments starting =
      .ok ⟨some "d.json", none, ["readout"], .start 7⟩ := by
    decide +kernel
  have added : Invocation.ofArguments adding = .ok ⟨some "d.json", none, [], .add⟩ := by
    decide +kernel
  obtain ⟨readout, monitor, scripts, read, name, host, port, other⟩ := description_read
  obtain ⟨documents, failed, commanded⟩ := (batch_reported Registrar.operator files starting default
    started rfl rfl read _ Simulation.World.answer w).1 _ rfl
  obtain ⟨logs, refused, registered⟩ := (batch_reported Registrar.operator files adding default
    added rfl rfl read _ Simulation.World.answer w).2 rfl
  refine ⟨started, added, _, read, ?requests, by decide +kernel, logs, refused, ?refused, ?all⟩
  case requests =>
    have sent : call (fun component => .start component 7) readout =
        .command "np04" 5555 "start" ["7"] := by
      rw [call, host, port]
      rfl
    rw [commanded.calls, ← sent]
    simp [name, other]
  case refused =>
    intro none
    have succeeds := registered.ends.exitCode_eq_zero_iff.mpr none
    have fails : (add.run Simulation.World.answer w).1.exitCode = 1 := by decide +kernel
    rw [fails] at succeeds
    cases succeeds
  case all => simpa [Invocation.configuration] using registered

end RunControl.Cli
