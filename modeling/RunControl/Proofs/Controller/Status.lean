import RunControl.Controller
import RunControl.Proofs.Registrar
import RunControl.Proofs.Simulation.Reached

/-!
What a status report says.

A report has one entry for each declared module, whoever answers. A component that replies is asked
alone, and its entries are what the reply says (`Told`). For one that does not reply all entries are
the same: they show how the supervisor answered the one question for the process (`Shows`), if it
may be asked. So a component that does not reply on a host that answers such questions is reported
as added exactly if something is registered there under its identifier. That tells whether its own
process is registered, whatever was done before, exactly if the identifier belongs to no other of
the groups that processes are added for (`status_honest`).
-/

namespace RunControl.Controller

open Simulation
open Utf8 (Bytes)

variable {c : Config} {component : Component} {outcome : Except RpcError Bytes}
  {r : Wire.CommandResult} {report : StatusReport} {events : List Event} {w : World}

/-! ### Replies -/

/-- The call of a component was answered with the bytes of a result that has a status. -/
def Replies (outcome : Except RpcError Bytes) (r : Wire.CommandResult) : Prop :=
  ∃ payload, outcome = .ok payload ∧ Wire.commandResult.decode payload = .ok r ∧ r.status ≠ ""

/-- The call of a component failed, its bytes are no result, or the result has no status. -/
def Unanswered (outcome : Except RpcError Bytes) : Prop :=
  ∀ r, ¬ Replies outcome r

/-- The entry of a module is the response of the module if the command and the module succeeded, and
says otherwise that nothing is known. -/
inductive Told (r : Wire.CommandResult) (entry : ModuleStatus) : Prop where
  | done {m : Wire.ModuleResult} (command : r.status = Reply.success)
      (found : r.modules.get? entry.module = some m) (module : m.status = Reply.success)
      (state : entry.state = m.response)
  | undone (unsuccessful : ¬ (r.status = Reply.success ∧
        ∃ m, r.modules.get? entry.module = some m ∧ m.status = Reply.success))
      (state : entry.state = StatusReport.unknown)

/-- A state for all modules shows how a supervisor answered the question for the process. -/
structure Shows (reply : Except RpcError ProcessInfo) (state : String) : Prop where
  added : state = StatusReport.added ↔ ∃ info, reply = .ok info
  notAdded : state = StatusReport.notAdded ↔ ∃ message, reply = .error (.fault .badName message)
  unknown : state = StatusReport.unknown ↔
    ∃ e, reply = .error e ∧ ∀ message, e ≠ .fault .badName message

theorem told_moduleState (r : Wire.CommandResult) (module : String) :
    Told r ⟨module, (⟨r.status, r.response, r.modules⟩ : Reply).moduleState module⟩ := by
  unfold Reply.moduleState
  split
  · rename_i m found
    split
    · rename_i succeeded
      exact .done (of_decide_eq_true succeeded.1) found succeeded.2 rfl
    · rename_i failed
      refine .undone (fun ⟨command, m', found', module⟩ => failed ⟨decide_eq_true command, ?_⟩) rfl
      cases found.symm.trans found'
      exact module
  · rename_i missing
    exact .undone (fun ⟨_, m, found, _⟩ => nomatch missing.symm.trans found) rfl

theorem shows_fallbackState (reply : Except RpcError ProcessInfo) :
    Shows reply (fallbackState reply) := by
  cases reply with
  | ok info =>
      constructor <;>
        simp [fallbackState, StatusReport.added, StatusReport.notAdded, StatusReport.unknown]
  | error e =>
      cases e with
      | fault kind message =>
          cases kind <;> constructor <;>
            simp [fallbackState, RpcError.isBadName, StatusReport.added, StatusReport.notAdded,
              StatusReport.unknown]
      | _ =>
          constructor <;>
            simp [fallbackState, RpcError.isBadName, StatusReport.added, StatusReport.notAdded,
              StatusReport.unknown]

/-! ### Ways to a report -/

/-- The status command to a component, and the outcome of the call. -/
def asked (component : Component) (outcome : Except RpcError Bytes) : Event :=
  ⟨.command component.host component.port "status" [], outcome⟩

/-- The question for the record of a component's process, and the reply. -/
def lookup (c : Config) (component : Component) (reply : Except RpcError ProcessInfo) : Event :=
  ⟨.order component.host (.info (qualified c.group component.name)), reply⟩

/-- The ways to come to a report, with all that is asked. -/
inductive Reported (c : Config) (component : Component) : List Event → StatusReport → Prop where
  | told {outcome : Except RpcError Bytes} {r : Wire.CommandResult} {report : StatusReport}
      (replies : Replies outcome r) (told : ∀ entry ∈ report.entries, Told r entry) :
      Reported c component [asked component outcome] report
  | unasked {outcome : Except RpcError Bytes} (unanswered : Unanswered outcome)
      (alone : c.useSupervisor = false) :
      Reported c component [asked component outcome] (.uniform component StatusReport.unknown)
  | lookedUp {outcome : Except RpcError Bytes} {reply : Except RpcError ProcessInfo}
      {state : String} (unanswered : Unanswered outcome) (supervised : c.useSupervisor = true)
      (shows : Shows reply state) :
      Reported c component [asked component outcome, lookup c component reply]
        (.uniform component state)

/-- What becomes of a command is what becomes of decoding its outcome. -/
theorem sendTo_course {command : String} {args : List String} {result : Except RpcError Reply}
    (course : (Command.sendTo component command args).Course events result) :
    ∃ outcome, events = [⟨.command component.host component.port command args, outcome⟩] ∧
      result = Except.bind outcome Reply.decode := by
  obtain ⟨first, answer, second, rfl, called, given⟩ := Plan.course_bind_iff.mp course
  obtain rfl := Plan.course_request_iff.mp called
  cases answer with
  | ok payload =>
      obtain ⟨rfl, rfl⟩ := Plan.course_pure_iff.mp given
      exact ⟨.ok payload, rfl, rfl⟩
  | error e =>
      obtain ⟨rfl, rfl⟩ := Plan.course_pure_iff.mp given
      exact ⟨.error e, rfl, rfl⟩

/-- So it is with the status command. -/
theorem statusReport_course {result : Except RpcError StatusReport}
    (course : (Command.statusReport component).Course events result) :
    ∃ outcome, events = [asked component outcome] ∧
      result = (outcome.bind Reply.decode).map fun reply => reply.statusReport component := by
  obtain ⟨sending, reply, rest, rfl, sent, ended⟩ := Plan.course_bind_iff.mp course
  obtain ⟨rfl, rfl⟩ := Plan.course_pure_iff.mp ended
  obtain ⟨outcome, rfl, rfl⟩ := sendTo_course sent
  exact ⟨outcome, by rw [List.append_nil]; rfl, rfl⟩

/-- An outcome is either that of a component that replies or that of one that does not. -/
theorem decode_cases (outcome : Except RpcError Bytes) :
    (∃ r, Replies outcome r ∧
        outcome.bind Reply.decode = .ok ⟨r.status, r.response, r.modules⟩) ∨
      (Unanswered outcome ∧ ∃ e, outcome.bind Reply.decode = .error e) := by
  cases outcome with
  | error e =>
      refine .inr ⟨fun r replies => ?_, e, rfl⟩
      obtain ⟨payload, same, -⟩ := replies
      cases same
  | ok payload =>
      have decoded : (Except.ok payload : Except RpcError Bytes).bind Reply.decode =
          Reply.decode payload := rfl
      rw [decoded, Reply.decode]
      cases result : Wire.commandResult.decode payload with
      | error e =>
          refine .inr ⟨fun r replies => ?_, _, rfl⟩
          obtain ⟨payload', same, ok, -⟩ := replies
          cases same
          exact nomatch result.symm.trans ok
      | ok r =>
          by_cases empty : r.status = ""
          · refine .inr ⟨fun r' replies => ?_, _, if_pos empty⟩
            obtain ⟨payload', same, ok, stated⟩ := replies
            cases same
            cases result.symm.trans ok
            exact stated empty
          · exact .inl ⟨r, ⟨payload, rfl, result, empty⟩, if_neg empty⟩

theorem uniform_modules (component : Component) (state : String) :
    (StatusReport.uniform component state).entries.map ModuleStatus.module =
      component.moduleNames := by
  simp [StatusReport.uniform, Function.comp_def]

/-- Whoever answers, the report is come to in one of the ways. -/
theorem status_course (course : (status c component).Course events report) :
    report.entries.map ModuleStatus.module = component.moduleNames ∧
      Reported c component events report := by
  obtain ⟨first, result, second, rfl, called, rest⟩ := Plan.course_bind_iff.mp course
  obtain ⟨outcome, rfl, rfl⟩ := statusReport_course called
  rcases decode_cases outcome with ⟨r, replies, decoded⟩ | ⟨unanswered, e, failed⟩
  · rw [decoded] at rest
    obtain ⟨rfl, rfl⟩ := Plan.course_pure_iff.mp rest
    refine ⟨by simp [Reply.statusReport, Function.comp_def], .told replies fun entry member => ?_⟩
    obtain ⟨module, -, rfl⟩ := List.mem_map.mp member
    exact told_moduleState r module
  · rw [failed] at rest
    dsimp only [Except.map] at rest
    split at rest
    · rename_i supervised
      obtain ⟨asking, reply, ended, rfl, looked, given⟩ := Plan.course_bind_iff.mp rest
      obtain rfl := Plan.course_request_iff.mp looked
      obtain ⟨rfl, rfl⟩ := Plan.course_pure_iff.mp given
      exact ⟨uniform_modules _ _, .lookedUp unanswered supervised (shows_fallbackState reply)⟩
    · rename_i alone
      obtain ⟨rfl, rfl⟩ := Plan.course_pure_iff.mp rest
      exact ⟨uniform_modules _ _, .unasked unanswered (Bool.eq_false_iff.mpr alone)⟩

/-! ### On a host -/

/-- A question for the record of a process that does not fail is answered exactly by whether
something is under the identifier. -/
theorem info_shows {h : Host} {id state : String} (sound : h.injected? .info = none)
    (shows : Shows (h.answer (.info id)).1 state) :
    (state = StatusReport.added ↔ h.processes.contains id = true) ∧
      (state = StatusReport.notAdded ↔ h.processes.contains id = false) := by
  have given : h.answer (.info id) = h.info id := Host.answer_of_sound sound
  rw [given, Host.info] at shows
  rw [shows.added, shows.notAdded, Table.contains]
  cases found : h.processes.get? id with
  | none => simp [Host.badName]
  | some p => simp

/-- The component does not reply, and the supervisor of its host can be reached and answers questions
for records itself. -/
structure Silent (component : Component) (w : World) : Prop where
  unanswered : Unanswered (w.answerCommand component.host component.port "status" []).1
  reachable : (w.hosts component.host).unreachable = false
  sound : .info ∉ (w.hosts component.host).failing
  plain : w.prepared component.host .info = []

/-- What is reported of such a component shows what the supervisor of its host says. -/
theorem status_unanswered (supervised : c.useSupervisor = true) (silent : Silent component w) :
    ∃ state, (w.play (status c component)).1 = .uniform component state ∧
      Shows ((w.hosts component.host).answer
        (.info (qualified c.group component.name))).1 state := by
  have answered := Plan.play_answered World.answer (status c component) w
  obtain ⟨-, reported⟩ := status_course (Plan.play_course World.answer (status c component) w)
  unfold World.play
  generalize (status c component).trace World.answer w = events at answered reported
  generalize ((status c component).run World.answer w).1 = report at reported
  cases reported with
  | told replies _ =>
      obtain ⟨called, -⟩ := answered_cons_iff.mp answered
      obtain rfl : _ = (w.answerCommand component.host component.port "status" []).1 := called
      exact absurd replies (silent.unanswered _)
  | unasked _ alone => exact nomatch supervised.symm.trans alone
  | lookedUp _ _ shows =>
      obtain ⟨-, rest⟩ := answered_cons_iff.mp answered
      obtain ⟨given, -⟩ := answered_cons_iff.mp rest
      refine ⟨_, rfl, ?_⟩
      let after := (w.answerCommand component.host component.port "status" []).2
      have waiting : after.prepared component.host .info = [] :=
        (World.prepared_answerCommand w _ _ _ _ (by decide)).trans silent.plain
      have hosts : after.hosts = w.hosts := World.hosts_answerCommand w _ _ _ _
      have order : after.answerOrder component.host
          (.info (qualified c.group component.name)) = _ := World.answerOrder_of_none waiting
      have reply : _ = (after.answerOrder component.host
        (.info (qualified c.group component.name))).1 := given
      rw [order, hosts] at reply
      exact reply ▸ shows

/-- So it shows whether something is under the identifier of the component's process. -/
theorem status_contains (supervised : c.useSupervisor = true) (silent : Silent component w) :
    let processes := (w.hosts component.host).processes
    ∃ state, (w.play (status c component)).1 = .uniform component state ∧
      (state = StatusReport.added ↔
        processes.contains ((bindingOf c component).identifier component.name) = true) ∧
      (state = StatusReport.notAdded ↔
        processes.contains ((bindingOf c component).identifier component.name) = false) := by
  intro processes
  obtain ⟨state, given, shows⟩ := status_unanswered supervised silent
  have sound := Host.injected?_eq_none_iff.mpr ⟨silent.reachable, silent.sound⟩
  exact ⟨state, given, info_shows sound shows⟩

/-! ### Honest reports -/

variable {groups : String → Prop}

/-- After every run in which processes are added only for some groups, a component that does not
reply is reported as added exactly if its own process is registered. -/
def Truthful (groups : String → Prop) (c : Config) (component : Component) : Prop :=
  ∀ w, Reached groups w → Silent component w →
    ∀ entry ∈ (w.play (status c component)).1.entries, (entry.state = StatusReport.added ↔
      registers (bindingOf c component) component.name (w.hosts component.host).processes = true)

theorem truthful_of_alone (supervised : c.useSupervisor = true)
    (alone : Alone groups (bindingOf c component) component.name) :
    Truthful groups c component := by
  intro w reached silent entry member
  obtain ⟨state, given, added, -⟩ := status_contains supervised silent
  rw [given] at member
  obtain ⟨module, -, rfl⟩ := List.mem_map.mp member
  exact added.trans (reached.contains_iff alone)

/-- A host with one process, of which nothing else is known. -/
def occupied (host group name : String) : World :=
  (World.fresh "").onHost host fun h => h.insertRunning group name ""

theorem occupied_hosts (host group name : String) :
    (occupied host group name).hosts host = Host.fresh.insertRunning group name "" :=
  if_pos rfl

/-- Nothing listens at the ports of this host. -/
theorem occupied_silent (component : Component) (group name : String) :
    Silent component (occupied component.host group name) where
  unanswered := by
    rintro r ⟨payload, same, -⟩
    cases same
  reachable := by
    rw [occupied_hosts]
    rfl
  sound := by
    rw [occupied_hosts]
    exact List.not_mem_nil
  plain := rfl

/-- A process of another group that has the identifier passes for the component's. -/
theorem alone_of_truthful (supervised : c.useSupervisor = true) (declares : component.modules ≠ [])
    (truthful : Truthful groups c component) :
    Alone groups (bindingOf c component) component.name := by
  intro group name allowed same
  by_contra other
  let w := occupied component.host group name
  have silent : Silent component w := occupied_silent component group name
  obtain ⟨state, given, added, -⟩ := status_contains supervised silent
  have reached : Reached groups w := (Reached.fresh "").inserted component.host allowed name ""
  have contained : (w.hosts component.host).processes.contains
      ((bindingOf c component).identifier component.name) = true := by
    rw [occupied_hosts, ← same, Host.insertRunning, Table.contains, Table.get?_insert, if_pos rfl]
    rfl
  have absent : registers (bindingOf c component) component.name
      (w.hosts component.host).processes = false := by
    rw [occupied_hosts]
    refine registers_single.trans (Bool.eq_false_iff.mpr fun own => other ?_)
    simp only [owns, Process.added, Bool.and_eq_true] at own
    exact of_decide_eq_true own.1
  obtain ⟨module, first⟩ := List.exists_mem_of_ne_nil _ declares
  have entry : ⟨module.name, state⟩ ∈ (w.play (status c component)).1.entries := by
    rw [given]
    exact List.mem_map_of_mem (List.mem_map_of_mem first)
  have shown := (truthful w reached silent _ entry).mp (added.mpr contained)
  exact Bool.false_ne_true (absent.symm.trans shown)

/-- For every component, however often its modules are repeated, every configuration and whoever
answers, the report has one entry for each declared module in order, and is come to in one of the
ways of `Reported`. So in worlds in memory, on a host that can be reached and answers questions for
records, a component that does not reply is reported as added exactly if something is registered
under its identifier, and as not added otherwise. This tells whether its own process is registered
exactly if none of the groups that processes are added for has the identifier too, and among all
groups that is so exactly if there is no colon in the group and the name. -/
theorem status_honest (c : Config) (component : Component) :
    (∀ (σ : Type) (answer : Answerer σ) (s : σ),
      let report := ((status c component).run answer s).1
      report.entries.map ModuleStatus.module = component.moduleNames ∧
        Reported c component ((status c component).trace answer s) report) ∧
    (c.useSupervisor = true →
      (∀ w, Silent component w →
        let processes := (w.hosts component.host).processes
        ∃ state, (w.play (status c component)).1 = .uniform component state ∧
          (state = StatusReport.added ↔
            processes.contains ((bindingOf c component).identifier component.name) = true) ∧
          (state = StatusReport.notAdded ↔
            processes.contains ((bindingOf c component).identifier component.name) = false)) ∧
      (component.modules ≠ [] →
        (∀ groups, Truthful groups c component ↔
          Alone groups (bindingOf c component) component.name) ∧
        (Truthful (fun _ => True) c component ↔
          ':' ∉ c.group.toList ∧ ':' ∉ component.name.toList))) := by
  constructor
  · intro σ answer s
    exact status_course (Plan.play_course answer (status c component) s)
  · intro supervised
    refine ⟨fun w => status_contains supervised, fun declares => ?_⟩
    have exact_iff (groups : String → Prop) : Truthful groups c component ↔
        Alone groups (bindingOf c component) component.name := by
      constructor
      · exact alone_of_truthful supervised declares
      · exact truthful_of_alone supervised
    exact ⟨exact_iff, (exact_iff _).trans alone_iff⟩

/-! ### Components that are not running -/

/-- A component that declares a module twice. -/
def declaring (name : String) : Component :=
  ⟨name, "np04", 5555, .default, [⟨"source", .empty⟩, ⟨"source", .empty⟩], .empty⟩

/-- Its process was added, and nothing listens at its port. -/
theorem status_honest_added :
    let c := Registrar.operator
    let w := ((World.fresh "20260101120000").play
      ((bindingOf c (declaring "readout")).addSettings "readout" .empty)).2
    c.useSupervisor = true ∧ (declaring "readout").modules ≠ [] ∧
      Reached (fun _ => True) w ∧ Silent (declaring "readout") w ∧
      Truthful (fun _ => True) c (declaring "readout") ∧
      (w.play (status c (declaring "readout"))).1.entries =
        [⟨"source", StatusReport.added⟩, ⟨"source", StatusReport.added⟩] := by
  intro c w
  have reached : Reached (fun _ => True) w :=
    .played (.fresh _) (Plan.only_request trivial)
  have silent : Silent (declaring "readout") w := by
    refine ⟨?_, rfl, List.not_mem_nil, rfl⟩
    rintro r ⟨payload, same, -⟩
    cases same
  have registered : (w.hosts "np04").processes.contains "daq:readout" = true := by
    decide +kernel
  obtain ⟨shows, tells⟩ := (status_honest c (declaring "readout")).2 rfl
  obtain ⟨state, given, added, -⟩ := shows w silent
  have truthful := (tells (List.cons_ne_nil _ _)).2.mpr ⟨by decide, by decide⟩
  refine ⟨rfl, List.cons_ne_nil _ _, reached, silent, truthful, ?_⟩
  rw [given, added.mpr registered]
  rfl

/-- A component of the group `daq` whose process was never added passes for one that was: a process
of the group `daq:a` has its identifier. -/
theorem status_misled :
    let c := Registrar.operator
    let w := occupied "np04" "daq:a" "x"
    Reached (fun _ => True) w ∧ Silent (declaring "a:x") w ∧
      registers (bindingOf c (declaring "a:x")) "a:x" (w.hosts "np04").processes = false ∧
      (w.play (status c (declaring "a:x"))).1.entries =
        [⟨"source", StatusReport.added⟩, ⟨"source", StatusReport.added⟩] := by
  intro c w
  refine ⟨.inserted (.fresh _) _ trivial _ _, occupied_silent (declaring "a:x") "daq:a" "x", ?_, ?_⟩
  · decide +kernel
  · decide +kernel

end RunControl.Controller
