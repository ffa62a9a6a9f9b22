import Mathlib.Data.Finset.Basic
import RunControl.Controller
import RunControl.Proofs.Components.Size
import RunControl.Proofs.Deployment.Survival
import RunControl.Proofs.Registrar
import RunControl.Simulation.World

/-!
The states of a component's modules from the first command to the last.

`RunState` knows of a component only the names of its modules and the one state they are all in. A
component in memory that is reached over its endpoint goes through these states and gives the
verdicts that go with them, through documents, replies and reports (`directives_follow`): one
command is sent for each directive, and no supervisor is asked.
-/

namespace RunControl

open Simulation (World)
open Utf8 (Bytes)

namespace Controller

/-! ### States of a run -/

/-- What is asked of a component. -/
inductive Directive where
  | configure (c : Component)
  | unconfigure (c : Component)
  | start (c : Component) (run : Nat)
  | stop (c : Component)
  | shutdown (c : Component)
  | custom (c : Component) (name : String) (arg : Option String)
  | status (c : Component)

/-- What a component has to say: whether a command was carried out, or the states of modules. -/
inductive Verdict where
  | done (carriedOut : Bool)
  | report (states : StatusReport)
  deriving DecidableEq, Repr

/-- The modules of a component, and the state that all of them are in. -/
structure RunState where
  modules : Finset String
  state : String
  deriving DecidableEq

namespace RunState

/-- No modules, so that it does not matter which state they are in. -/
def initial : RunState :=
  ⟨∅, StatusReport.unknown⟩

/-- Brings the modules into a state, if there are any. -/
def transition (s : RunState) (state : String) : Verdict × RunState :=
  if s.modules = ∅ then (.done false, s) else (.done true, { s with state := state })

/-- What is known of a module of a name. -/
def stateOf (s : RunState) (name : String) : String :=
  if name ∈ s.modules then s.state else StatusReport.unknown

/-- One directive. -/
def step (s : RunState) : Directive → Verdict × RunState
  | .configure c => (.done true, ⟨c.moduleNames.toFinset, "ready"⟩)
  | .unconfigure _ => s.transition "booted"
  | .start _ _ => s.transition "running"
  | .stop _ => s.transition "ready"
  | .shutdown _ => (.done true, { s with modules := ∅ })
  | .custom _ _ _ => (.done true, s)
  | .status c => (.report ⟨c.moduleNames.map fun m => ⟨m, s.stateOf m⟩⟩, s)

/-- One directive after another. -/
def run (s : RunState) : List Directive → List Verdict × RunState
  | [] => ([], s)
  | d :: r => ((s.step d).1 :: ((s.step d).2.run r).1, ((s.step d).2.run r).2)

end RunState

/-! ### Directives as they are played -/

/-- What an operator gets for a directive. -/
inductive Response where
  | reply (r : Except RpcError Reply)
  | report (r : StatusReport)

/-- What it says. A command that could not be sent or was not answered says nothing. -/
def Response.verdict? : Response → Option Verdict
  | .reply (.ok r) => some (.done r.isSuccess)
  | .reply (.error _) => none
  | .report r => some (.report r)

namespace Directive

/-- The component that is addressed. -/
def component : Directive → Component
  | configure c | unconfigure c | start c _ | stop c | shutdown c | custom c _ _ | status c => c

/-- The command that is sent. -/
def command : Directive → String
  | configure _ => "configure"
  | unconfigure _ => "unconfigure"
  | start _ _ => "start"
  | stop _ => "stop"
  | shutdown _ => "down"
  | custom _ _ _ => "custom"
  | status _ => "status"

/-- The arguments that are sent. -/
def args : Directive → List String
  | configure c => [Command.configuration c]
  | start _ run => [toString run]
  | custom _ name arg => name :: arg.toList
  | unconfigure _ | stop _ | shutdown _ | status _ => []

/-- The directive as it is played. -/
def plan (config : Config) : Directive → Plan Response
  | configure c => return .reply (← Command.configure c)
  | unconfigure c => return .reply (← Command.unconfigure c)
  | start c run => return .reply (← Command.start c run)
  | stop c => return .reply (← Command.stop c)
  | shutdown c => return .reply (← Command.shutdown c)
  | custom c name arg => return .reply (← Command.custom c name arg)
  | status c => return .report (← Controller.status config c)

/-- The verdict in a reply. -/
def verdict (d : Directive) (r : Reply) : Verdict :=
  match d with
  | status c => .report (r.statusReport c)
  | _ => .done r.isSuccess

/-- Every directive but one is a command that is carried out or not. -/
theorem verdict_eq {d : Directive} (command : ∀ c, d ≠ .status c) (r : Reply) :
    d.verdict r = .done r.isSuccess := by
  cases d with
  | status c => exact absurd rfl (command c)
  | _ => rfl

end Directive

/-- A component that was read from a text without floating-point numbers, and whose document can be
sent. Byte strings have fewer than 2^63 bytes. -/
structure Given (c : Component) : Prop where
  read : ∃ text, Component.reader.ofText text = .ok c ∧ (Json.outline text).doc.Integral
  sent : (Utf8.encode (Command.configuration c)).length < 2 ^ 63

/-- The endpoint reads the component that was given. -/
theorem Given.reader_configuration {c : Component} (given : Given c) :
    Component.reader.ofText (Command.configuration c) = .ok c := by
  obtain ⟨text, read, integral⟩ := given.read
  have spare : c.Spare 124 :=
    Component.spare (fun v => Json.isInteger_of_integral integral) (Json.ofText_eq_ok.mp read).1
  exact Json.ofText_compact (Component.integers spare) (Component.reader_toDoc spare)

/-- A component that passes nothing on but what its JSON gives back is read from its JSON. -/
theorem Given.of_spare {c : Component} (spare : c.Spare 124)
    (sent : (Utf8.encode (Command.configuration c)).length < 2 ^ 63) : Given c where
  read := by
    have integers := Component.integers spare
    refine ⟨c.toJson.compact, Json.ofText_compact integers (Component.reader_toDoc spare), ?_⟩
    rw [Json.outline_of_spells (Json.spells_compact integers)]
    exact fun bits has => integers (.double bits) has
  sent := sent

/-! ### Sending a directive -/

section Sending

variable {d : Directive} {w w' : World} {payload : Bytes} {r : Reply}

/-- A command that is answered gets its reply. -/
theorem plays_sendTo {c : Component} {command : String} {args : List String}
    (answered : w.answerCommand c.host c.port command args = (.ok payload, w')) :
    (Command.sendTo c command args).Plays World.answer w
      [⟨.command c.host c.port command args, .ok payload⟩] (Reply.decode payload) w' := by
  have asked : (Plan.request (.command c.host c.port command args)).Plays World.answer w
      [⟨.command c.host c.port command args, .ok payload⟩] (.ok payload) w' :=
    Plan.plays_request answered
  exact asked.bind (Plan.plays_done World.answer (Reply.decode payload) w')

/-- A directive whose command gets a reply gets the verdict in the reply, by this command alone. -/
theorem plays_plan (config : Config)
    (answered : w.answerCommand d.component.host d.component.port d.command d.args =
      (.ok payload, w')) (decoded : Reply.decode payload = .ok r) :
    ∃ response, response.verdict? = some (d.verdict r) ∧ (d.plan config).Plays World.answer w
      [⟨.command d.component.host d.component.port d.command d.args, .ok payload⟩] response w' := by
  have sent := plays_sendTo answered
  rw [decoded] at sent
  cases d with
  | status c =>
      have reported := sent.map fun reply => reply.map fun r => r.statusReport c
      have report : (status config c).Plays World.answer w _ (r.statusReport c) w' :=
        reported.bind (Plan.plays_done World.answer (r.statusReport c) w')
      exact ⟨.report (r.statusReport c), rfl, report.map Response.report⟩
  | configure | unconfigure | start | stop | shutdown | custom =>
      exact ⟨.reply (.ok r), rfl, sent.map Response.reply⟩

end Sending

/-! ### The component at the endpoint -/

section Endpoint

open Simulation (Endpoint)
open Wire (CommandResult Short)

variable {e : Endpoint} {s : RunState} {d : Directive}

/-- An endpoint at which nothing is made to fail, and whose modules are in the state that is known.
Replies about them can be sent. -/
structure Represents (e : Endpoint) (s : RunState) : Prop where
  raw : e.rawReply = none
  answers : e.statusFails = false
  sound : e.failingModules = []
  modules : ∀ m, e.modules.get? m = if m ∈ s.modules then some s.state else none
  room : 2 * moduleBytes e.modules.keys + 18 < 2 ^ 64
  short : (Utf8.encode s.state).length ≤ 7

theorem represents_fresh : Represents .fresh .initial where
  raw := rfl
  answers := rfl
  sound := rfl
  modules m := by simp [Endpoint.fresh, RunState.initial]
  room := by decide
  short := by decide

/-- An endpoint with other modules represents what is known of these. -/
theorem Represents.exchange (represents : Represents e s) {modules : Table String} {s' : RunState}
    (known : ∀ m, modules.get? m = if m ∈ s'.modules then some s'.state else none)
    (room : 2 * moduleBytes modules.keys + 18 < 2 ^ 64)
    (short : (Utf8.encode s'.state).length ≤ 7) : Represents { e with modules := modules } s' :=
  ⟨represents.raw, represents.answers, represents.sound, known, room, short⟩

/-- A result that can be sent, and that says a verdict. -/
structure Says (d : Directive) (result : CommandResult) (v : Verdict) : Prop where
  named : result.status ≠ ""
  fits : (Wire.commandResult.encode result).length < 2 ^ 64
  verdict : d.verdict ⟨result.status, result.response, result.modules⟩ = v

/-- What an endpoint makes of a directive: its result says the verdict of the step, and it goes on in
the state after it. -/
structure Follows (e : Endpoint) (s : RunState) (d : Directive) : Prop where
  result : Says d (e.perform d.command d.args).1 (s.step d).1
  represents : Represents (e.perform d.command d.args).2 (s.step d).2

theorem fits_of_short {r : CommandResult} (short : Short r.status r.response)
    (parts : ∀ e ∈ r.modules.entries, Short e.2.status e.2.response)
    (room : 2 * moduleBytes r.modules.keys + 18 < 2 ^ 64) :
    (Wire.commandResult.encode r).length < 2 ^ 64 :=
  Nat.lt_of_le_of_lt (Wire.length_reply_le short parts) room

/-- The success of a command names the modules. -/
theorem says_succeeded {modules : Table String} (command : ∀ c, d ≠ .status c)
    (room : 2 * moduleBytes modules.keys + 18 < 2 ^ 64) :
    Says d (Endpoint.succeeded modules) (.done true) := by
  have success : Short Reply.success "" := ⟨by decide, by decide⟩
  constructor
  case named => exact show Reply.success ≠ "" by decide
  case fits =>
    refine fits_of_short success (fun e member => ?_) ?_
    · obtain ⟨e, -, rfl⟩ := List.mem_map.mp member
      exact success
    · rw [Endpoint.succeeded, Table.keys_map]
      exact room
  case verdict => exact d.verdict_eq command _

theorem isEmpty_iff (represents : Represents e s) : e.modules.isEmpty = true ↔ s.modules = ∅ := by
  rw [Table.isEmpty_iff, Finset.eq_empty_iff_forall_notMem]
  refine forall_congr' fun m => ?_
  rw [represents.modules]
  split <;> simp_all

theorem perform_transition (represents : Represents e s) (command : ∀ c, d ≠ .status c)
    {state : String} (short : (Utf8.encode state).length ≤ 7) :
    Says d (e.transition state).1 (s.transition state).1 ∧
      Represents (e.transition state).2 (s.transition state).2 := by
  unfold Endpoint.transition RunState.transition
  by_cases none : s.modules = ∅
  · rw [if_pos ((isEmpty_iff represents).mpr none), if_pos none]
    refine ⟨?_, represents⟩
    constructor
    case named => exact show "Error" ≠ "" by decide
    case fits =>
      exact show (Wire.commandResult.encode
        (Endpoint.failed "No modules eligible for command.")).length < 2 ^ 64 by decide +kernel
    case verdict => exact d.verdict_eq command _
  · rw [if_neg (none ∘ (isEmpty_iff represents).mp), if_neg none]
    have keys : (e.modules.map fun _ => state).keys = e.modules.keys := Table.keys_map _ _
    have room := represents.room
    rw [← keys] at room
    refine ⟨says_succeeded command room, represents.exchange (fun m => ?_) room short⟩
    rw [Table.get?_map, represents.modules]
    split <;> rfl

/-- A configuration brings the modules of the component, all of them ready. -/
theorem follows_configure {c : Component} (represents : Represents e s) (given : Given c) :
    Follows e s (.configure c) := by
  let modules := Table.ofList (c.moduleNames.map fun m => (m, "ready"))
  have performed : e.perform "configure" [Command.configuration c] =
      (Endpoint.succeeded modules, { e with modules := modules }) := by
    show e.configure [Command.configuration c] = _
    simp only [Endpoint.configure, given.reader_configuration, modules]
  have named : modules.keys ⊆ c.moduleNames := by
    intro m member
    obtain ⟨state, found⟩ := Table.mem_keys_iff.mp member
    obtain ⟨m, listed, same⟩ := List.mem_map.mp (Table.mem_of_get?_ofList found)
    rwa [← (Prod.mk.inj same).1]
  have room : 2 * moduleBytes modules.keys + 18 < 2 ^ 64 := by
    have within := moduleBytes_le_of_subset modules.keys_nodup named
    have document := c.moduleBytes_le
    have sent := given.sent
    omega
  constructor
  case result =>
    rw [Directive.command, Directive.args, performed]
    exact says_succeeded nofun room
  case represents =>
    rw [Directive.command, Directive.args, performed]
    have ready : (Utf8.encode "ready").length ≤ 7 := by decide
    refine represents.exchange (fun m => ?_) room ready
    simp [modules, Table.get?_ofList_const, RunState.step]

theorem follows_shutdown {c : Component} (represents : Represents e s) :
    Follows e s (.shutdown c) := by
  have room : 2 * moduleBytes (.empty : Table String).keys + 18 < 2 ^ 64 := by decide
  exact ⟨says_succeeded nofun room, represents.exchange (fun _ => rfl) room represents.short⟩

/-- The states of the modules are in the reply. -/
theorem follows_status {c : Component} (represents : Represents e s) :
    Follows e s (.status c) := by
  have states : e.status =
      ⟨Reply.success, "", e.modules.map fun state => ⟨Reply.success, state⟩⟩ := by
    have pairs : Table.ofList (e.modules.entries.map fun m =>
        (m.1, (⟨Reply.success, m.2⟩ : Wire.ModuleResult))) =
        e.modules.map fun state => ⟨Reply.success, state⟩ := Table.ofList_eq_of_perm (.refl _)
    simp [Endpoint.status, represents.answers, represents.sound, pairs]
  have success : Short Reply.success "" := ⟨by decide, by decide⟩
  constructor
  case result =>
    show Says _ e.status _
    rw [states]
    constructor
    case named => exact show Reply.success ≠ "" by decide
    case fits =>
      refine fits_of_short success (fun part member => ?_) ?_
      · obtain ⟨⟨m, state⟩, here, rfl⟩ := List.mem_map.mp member
        have found := (represents.modules m).symm.trans (Table.get?_eq_some_iff.mpr here)
        split at found
        · cases found
          exact ⟨success.status, represents.short⟩
        · cases found
      · rw [Table.keys_map]
        exact represents.room
    case verdict =>
      have state (m : String) : Reply.moduleState ⟨Reply.success, "",
          e.modules.map fun state => ⟨Reply.success, state⟩⟩ m = s.stateOf m := by
        unfold Reply.moduleState RunState.stateOf
        rw [Table.get?_map, represents.modules]
        by_cases here : m ∈ s.modules <;> simp [here, Reply.isSuccess]
      exact congrArg (fun states : String → ModuleStatus =>
        Verdict.report ⟨c.moduleNames.map states⟩)
          (funext fun m => congrArg (ModuleStatus.mk m) (state m))
  case represents => exact represents

theorem follows (represents : Represents e s) (given : ∀ c, d = .configure c → Given c) :
    Follows e s d := by
  have turns {d : Directive} (command : ∀ c, d ≠ .status c) (state : String)
      (short : (Utf8.encode state).length ≤ 7)
      (performed : e.perform d.command d.args = e.transition state)
      (stepped : s.step d = s.transition state) : Follows e s d := by
    obtain ⟨result, after⟩ := perform_transition represents command short
    constructor
    case result => rwa [performed, stepped]
    case represents => rwa [performed, stepped]
  cases d with
  | configure c => exact follows_configure represents (given c rfl)
  | unconfigure c => exact turns nofun "booted" (by decide) rfl rfl
  | start c run => exact turns nofun "running" (by decide) rfl rfl
  | stop c => exact turns nofun "ready" (by decide) rfl rfl
  | shutdown c => exact follows_shutdown represents
  | custom c name arg => exact ⟨says_succeeded nofun represents.room, represents⟩
  | status c => exact follows_status represents

/-- Every result that says something is read from its bytes. -/
theorem Says.decode {r : CommandResult} {v : Verdict} (result : Says d r v) :
    Reply.decode (Wire.commandResult.encode r) = .ok ⟨r.status, r.response, r.modules⟩ := by
  have back := (Wire.commandResult_layout.roundTrips (by decide)).back r result.fits
  simp only [Reply.decode, back, result.named, if_false]

end Endpoint

/-! ### Whole runs -/

section Runs

variable {host : String} {port : UInt16} {w : World} {s : RunState}

/-- At the endpoint of a world stands a component of which a state is known, and no answers are
prepared for commands. -/
structure Serves (host : String) (port : UInt16) (w : World) (s : RunState) : Prop where
  unprepared : w.prepared host .call = []
  endpoint : ∃ e, w.endpoints host port = some e ∧ Represents e s

/-- A command is answered by the endpoint. -/
theorem answerCommand_eq {e : Simulation.Endpoint} (unprepared : w.prepared host .call = [])
    (here : w.endpoints host port = some e) (command : String) (args : List String) :
    w.answerCommand host port command args = (.ok (e.answer command args).1,
      (w.record (.command host port command args)).setEndpoint host port
        (e.answer command args).2) := by
  have waiting : (w.record (.command host port command args)).prepared host .call = [] := unprepared
  have there : (w.record (.command host port command args)).endpoints host port = some e := here
  simp only [World.answerCommand, World.takePrepared, waiting, Simulation.Prepared.toCommand?,
    there]

/-- One directive: its verdict is that of the step, one command is sent for it, and the component
is then in the state after the step. -/
theorem serves_step (config : Config) {d : Directive} (serves : Serves host port w s)
    (addressed : d.component.host = host ∧ d.component.port = port)
    (given : ∀ c, d = .configure c → Given c) :
    ∃ response payload w', (d.plan config).Plays World.answer w
        [⟨.command host port d.command d.args, .ok payload⟩] response w' ∧
      response.verdict? = some (s.step d).1 ∧ Serves host port w' (s.step d).2 := by
  obtain ⟨rfl, rfl⟩ := addressed
  obtain ⟨e, here, represents⟩ := serves.endpoint
  obtain ⟨result, after⟩ := follows represents given
  have answer : e.answer d.command d.args =
      (Wire.commandResult.encode (e.perform d.command d.args).1,
        (e.perform d.command d.args).2) := by
    simp only [Simulation.Endpoint.answer, represents.raw]
  have answered := answerCommand_eq serves.unprepared here d.command d.args
  rw [answer] at answered
  obtain ⟨response, verdict, plays⟩ := plays_plan config answered result.decode
  refine ⟨response, _, _, plays, ?_, ?_⟩
  · rw [verdict, result.verdict]
  · exact ⟨serves.unprepared, _, by simp [World.setEndpoint], after⟩

/-- Directives one after another. -/
theorem serves_run (config : Config) {directives : List Directive} (serves : Serves host port w s)
    (addressed : ∀ d ∈ directives, d.component.host = host ∧ d.component.port = port)
    (given : ∀ c, .configure c ∈ directives → Given c) :
    ∃ events responses w', (Plan.forEach directives (Directive.plan config)).Plays World.answer w
        events responses w' ∧
      responses.map Response.verdict? = (s.run directives).1.map some ∧
      events.map Event.request =
        directives.map (fun d => Request.command host port d.command d.args) ∧
      Serves host port w' (s.run directives).2 := by
  induction directives generalizing w s with
  | nil => exact ⟨[], [], w, Plan.plays_done World.answer [] w, rfl, rfl, serves⟩
  | cons d directives ih =>
      obtain ⟨first, others⟩ := List.forall_mem_cons.mp addressed
      obtain ⟨response, payload, mid, plays, verdict, serves'⟩ := serves_step config serves
        first fun c same => given c (same ▸ .head _)
      obtain ⟨events, responses, w', rest, verdicts, requests, last⟩ :=
        ih serves' others fun c member => given c (.tail _ member)
      refine ⟨_, response :: responses, w',
        plays.bind (rest.map fun responses => response :: responses), ?_, ?_, last⟩
      · rw [List.map_cons, verdict, verdicts]
        rfl
      · rw [List.singleton_append, List.map_cons, requests]
        rfl

/-- A component in memory that begins without modules follows its run states, whatever row of
directives is given to it and however they are configured: every directive gets the verdict that
goes with the states, and one command is sent for it and nothing else is asked, so no supervisor
either. The component is then in the last state. Components for configurations come from texts
without floating-point numbers. -/
theorem directives_follow (config : Config) (directives : List Directive) (host : String)
    (port : UInt16) (w : World) (fresh : w.endpoints host port = some .fresh)
    (unprepared : w.prepared host .call = [])
    (addressed : ∀ d ∈ directives, d.component.host = host ∧ d.component.port = port)
    (given : ∀ c, .configure c ∈ directives → Given c) :
    let plan := Plan.forEach directives (Directive.plan config)
    (w.play plan).1.map Response.verdict? = (RunState.initial.run directives).1.map some ∧
      (plan.trace World.answer w).map Event.request =
        directives.map (fun d => .command host port d.command d.args) ∧
      Serves host port (w.play plan).2 (RunState.initial.run directives).2 := by
  intro plan
  have serves : Serves host port w .initial := ⟨unprepared, _, fresh, represents_fresh⟩
  obtain ⟨events, responses, w', plays, verdicts, requests, last⟩ :=
    serves_run config serves addressed given
  have played : w.play plan = (responses, w') := plays.run
  rw [played, plays.trace]
  exact ⟨verdicts, requests, last⟩

/-- A component with two modules, of which one is listed twice. -/
def trigger : Component :=
  ⟨"trigger", "np04", 5555, .default,
    [⟨"generator", .empty⟩, ⟨"sink", .empty⟩, ⟨"sink", .empty⟩], .empty⟩

/-- A component at the same endpoint that declares a module that is not there. -/
def monitor : Component :=
  ⟨"monitor", "np04", 5555, .default, [⟨"sink", .empty⟩, ⟨"counter", .empty⟩], .empty⟩

/-- Directives of a shift: the first comes too early, and the last too late. -/
def shift : List Directive :=
  [.start trigger 41, .configure trigger, .start trigger 42, .status monitor, .shutdown trigger,
    .stop trigger]

theorem directives_follow_shift :
    let w := (World.fresh "20260101120000").setEndpoint "np04" 5555 .fresh
    w.endpoints "np04" 5555 = some .fresh ∧ w.prepared "np04" .call = [] ∧
      (∀ d ∈ shift, d.component.host = "np04" ∧ d.component.port = 5555) ∧
      (∀ c, .configure c ∈ shift → Given c) ∧
      (w.play (Plan.forEach shift (Directive.plan Registrar.operator))).1.map Response.verdict? =
        [some (.done false), some (.done true), some (.done true),
          some (.report ⟨[⟨"sink", "running"⟩, ⟨"counter", "unknown"⟩]⟩), some (.done true),
          some (.done false)] := by
  intro w
  have addressed : ∀ d ∈ shift, d.component.host = "np04" ∧ d.component.port = 5555 := by
    simp [shift, Directive.component, trigger, monitor]
  have given : ∀ c, .configure c ∈ shift → Given c := by
    intro c member
    obtain rfl : c = trigger := by simpa [shift] using member
    refine .of_spare ⟨nofun, ?_⟩ (by decide +kernel)
    simp [trigger, Json.Record.Spare, Table.empty]
  have served : w.endpoints "np04" 5555 = some .fresh := rfl
  have follows := directives_follow Registrar.operator shift "np04" 5555 w served rfl addressed given
  exact ⟨served, rfl, addressed, given, follows.1.trans (by decide +kernel)⟩

end Runs

end Controller

end RunControl
