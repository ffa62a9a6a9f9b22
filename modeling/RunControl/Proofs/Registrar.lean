import RunControl.Proofs.HostEnvironment.Restoration
import RunControl.Proofs.Rpc.Identifier
import RunControl.Registrar

/-!
What a registration leaves on a host.

`register_kept_iff`: a process is registered with the settings that were submitted and is never
started, whatever becomes of the environment, exactly if it does not have the name of the
environment helper. A process of that name is taken for a helper that was left over: it is
started, and its registration is dropped.
-/

namespace RunControl.Registrar

open HostEnvironment Simulation

variable {b : Binding} {poll : PollBudget} {name : String} {settings : Table String}
  {h h' mid : Host} {forward : List Call} {ending : Ending}

/-! ### A process with the name of the helper -/

/-- A process that was added and never started is shown at rest, and stays as it is. -/
theorem info_of_added {answer : Except RpcError ProcessInfo}
    (step : Step b name (.info answer) h mid) (sound : h.injected? .info = none)
    (found : h.processes.get? (b.identifier name) = some (.added b.group name settings)) :
    showsRest answer = true ∧
      mid.processes.get? (b.identifier name) = some (.added b.group name settings) := by
  have answers := step.answers rfl
  generalize mid.processes = after at answers ⊢
  cases answers with
  | refused why =>
      cases why with
      | injected fails => exact nomatch sound.symm.trans fails
      | absent about unknown =>
          cases about
          exact nomatch unknown.symm.trans found
  | @polled _ p found' =>
      obtain rfl : p = .added b.group name settings := Option.some.inj (found'.symm.trans found)
      exact ⟨rfl, by rw [Table.get?_insert, if_pos rfl]; rfl⟩

/-- A start of such a process is acknowledged. -/
theorem start_of_added {reply : Except RpcError Unit} (step : Step b name (.start reply) h mid)
    (sound : h.injected? .start = none)
    (found : h.processes.get? (b.identifier name) = some (.added b.group name settings)) :
    reply = .ok () := by
  have answers := step.answers rfl
  generalize mid.processes = after at answers
  cases answers with
  | started _ _ _ => rfl
  | refused why =>
      cases why with
      | injected fails => exact nomatch sound.symm.trans fails
      | absent about unknown =>
          cases about
          exact nomatch unknown.symm.trans found
      | @alreadyStarted _ _ _ p found' active =>
          obtain rfl : p = .added b.group name settings := Option.some.inj (found'.symm.trans found)
          cases active

/-- A listing shows such a process. -/
theorem lists_of_added {listing : Except RpcError (List ProcessInfo)}
    (step : Step b name (.list listing) h mid) (sound : h.injected? .list = none)
    (found : h.processes.get? (b.identifier name) = some (.added b.group name settings)) :
    b.lists name listing = true := by
  have there : registers b name h.processes = true :=
    registers_iff.mpr ⟨_, _, found, by simp [owns, Process.added]⟩
  exact step.listed.2.mpr ⟨sound, there⟩

/-- A process with the name of the helper is taken for it, and started. -/
theorem started_of_added (attempt : Attempted b poll forward ending)
    (served : Served b helperName forward h h') (sound : ∀ m, h.injected? m = none)
    (found : h.processes.get? (b.identifier helperName) =
      some (.added b.group helperName settings)) :
    .start (.ok ()) ∈ forward ∧ Stage.registered.rank ≤ ending.stage.rank := by
  have asked {listing : Except RpcError (List ProcessInfo)}
      {answer : Except RpcError ProcessInfo} {mid next : Host}
      (listed : Step b helperName (.list listing) h mid)
      (step : Step b helperName (.info answer) mid next) :
      showsRest answer = true ∧ next.processes.get? (b.identifier helperName) =
        some (.added b.group helperName settings) := by
    refine info_of_added step ?_ (listed.listed.1 ▸ found)
    rw [Host.injected?_of_setup listed.setup]
    exact sound .info
  cases attempt with
  | notAdded absent =>
      obtain ⟨_, listed, _⟩ := served
      exact nomatch absent.symm.trans (lists_of_added listed (sound _) found)
  | notStopped _ busy _ =>
      obtain ⟨_, listed, _, step, _⟩ := served
      exact nomatch busy.symm.trans (asked listed step).1
  | launched obtained launch =>
      refine ⟨?_, launch.registered⟩
      obtain ⟨mid, before, after⟩ := served_append_iff.mp served
      cases obtained with
      | added absent =>
          obtain ⟨_, listed, _⟩ := before
          exact nomatch absent.symm.trans (lists_of_added listed (sound _) found)
      | stopped _ busy =>
          obtain ⟨_, listed, _, step, _⟩ := before
          exact nomatch busy.symm.trans (asked listed step).1
      | notRunning _ busy _ =>
          obtain ⟨_, listed, _, step, _⟩ := before
          exact nomatch busy.symm.trans (asked listed step).1
      | resting _ _ =>
          have setup := before.setup
          obtain ⟨_, listed, _, step, rfl⟩ := before
          cases launch with
          | refused =>
              obtain ⟨_, start, _⟩ := after
              have startSound := (Host.injected?_of_setup setup .start).trans (sound .start)
              cases start_of_added start startSound (asked listed step).2
          | late _ | unread _ | read _ => simp

/-! ### Processes beside a resolution -/

variable {w : World} {id : String}

/-- A resolution starts a process with the name of the helper that was added before, and drops
its registration. -/
theorem resolve_drops_added (poll : PollBudget) (plain : w.Unprepared b.host)
    (sound : ∀ m, (w.hosts b.host).injected? m = none)
    (found : (w.hosts b.host).processes.get? (b.identifier helperName) =
      some (.added b.group helperName settings)) :
    ((w.play (resolve b poll)).2.hosts b.host).processes.get? (b.identifier helperName) = none ∧
      Call.event b helperName (.start (.ok ())) ∈ (resolve b poll).trace World.answer w := by
  obtain ⟨forward, cleared, removed, ending, attempt, -, removing, served, -, trace, -⟩ :=
    resolve_served poll plain
  obtain ⟨mid, before, dropping⟩ := served_append_iff.mp served
  obtain ⟨first, tried, -⟩ := served_append_iff.mp before
  obtain ⟨started, stage⟩ := started_of_added attempt tried sound found
  constructor
  · obtain ⟨_, -, removal⟩ := removing.course stage
    apply dropping.removed removal
    · rw [Host.injected?_of_setup before.setup, sound]
    · rw [Host.injected?_of_setup before.setup, sound]
  · rw [trace]
    apply List.mem_map_of_mem
    exact List.mem_append_left _ (List.mem_append_left _ started)

/-- Calls about a process start no other. -/
theorem event_ne_start {call : Call} (other : id ≠ b.identifier name) (wait : Bool) :
    (call.event b name).request ≠ .order b.host (.start id wait) := by
  cases call with
  | start reply =>
      intro same
      injection same with _ same
      injection same with same _
      exact other same.symm
  | _ => simp [Call.event]

/-- A resolution leaves a process with another name as it is, and does not start it. -/
theorem resolve_leaves_other (poll : PollBudget) (plain : w.Unprepared b.host)
    (other : id ≠ b.identifier helperName) :
    ((w.play (resolve b poll)).2.hosts b.host).processes.get? id =
        (w.hosts b.host).processes.get? id ∧
      ∀ e ∈ (resolve b poll).trace World.answer w, ∀ wait,
        e.request ≠ .order b.host (.start id wait) := by
  obtain ⟨_, _, _, _, -, -, -, served, -, trace, -⟩ := resolve_served poll plain
  refine ⟨served.frame other, ?_⟩
  intro e member wait
  rw [trace] at member
  obtain ⟨call, -, rfl⟩ := List.mem_map.mp member
  exact event_ne_start other wait

/-! ### Registrations in a world -/

variable {c : Config} {host : String} {r : ProcessRequest}

/-- The world after a process was added. -/
def afterAdd (c : Config) (host : String) (r : ProcessRequest) (w : World) : World :=
  (w.answerOrder host (.add c.group r.name (submitted c.user w.now r).settings)).2

/-- What is added is there, and nothing else has changed on the host. -/
theorem add_free (plain : w.Unprepared host) (sound : ∀ m, (w.hosts host).injected? m = none)
    (free : (w.hosts host).processes.get? (qualified c.group r.name) = none) :
    (w.answerOrder host (.add c.group r.name (submitted c.user w.now r).settings)).1 = .ok () ∧
      (afterAdd c host r w).hosts host = (w.hosts host).put (qualified c.group r.name)
        (.added c.group r.name (submitted c.user w.now r).settings) := by
  unfold afterAdd
  rw [World.answerOrder_eq plain, Host.answer_add_of_free (sound .add) free]
  exact ⟨rfl, if_pos rfl⟩

/-- What follows when the answer to the addition is known. -/
def afterAnswer (c : Config) (host : String) (r : ProcessRequest) (stamp : String) :
    Except RpcError Unit → Plan (Except RpcError Registration)
  | .error e => .done (.error e)
  | .ok () => (resolve ⟨host, c.group⟩ c.poll).bind fun resolution =>
      .done (.ok (registered host
        ((vocabulary c).values (match resolution with
          | .ok environment => environment
          | .error _ => .empty)) (submitted c.user stamp r)))

theorem register_eq (c : Config) (host : String) (r : ProcessRequest) :
    register c host r = .ask .now fun stamp =>
      .ask (.order host (.add c.group r.name (submitted c.user stamp r).settings)) fun reply =>
        afterAnswer c host r stamp reply := by
  refine congrArg (Plan.ask .now) (funext fun stamp => ?_)
  refine congrArg (Plan.ask _) (funext fun reply => ?_)
  cases reply with
  | error e => rfl
  | ok u => rfl

/-- The time is read for the name of the log, and the addition of the process is answered. -/
def addition (c : Config) (host : String) (r : ProcessRequest) (stamp : String)
    (reply : Except RpcError Unit) : List Event :=
  [⟨.now, stamp⟩, ⟨.order host (.add c.group r.name (submitted c.user stamp r).settings), reply⟩]

/-- The ways a registration can go: the process is refused, or it is added and the environment is
resolved. An environment that cannot be had counts as empty. -/
inductive Submission (c : Config) (host : String) (r : ProcessRequest) :
    List Event → Except RpcError Registration → Prop where
  | refused (stamp : String) (e : RpcError) :
      Submission c host r (addition c host r stamp (.error e)) (.error e)
  | accepted (stamp : String) {rest : List Event}
      {resolution : Except RpcError Exports.Environment}
      (resolved : (resolve ⟨host, c.group⟩ c.poll).Course rest resolution) :
      Submission c host r (addition c host r stamp (.ok ()) ++ rest)
        (.ok (registered host ((vocabulary c).values (resolution.toOption.getD .empty))
          (submitted c.user stamp r)))

/-- Whoever answers, a registration goes in one of the ways. -/
theorem submission_of_course {events : List Event} {result : Except RpcError Registration}
    (course : (register c host r).Course events result) : Submission c host r events result := by
  rw [register_eq] at course
  cases course with
  | ask stamp course =>
      cases course with
      | ask reply course =>
          cases reply with
          | error e =>
              cases course
              exact .refused stamp e
          | ok u =>
              obtain ⟨first, resolution, second, rfl, resolved, ended⟩ :=
                Plan.course_bind_iff.mp course
              obtain ⟨rfl, rfl⟩ := Plan.course_pure_iff.mp ended
              rw [List.append_nil]
              cases resolution with
              | ok environment => exact .accepted stamp resolved
              | error e => exact .accepted stamp resolved

/-- When the process was added, what follows is the resolution of the environment. -/
theorem register_play (added :
    (w.answerOrder host (.add c.group r.name (submitted c.user w.now r).settings)).1 = .ok ()) :
    (∃ environment, (w.play (register c host r)).1 =
      .ok (registered host ((vocabulary c).values environment) (submitted c.user w.now r))) ∧
    (w.play (register c host r)).2 =
      ((afterAdd c host r w).play (resolve ⟨host, c.group⟩ c.poll)).2 ∧
    (register c host r).trace World.answer w = ⟨.now, w.now⟩ ::
      ⟨.order host (.add c.group r.name (submitted c.user w.now r).settings), .ok ()⟩ ::
        (resolve ⟨host, c.group⟩ c.poll).trace World.answer (afterAdd c host r w) := by
  have run : (register c host r).run World.answer w =
      (afterAnswer c host r w.now
        (w.answerOrder host (.add c.group r.name (submitted c.user w.now r).settings)).1).run
          World.answer (afterAdd c host r w) := by
    rw [register_eq]
    rfl
  have trace : (register c host r).trace World.answer w = ⟨.now, w.now⟩ ::
      ⟨.order host (.add c.group r.name (submitted c.user w.now r).settings),
        (w.answerOrder host (.add c.group r.name (submitted c.user w.now r).settings)).1⟩ ::
      (afterAnswer c host r w.now
        (w.answerOrder host (.add c.group r.name (submitted c.user w.now r).settings)).1).trace
          World.answer (afterAdd c host r w) := by
    rw [register_eq]
    rfl
  rw [added] at run trace
  simp only [afterAnswer, Plan.run_bind, Plan.trace_bind, Plan.run, Plan.trace,
    List.append_nil] at run trace
  exact ⟨⟨_, congrArg Prod.fst run⟩, congrArg Prod.snd run, trace⟩

/-- What is wanted of a registration: the process is there as it was submitted, with its
placeholders and never started, and no start was asked for. -/
structure Kept (c : Config) (host : String) (r : ProcessRequest) (w : World) : Prop where
  record : ((w.play (register c host r)).2.hosts host).processes.get? (qualified c.group r.name) =
    some (.added c.group r.name (submitted c.user w.now r).settings)
  unstarted : ∀ e ∈ (register c host r).trace World.answer w, ∀ wait,
    e.request ≠ .order host (.start (qualified c.group r.name) wait)

/-- For every request for a process, on a host that can be reached, where nothing is made to fail
and nothing has the identifier of the process, and however the helper behaves: the registration
succeeds, and the process is kept exactly if it does not have the name of the helper. One that has
it is started, and its registration is dropped. -/
theorem register_kept_iff (c : Config) (host : String) (r : ProcessRequest) (w : World)
    (plain : w.Unprepared host) (reached : (w.hosts host).unreachable = false)
    (unfailing : (w.hosts host).failing = [])
    (free : (w.hosts host).processes.get? (qualified c.group r.name) = none) :
    (∃ environment, (w.play (register c host r)).1 =
      .ok (registered host ((vocabulary c).values environment) (submitted c.user w.now r))) ∧
    (Kept c host r w ↔ r.name ≠ helperName) ∧
    (r.name = helperName →
      ((w.play (register c host r)).2.hosts host).processes.get? (qualified c.group r.name) = none ∧
      ⟨.order host (.start (qualified c.group r.name) true), .ok ()⟩ ∈
        (register c host r).trace World.answer w) := by
  have sound (m : Method) : (w.hosts host).injected? m = none := by
    rw [Host.injected?_eq_none_iff, unfailing]
    exact ⟨reached, nofun⟩
  obtain ⟨added, table⟩ := add_free plain sound free
  obtain ⟨result, after, trace⟩ := register_play added
  have plain' : (afterAdd c host r w).Unprepared host := plain.answer (.order host _)
  have sound' (m : Method) : ((afterAdd c host r w).hosts host).injected? m = none := by
    rw [table]
    exact sound m
  have there : ((afterAdd c host r w).hosts host).processes.get? (qualified c.group r.name) =
      some (.added c.group r.name (submitted c.user w.now r).settings) := by
    rw [table, Host.put, Table.get?_insert, if_pos rfl]
  have lost (same : r.name = helperName) :
      ((w.play (register c host r)).2.hosts host).processes.get? (qualified c.group r.name) = none ∧
      ⟨.order host (.start (qualified c.group r.name) true), .ok ()⟩ ∈
        (register c host r).trace World.answer w := by
    rw [same] at there ⊢
    obtain ⟨gone, started⟩ := resolve_drops_added (b := ⟨host, c.group⟩) c.poll plain' sound' there
    rw [after, trace]
    exact ⟨gone, .tail _ (.tail _ started)⟩
  refine ⟨result, ⟨?_, ?_⟩, lost⟩
  · intro kept same
    exact nomatch kept.record.symm.trans (lost same).1
  · intro other
    have apart : qualified c.group r.name ≠ qualified c.group helperName := by
      intro same
      exact other (qualified_inj.mp same)
    obtain ⟨same, unstarted⟩ :=
      resolve_leaves_other (b := ⟨host, c.group⟩) c.poll plain' apart
    constructor
    case record =>
      rw [after]
      exact same.trans there
    case unstarted =>
      intro e member wait
      rw [trace] at member
      rcases List.mem_cons.mp member with rfl | member
      · exact nofun
      · rcases List.mem_cons.mp member with rfl | member
        · exact nofun
        · exact unstarted e member wait

/-! ### Two registrations -/

/-- A configuration of an operator. -/
def operator : Config where
  group := "daq"
  supervisorPort := Config.defaultSupervisorPort
  rpcTimeout := 5000
  poll := ⟨50, 20⟩
  placeholderKeys := Config.defaultPlaceholderKeys
  user := "operator"
  useSupervisor := true

/-- A request for a process of a name. -/
def requested (name : String) : ProcessRequest where
  name := name
  executable := "bin/daqling"
  directory := "%(ENV_DAQ_BUILD_DIR)s"
  environment := .empty
  command := "core 5555"

/-- A process with a name of its own is kept. -/
theorem register_kept_trigger :
    let w := World.fresh "20260101120000"
    w.Unprepared "np04" ∧ (w.hosts "np04").unreachable = false ∧ (w.hosts "np04").failing = [] ∧
      (w.hosts "np04").processes.get? (qualified "daq" "trigger") = none ∧
      Kept operator "np04" (requested "trigger") w := by
  intro w
  have plain : w.Unprepared "np04" := fun _ => rfl
  have free : (w.hosts "np04").processes.get? (qualified "daq" "trigger") = none := rfl
  have registration :=
    register_kept_iff operator "np04" (requested "trigger") w plain rfl rfl free
  exact ⟨plain, rfl, rfl, free, registration.2.1.mpr (by decide)⟩

/-- A process with the name of the helper is started and not kept, though its registration
succeeds. -/
theorem register_helperName_lost :
    let w := World.fresh "20260101120000"
    let plan := register operator "np04" (requested "printenv")
    w.Unprepared "np04" ∧ (w.hosts "np04").unreachable = false ∧ (w.hosts "np04").failing = [] ∧
      (w.hosts "np04").processes.get? "daq:printenv" = none ∧ (w.play plan).1.isOk = true ∧
      ((w.play plan).2.hosts "np04").processes.get? "daq:printenv" = none ∧
      .order "np04" (.start "daq:printenv" true) ∈ (plan.trace World.answer w).map Event.request :=
  ⟨fun _ => rfl, rfl, rfl, rfl, by decide +kernel⟩

end RunControl.Registrar
