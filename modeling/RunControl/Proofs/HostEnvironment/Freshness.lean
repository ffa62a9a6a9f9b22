import RunControl.Proofs.HostEnvironment.Discipline
import RunControl.Proofs.HostEnvironment.Exports
import RunControl.Proofs.HostEnvironment.Restoration
import RunControl.Proofs.Text.Utf8

/-!
Which output a resolved environment is read from.

A helper that is found from an earlier run is started again without its logs being cleared
first. So the environment is read from what the log held before and then what this run wrote
(`resolve_readFrom`), and variables of the earlier run that this run does not give show in it
(`interrupted_not_fresh`).
-/

namespace RunControl

/-- Which call a start is. -/
theorem Call.eq_of_event_start {b : Binding} {name : String} {c : Call}
    {reply : Except RpcError Unit} (same : c.event b name = Call.event b name (.start reply)) :
    c = .start reply := by
  cases c with
  | start reply' =>
      cases same
      rfl
  | _ => cases same

namespace HostEnvironment

open Simulation
open Exports (Environment)

variable {b : Binding} {poll : PollBudget} {calls first wait : List Call} {h h' mid : Host}

/-- The helper as a resolution finds it, or else as it registers it. -/
def helperFor (b : Binding) (h : Host) : Process :=
  (h.processes.get? (b.identifier helperName)).getD (.added b.group helperName helperSettings)

/-- The text that a process writes to its log when it is started. -/
def written (h : Host) (p : Process) : String :=
  if p.isHelper && !h.helperHangs then h.helperStdout else ""

/-- A start appends what is written to the log. -/
theorem stdout_started (h : Host) (pid : UInt32) (p : Process) :
    (h.started pid p).stdout = p.stdout ++ Utf8.encode (written h p) := by
  have same : Process.isHelper { p with start := 1, pid := pid } = p.isHelper := rfl
  unfold Host.started written
  dsimp only
  rw [same]
  split
  · rfl
  · rw [show Utf8.encode "" = [] from rfl, List.append_nil]

theorem written_congr {p q : Process} (setup : h'.setup = h.setup)
    (same : p.settings = q.settings) : written h' p = written h q := by
  have prints : p.isHelper = q.isHelper := by rw [Process.isHelper, same]; rfl
  show (if p.isHelper && !h'.setup.helperHangs then h'.setup.helperStdout else "") = _
  rw [setup, prints]
  rfl

/-- Getting hold of the helper leaves its settings and its log as they are. -/
theorem Obtained.footprint (obtained : Obtained b first) (served : Served b helperName first h mid)
    {p : Process} (found : mid.processes.get? (b.identifier helperName) = some p) :
    p.footprint = (helperFor b h).footprint := by
  have kept (quiet : ∀ c ∈ first, c.isQuiet = true) : p.footprint = (helperFor b h).footprint := by
    have same := served.still quiet (b.identifier helperName)
    rw [found, Option.map_some] at same
    obtain ⟨q, foundBefore, still⟩ := Option.map_eq_some_iff.mp same.symm
    rw [helperFor, foundBefore, Option.getD_some, Process.footprint_of_still still]
  cases obtained with
  | added _ =>
      obtain ⟨next, listed, _, added, rfl⟩ := served
      obtain ⟨free, registered⟩ := (added.answers rfl).of_add
      rw [listed.listed.1] at free
      rw [registered, Binding.identifier, Table.get?_insert, if_pos rfl] at found
      cases found
      rw [helperFor, Binding.identifier, free, Option.getD_none]
  | resting _ _ => exact kept (by simp [Call.isQuiet])
  | stopped _ _ => exact kept (by simp [Call.isQuiet])
  | notRunning _ _ _ => exact kept (by simp [Call.isQuiet])

/-- What is read after a start is what the log held and then what was written since. -/
theorem log_of_served {log : Utf8.Bytes} (obtained : Obtained b first)
    (watches : ∀ c ∈ wait, c.isQuiet = true)
    (served : Served b helperName
      (first ++ .start (.ok ()) :: (wait ++ [.read .stdout (.ok log)])) h h') :
    log = (helperFor b h).stdout ++ Utf8.encode (written h (helperFor b h)) := by
  obtain ⟨before, got, next, start, rest⟩ := served_append_iff.mp served
  obtain ⟨last, waited, _, read, rfl⟩ := served_append_iff.mp rest
  obtain ⟨p, pid, found, running⟩ := (start.answers rfl).of_start
  obtain ⟨q, foundLast, rfl⟩ := (read.answers rfl).of_read
  have footprint : p.footprint = (helperFor b h).footprint := obtained.footprint got found
  have settings : p.settings = (helperFor b h).settings := congrArg Prod.fst footprint
  have log : p.stdout = (helperFor b h).stdout := congrArg Prod.snd footprint
  have still : q.footprint = (before.started pid p).footprint := by
    have same := waited.still watches (b.identifier helperName)
    rw [foundLast, running, Option.map_some, Option.map_some] at same
    exact Process.footprint_of_still (Option.some.inj same)
  calc q.log .stdout = (before.started pid p).stdout := congrArg Prod.snd still
    _ = p.stdout ++ Utf8.encode (written before p) := stdout_started before pid p
    _ = (helperFor b h).stdout ++ Utf8.encode (written h (helperFor b h)) := by
      rw [log, written_congr got.setup settings]

/-- An attempt that ends with a text went through getting hold of the helper, a start, a wait
and the reading of the log. -/
theorem Attempted.read_of_ok {ending : Ending} {text : String}
    (attempt : Attempted b poll calls ending) (outcome : ending.outcome = .ok text) :
    ∃ first wait log, Obtained b first ∧ (∀ c ∈ wait, c.isQuiet = true) ∧
      calls = first ++ .start (.ok ()) :: (wait ++ [.read .stdout (.ok log)]) ∧
      text = Utf8.decodeLossy log := by
  cases attempt with
  | notAdded _ => cases outcome
  | notStopped _ _ _ => cases outcome
  | @launched first _ _ obtained launch =>
      cases launch with
      | refused => cases outcome
      | late _ => cases outcome
      | unread _ => cases outcome
      | @read wait log waited =>
          cases outcome
          exact ⟨first, wait, log, obtained, fun c member => Call.isQuiet_of_watches
            (waited.watches c member), rfl, rfl⟩

/-- Once the helper was started, an environment comes from a text. -/
theorem Ending.text_of_environment {ending : Ending} {environment : Environment}
    (started : Stage.started.rank ≤ ending.stage.rank)
    (resolved : ending.environment = .ok environment) :
    ∃ text, ending.outcome = .ok text ∧ environment = Exports.parse text := by
  obtain ⟨stage, outcome⟩ := ending
  cases outcome with
  | ok text =>
      cases resolved
      exact ⟨text, rfl, rfl⟩
  | error e =>
      have late : stage.swallowsFailure = false := by
        cases stage <;> simp_all [Stage.swallowsFailure, Stage.rank]
      simp [Ending.environment, late] at resolved

/-- How an environment hangs on the text of a run and on the log from before it. -/
structure ReadFrom (earlier : Utf8.Bytes) (text : String) (environment : Environment) : Prop where
  /-- It is read from the log from before and then the text. -/
  whole : environment = Exports.parse (Utf8.decodeLossy (earlier ++ Utf8.encode text))
  /-- After an empty log it is that of the text. -/
  fresh : earlier = [] → environment = Exports.parse text
  /-- An earlier listing gives every variable that the text does not give, and no others. -/
  overrides : ∀ listing, earlier = Utf8.encode (listing ++ "\n") → Exports.Declares text →
    ∀ key, environment.get? key =
      ((Exports.parse text).get? key).or ((Exports.parse listing).get? key)
  /-- After an earlier listing the environment is that of the text exactly if the text gives
  every variable of the listing. -/
  fresh_iff_gives : ∀ listing, earlier = Utf8.encode (listing ++ "\n") → Exports.Declares text →
    (environment = Exports.parse text ↔ ∀ key, (Exports.parse listing).contains key = true →
      (Exports.parse text).contains key = true)

/-- What is read from a log is related to its parts as in `ReadFrom`. -/
theorem readFrom_of_whole {earlier : Utf8.Bytes} {text : String} {environment : Environment}
    (whole : environment = Exports.parse (Utf8.decodeLossy (earlier ++ Utf8.encode text))) :
    ReadFrom earlier text environment := by
  have overrides (listing : String) (same : earlier = Utf8.encode (listing ++ "\n"))
      (declares : Exports.Declares text) (key : String) : environment.get? key =
        ((Exports.parse text).get? key).or ((Exports.parse listing).get? key) := by
    rw [whole, same, Utf8.decodeLossy_append, Utf8.decodeLossy_encode]
    exact Exports.get?_parse_append declares key
  refine ⟨whole, ?fresh, overrides, ?gives⟩
  case fresh =>
    intro none
    rw [whole, none, List.nil_append, Utf8.decodeLossy_encode]
  case gives =>
    intro listing same declares
    have gives := overrides listing same declares
    constructor
    · rintro rfl key shown
      rw [Table.contains, gives key, Option.isSome_or]
      exact Bool.or_eq_true_iff.mpr (.inr shown)
    · intro covers
      ext1 key
      rw [gives key]
      cases found : (Exports.parse text).get? key with
      | some value => rfl
      | none =>
          have hidden : (Exports.parse listing).contains key = false := by
            rw [Bool.eq_false_iff]
            intro shown
            simpa [Table.contains, found] using covers key shown
          simpa [Table.contains] using hidden

/-- When the helper was started and there is an environment, it is read from what the log of
the helper held before and what was written in this run. -/
theorem resolve_readFrom (w : World) (b : Binding) (poll : PollBudget)
    (environment : Environment) (plain : w.Unprepared b.host)
    (started : Call.event b helperName (.start (.ok ())) ∈ (resolve b poll).trace World.answer w)
    (resolved : (w.play (resolve b poll)).1 = .ok environment) :
    let helper := helperFor b (w.hosts b.host)
    ReadFrom helper.stdout (written (w.hosts b.host) helper) environment := by
  intro helper
  obtain ⟨forward, cleared, removed, ending, attempt, clearing, removing, served, -, trace,
    result⟩ := resolve_served poll plain
  have acknowledged : .start (.ok ()) ∈ forward := by
    rw [trace] at started
    obtain ⟨c, member, same⟩ := List.mem_map.mp started
    obtain rfl := Call.eq_of_event_start same
    rw [List.append_assoc] at member
    rcases List.mem_append.mp member with member | member
    · exact member
    · exact ((backward clearing removing _ member).elim nofun nofun : False).elim
  have late := attempt.started_iff.mp acknowledged
  obtain ⟨text, outcome, parsed⟩ := Ending.text_of_environment late (result.symm.trans resolved)
  obtain ⟨first, wait, log, obtained, quiet, rfl, rfl⟩ := attempt.read_of_ok outcome
  rw [List.append_assoc] at served
  obtain ⟨last, before, -⟩ := served_append_iff.mp served
  rw [log_of_served obtained quiet before] at parsed
  exact readFrom_of_whole parsed

/-! ### A run that was interrupted -/

/-- A group on a host. -/
def daq : Binding :=
  ⟨"daq01", "daq"⟩

/-- The world in which the helper on a host is going to print a text. -/
def prints (host text : String) (w : World) : World :=
  w.onHost host fun h => { h with helperStdout := text }

/-- The helper was registered and started, and nobody went on from there; meanwhile another
variable is exported. -/
def interrupted : World :=
  let w := prints daq.host "declare -x OLD=\"1\"\n" (.fresh "20260101120000")
  let w := (w.play (daq.addSettings helperName (.ofList [("command", "bash -c \"export -p\"")]))).2
  let w := (w.play (daq.start helperName)).2
  prints daq.host "declare -x NEW=\"2\"\n" w

theorem resolve_readFrom_interrupted :
    interrupted.Unprepared daq.host ∧
      Call.event daq helperName (.start (.ok ())) ∈
        (resolve daq ⟨500, 20⟩).trace World.answer interrupted ∧
      (interrupted.play (resolve daq ⟨500, 20⟩)).1 = .ok (.ofList [("NEW", "2"), ("OLD", "1")]) ∧
      ReadFrom (helperFor daq (interrupted.hosts daq.host)).stdout
        (written (interrupted.hosts daq.host) (helperFor daq (interrupted.hosts daq.host)))
        (.ofList [("NEW", "2"), ("OLD", "1")]) := by
  have plain : interrupted.Unprepared daq.host := fun _ => rfl
  have started : Call.event daq helperName (.start (.ok ())) ∈
      (resolve daq ⟨500, 20⟩).trace World.answer interrupted :=
    List.mem_of_getElem? (i := 2) rfl
  have resolved : (interrupted.play (resolve daq ⟨500, 20⟩)).1 =
      .ok (.ofList [("NEW", "2"), ("OLD", "1")]) := by decide +kernel
  exact ⟨plain, started, resolved,
    resolve_readFrom interrupted daq ⟨500, 20⟩ _ plain started resolved⟩

/-- After an interrupted run an environment need not be that of the text of the run it was
resolved in: here it has a variable of the earlier run, which the text does not give. -/
theorem interrupted_not_fresh :
    Call.event daq helperName (.start (.ok ())) ∈
        (resolve daq ⟨500, 20⟩).trace World.answer interrupted ∧
      ∃ environment, (interrupted.play (resolve daq ⟨500, 20⟩)).1 = .ok environment ∧
        environment ≠ Exports.parse
          (written (interrupted.hosts daq.host) (helperFor daq (interrupted.hosts daq.host))) ∧
        environment.get? "OLD" = some "1" := by
  refine ⟨List.mem_of_getElem? (i := 2) rfl, .ofList [("NEW", "2"), ("OLD", "1")], ?_, ?_, ?_⟩
  · decide +kernel
  · decide +kernel
  · decide +kernel

end HostEnvironment

end RunControl
