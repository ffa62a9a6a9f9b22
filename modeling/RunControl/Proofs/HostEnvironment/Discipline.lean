import Mathlib.Data.List.Basic
import RunControl.Proofs.HostEnvironment.Course
import RunControl.Simulation.World

/-!
The order in which a resolution calls its supervisor, whoever answers.

`resolve_disciplined` says when the helper is started, when its log is read, and that
exactly what was acknowledged is taken back: the helper is removed once if it was found or
added, and its logs are cleared once, just before, if it was started.
-/

namespace RunControl

open Utf8 (Bytes)

/-! ### Kinds of calls -/

namespace Call

/-- Whether a call empties the logs or drops a registration. -/
def takesBack : Call → Bool
  | .clear _ | .remove _ => true
  | _ => false

/-- Whether a call belongs to the removal of a process. -/
def removes : Call → Bool
  | .info _ | .stop _ | .remove _ => true
  | _ => false

/-- Whether a call belongs to a wait. -/
def watches : Call → Bool
  | .info _ | .pause _ | .stop _ => true
  | _ => false

theorem keeps_of_watches {c : Call} (watches : c.watches = true) : c.takesBack = false := by
  cases c <;> simp_all [Call.watches, takesBack]

theorem isQuiet_of_watches {c : Call} (watches : c.watches = true) : c.isQuiet = true := by
  cases c <;> simp_all [Call.watches, isQuiet]

/-- Which call asks for a log. -/
theorem eq_read_of_request {b : Binding} {name : String} {log : LogKind} {c : Call}
    (asked : (c.event b name).request = .order b.host (.read (b.identifier name) log)) :
    ∃ reply, c = .read log reply := by
  cases c with
  | read log' reply =>
      cases asked
      exact ⟨reply, rfl⟩
  | _ => cases asked

end Call

theorem Binding.Removal.removes {calls : List Call} {result : Except RpcError Unit}
    (removal : Binding.Removal calls result) : ∀ c ∈ calls, c.removes = true := by
  intro c member
  cases removal <;> simp only [List.mem_cons, List.not_mem_nil, or_false] at member
  case absent => subst member; rfl
  case resting => rcases member with rfl | rfl <;> rfl
  case kept => rcases member with rfl | rfl <;> rfl
  case stopped => rcases member with rfl | rfl | rfl <;> rfl

namespace HostEnvironment

variable {b : Binding} {poll : PollBudget} {calls before after rest : List Call}
  {ending : Ending}

theorem Polls.watches {interval n : Nat} (polling : Polls interval n calls) :
    ∀ c ∈ calls, c.watches = true := by
  induction polling with
  | none => exact fun c member => nomatch member
  | more _ _ ih =>
      intro c member
      rcases List.mem_cons.mp member with rfl | member
      · rfl
      · rcases List.mem_cons.mp member with rfl | member
        · rfl
        · exact ih c member

theorem Awaited.watches {interval attempts : Nat} {rested : Bool}
    (wait : Awaited interval attempts calls rested) : ∀ c ∈ calls, c.watches = true := by
  intro c member
  cases wait with
  | rested polling _ _ =>
      rcases List.mem_append.mp member with member | member
      · exact polling.watches c member
      · rw [List.mem_singleton.mp member]
        rfl
  | late polling _ =>
      rcases List.mem_append.mp member with member | member
      · exact polling.watches c member
      · simp only [List.mem_cons, List.not_mem_nil, or_false] at member
        rcases member with rfl | rfl <;> rfl

/-- A launch begins with a start and starts nothing after that. -/
theorem Launched.begins (launch : Launched b poll calls ending) :
    ∃ reply others, calls = .start reply :: others ∧ ∀ reply, .start reply ∉ others := by
  cases launch with
  | refused => exact ⟨_, _, rfl, fun reply member => by simp at member⟩
  | late wait =>
      exact ⟨_, _, rfl, fun reply member => Bool.false_ne_true (wait.watches _ member)⟩
  | unread wait =>
      refine ⟨_, _, rfl, fun reply member => ?_⟩
      rcases List.mem_append.mp member with member | member
      · exact Bool.false_ne_true (wait.watches _ member)
      · simp at member
  | read wait =>
      refine ⟨_, _, rfl, fun reply member => ?_⟩
      rcases List.mem_append.mp member with member | member
      · exact Bool.false_ne_true (wait.watches _ member)
      · simp at member

theorem Launched.keeps (launch : Launched b poll calls ending) :
    ∀ c ∈ calls, c.takesBack = false := by
  intro c member
  have watched {wait : List Call} {rested : Bool}
      (awaited : Awaited poll.interval poll.attempts wait rested) (member : c ∈ wait) :
      c.takesBack = false := Call.keeps_of_watches (awaited.watches c member)
  cases launch with
  | refused =>
      simp only [List.mem_cons, List.not_mem_nil, or_false] at member
      rcases member with rfl | rfl <;> rfl
  | late wait =>
      rcases List.mem_cons.mp member with rfl | member
      · rfl
      · exact watched wait member
  | unread wait =>
      simp only [List.mem_cons, List.mem_append, List.not_mem_nil, or_false] at member
      rcases member with rfl | member | rfl
      · rfl
      · exact watched wait member
      · rfl
  | read wait =>
      simp only [List.mem_cons, List.mem_append, List.not_mem_nil, or_false] at member
      rcases member with rfl | member | rfl
      · rfl
      · exact watched wait member
      · rfl

/-- A log is read for its variables only at the end of a launch, right after the helper was
shown at rest. -/
theorem Launched.read_after (launch : Launched b poll calls ending)
    (others : ∀ reply, .read .stdout reply ∉ rest) {reply : Except RpcError Bytes}
    (split : calls ++ rest = before ++ .read .stdout reply :: after) :
    ∃ wait last, before = .start (.ok ()) :: (wait ++ [.info last]) ∧ showsRest last = true := by
  have watched {wait : List Call} {rested : Bool}
      (awaited : Awaited poll.interval poll.attempts wait rested) :
      .read .stdout reply ∉ Call.start (.ok ()) :: wait := by
    intro member
    rcases List.mem_cons.mp member with same | member
    · cases same
    · exact Bool.false_ne_true (awaited.watches _ member)
  have unread {whole : List Call} (absent : .read .stdout reply ∉ whole)
      (split : whole ++ rest = before ++ .read .stdout reply :: after) : False := by
    have member : .read .stdout reply ∈ whole ++ rest := by rw [split]; simp
    rcases List.mem_append.mp member with member | member
    · exact absent member
    · exact others reply member
  have last {wait : List Call} {given : Except RpcError Bytes}
      (awaited : Awaited poll.interval poll.attempts wait true)
      (split : (Call.start (.ok ()) :: wait) ++ .read .stdout given :: rest =
        before ++ .read .stdout reply :: after) :
      ∃ wait last, before = .start (.ok ()) :: (wait ++ [.info last]) ∧
        showsRest last = true := by
    obtain ⟨rfl, -, -⟩ :=
      (List.append_cons_inj_of_notMem (watched awaited) (others reply)).mp split
    cases awaited with
    | rested _ _ rests => exact ⟨_, _, rfl, rests⟩
  cases launch with
  | refused => exact (unread (by simp) split).elim
  | late wait => exact (unread (watched wait) split).elim
  | unread wait => exact last wait (by simpa using split)
  | read wait => exact last wait (by simpa using split)

/-! ### Attempts -/

/-- Whether the helper was found or added in a row of calls. -/
def Acquired (b : Binding) (calls : List Call) : Prop :=
  (∃ listing, .list listing ∈ calls ∧ b.lists helperName listing = true) ∨
    .add helperSettings (.ok ()) ∈ calls

theorem Obtained.acquired (obtained : Obtained b calls) : Acquired b (calls ++ rest) := by
  cases obtained with
  | added _ => exact .inr (by simp)
  | resting found _ => exact .inl ⟨_, by simp, found⟩
  | stopped found _ => exact .inl ⟨_, by simp, found⟩
  | notRunning found _ _ => exact .inl ⟨_, by simp, found⟩

theorem Obtained.unstarted (obtained : Obtained b calls) (reply : Except RpcError Unit) :
    .start reply ∉ calls := by
  cases obtained <;> simp

theorem Obtained.unread (obtained : Obtained b calls) (reply : Except RpcError Bytes) :
    .read .stdout reply ∉ calls := by
  cases obtained <;> simp

theorem Obtained.keeps (obtained : Obtained b calls) : ∀ c ∈ calls, c.takesBack = false := by
  intro c member
  cases obtained <;> simp only [List.mem_cons, List.not_mem_nil, or_false] at member <;>
    rcases member with rfl | rfl | rfl <;> rfl

/-- An attempt has come to the stage of a registered helper exactly if the helper was found
or added. -/
theorem Attempted.acquired_iff (attempt : Attempted b poll calls ending) :
    Acquired b calls ↔ Stage.registered.rank ≤ ending.stage.rank := by
  cases attempt with
  | notAdded absent => simp [Acquired, absent, Stage.rank]
  | notStopped found _ _ => simp [Acquired, found]
  | launched obtained launch =>
      refine ⟨fun _ => ?_, fun _ => obtained.acquired⟩
      cases launch <;> simp [Stage.rank]

/-- An attempt has come to the stage of a started helper exactly if a start was
acknowledged. -/
theorem Attempted.started_iff (attempt : Attempted b poll calls ending) :
    .start (.ok ()) ∈ calls ↔ Stage.started.rank ≤ ending.stage.rank := by
  cases attempt with
  | notAdded _ => simp [Stage.rank]
  | notStopped _ _ _ => simp [Stage.rank]
  | launched obtained launch =>
      rw [List.mem_append]
      cases launch <;> simp [Stage.rank, obtained.unstarted]

/-- Nothing is taken back in an attempt. -/
theorem Attempted.keeps (attempt : Attempted b poll calls ending) :
    ∀ c ∈ calls, c.takesBack = false := by
  intro c member
  cases attempt with
  | notAdded _ =>
      simp only [List.mem_cons, List.not_mem_nil, or_false] at member
      rcases member with rfl | rfl <;> rfl
  | notStopped _ _ _ =>
      simp only [List.mem_cons, List.not_mem_nil, or_false] at member
      rcases member with rfl | rfl | rfl <;> rfl
  | launched obtained launch =>
      rcases List.mem_append.mp member with member | member
      · exact obtained.keeps c member
      · exact launch.keeps c member

/-- In an attempt the helper is started only when it was got hold of. -/
theorem Attempted.start_after (attempt : Attempted b poll calls ending)
    (others : ∀ reply, .start reply ∉ rest) {reply : Except RpcError Unit}
    (split : calls ++ rest = before ++ .start reply :: after) : Obtained b before := by
  have member : .start reply ∈ calls ++ rest := by rw [split]; simp
  cases attempt with
  | notAdded _ => simp [others] at member
  | notStopped _ _ _ => simp [others] at member
  | launched obtained launch =>
      obtain ⟨given, tail, rfl, once⟩ := launch.begins
      have never : .start reply ∉ tail ++ rest := by simp [once, others]
      rw [List.append_assoc, List.cons_append] at split
      obtain ⟨rfl, -, -⟩ :=
        (List.append_cons_inj_of_notMem (obtained.unstarted reply) never).mp split
      exact obtained

/-- In an attempt the log is read only when the helper was shown at rest since it was
started. -/
theorem Attempted.read_after (attempt : Attempted b poll calls ending)
    (others : ∀ reply, .read .stdout reply ∉ rest) {reply : Except RpcError Bytes}
    (split : calls ++ rest = before ++ .read .stdout reply :: after) :
    ∃ first wait last, before = first ++ .start (.ok ()) :: (wait ++ [.info last]) ∧
      showsRest last = true := by
  have member : .read .stdout reply ∈ calls ++ rest := by rw [split]; simp
  cases attempt with
  | notAdded _ => simp [others] at member
  | notStopped _ _ _ => simp [others] at member
  | @launched first second _ obtained launch =>
      rw [List.append_assoc, List.append_eq_append_iff] at split
      rcases split with ⟨middle, rfl, launched⟩ | ⟨middle, rfl, reading⟩
      · obtain ⟨wait, last, rfl, rests⟩ := launch.read_after others launched
        exact ⟨first, wait, last, rfl, rests⟩
      · cases middle with
        | nil =>
            have split : second ++ rest = [] ++ .read .stdout reply :: after := reading.symm
            obtain ⟨wait, last, same, -⟩ := launch.read_after others split
            cases same
        | cons c middle =>
            obtain ⟨rfl, -⟩ := List.cons.inj reading
            exact absurd (by simp) (obtained.unread reply)

/-! ### Whole resolutions -/

/-- The order of the calls of a resolution: forward calls, then a clearing of the logs, then
a removal. -/
structure Disciplined (b : Binding) (forward cleared removed : List Call) : Prop where
  /-- Nothing is cleared or removed among the forward calls. -/
  forward_keeps : ∀ c ∈ forward, c.takesBack = false
  /-- There is a removal exactly if the helper was listed or its adding was acknowledged. -/
  removed_iff : removed ≠ [] ↔ Acquired b forward
  /-- It is one complete course of the removal of the helper. -/
  removed_once : removed ≠ [] →
    ∃ result, (b.remove helperName).Course (removed.map (Call.event b helperName)) result
  /-- The logs are cleared exactly if a start was acknowledged. -/
  cleared_iff : cleared ≠ [] ↔ .start (.ok ()) ∈ forward
  /-- They are cleared once, and then a removal follows at once. -/
  cleared_once : cleared ≠ [] → (∃ reply, cleared = [.clear reply]) ∧ removed ≠ []
  /-- A start comes only after the helper was added, or found at rest, or found otherwise and
  then stopped or told not to run. -/
  start_after : ∀ before reply after,
    forward ++ cleared ++ removed = before ++ .start reply :: after → Obtained b before
  /-- The log is read only after an acknowledged start and, at once before the reading, a
  question that was answered with a state of rest. -/
  read_after : ∀ before reply after,
    forward ++ cleared ++ removed = before ++ .read .stdout reply :: after →
      ∃ first wait last, before = first ++ .start (.ok ()) :: (wait ++ [.info last]) ∧
        showsRest last = true
  /-- After the clearing, or else from the removal on, only calls of a removal are made. -/
  backward_removes : ∀ c ∈ removed, c.removes = true

/-- A start is made among the forward calls. -/
theorem Disciplined.start_mem {forward cleared removed : List Call}
    (disciplined : Disciplined b forward cleared removed) {reply : Except RpcError Unit}
    (member : .start reply ∈ forward ++ cleared ++ removed) : .start reply ∈ forward := by
  rcases List.mem_append.mp member with member | backward
  · rcases List.mem_append.mp member with here | clearing
    · exact here
    · obtain ⟨⟨given, rfl⟩, -⟩ := disciplined.cleared_once (List.ne_nil_of_mem clearing)
      cases List.mem_singleton.mp clearing
  · exact nomatch disciplined.backward_removes _ backward

theorem Clearing.ne_nil_iff {s : Stage} (clearing : Clearing s calls) :
    calls ≠ [] ↔ Stage.started.rank ≤ s.rank := by
  cases clearing with
  | none early => simpa using early
  | once late => simpa using late

theorem Removing.ne_nil_iff {s : Stage} (removing : Removing b s calls) :
    calls ≠ [] ↔ Stage.registered.rank ≤ s.rank := by
  cases removing with
  | none early => simpa using early
  | once late _ removal =>
      refine ⟨fun _ => late, fun _ => ?_⟩
      cases removal <;> simp

theorem Removing.removes {s : Stage} (removing : Removing b s calls) :
    ∀ c ∈ calls, c.removes = true := by
  cases removing with
  | none _ => exact fun c member => nomatch member
  | once _ _ removal => exact removal.removes

/-- All that follows an attempt takes something back. -/
theorem backward {s : Stage} {cleared removed : List Call} (clearing : Clearing s cleared)
    (removing : Removing b s removed) :
    ∀ c ∈ cleared ++ removed, c.takesBack = true ∨ c.removes = true := by
  intro c member
  rcases List.mem_append.mp member with member | member
  · cases clearing with
    | none _ => cases member
    | once _ =>
        rw [List.mem_singleton.mp member]
        exact .inl rfl
  · exact .inr (removing.removes c member)

/-- What an attempt and the stage it ends in lead to is in order. -/
theorem Attempted.disciplined {cleared removed : List Call}
    (attempt : Attempted b poll calls ending) (clearing : Clearing ending.stage cleared)
    (removing : Removing b ending.stage removed) : Disciplined b calls cleared removed where
  forward_keeps := attempt.keeps
  removed_iff := by rw [removing.ne_nil_iff, attempt.acquired_iff]
  removed_once some := by
    obtain ⟨result, course, -⟩ := removing.course (removing.ne_nil_iff.mp some)
    exact ⟨result, course⟩
  cleared_iff := by rw [clearing.ne_nil_iff, attempt.started_iff]
  cleared_once some := by
    have late := clearing.ne_nil_iff.mp some
    have registered : Stage.registered.rank ≤ ending.stage.rank := Nat.le_trans (by decide) late
    exact ⟨clearing.eq_once late, removing.ne_nil_iff.mpr registered⟩
  start_after before reply after split := by
    have others (reply) : .start reply ∉ cleared ++ removed := fun member =>
      (backward clearing removing _ member).elim nofun nofun
    exact attempt.start_after others (by rw [← List.append_assoc]; exact split)
  read_after before reply after split := by
    have others (reply) : .read .stdout reply ∉ cleared ++ removed := fun member =>
      (backward clearing removing _ member).elim nofun nofun
    exact attempt.read_after others (by rw [← List.append_assoc]; exact split)
  backward_removes := removing.removes

/-- Whoever answers, the calls of a resolution are the forward calls of its attempt, a
clearing and a removal in order, and its result is the one that the attempt ends with. -/
theorem resolve_disciplined {σ : Type} (answer : Answerer σ) (b : Binding) (poll : PollBudget)
    (s : σ) :
    ∃ forward cleared removed ending,
      (resolve b poll).trace answer s =
        (forward ++ cleared ++ removed).map (Call.event b helperName) ∧
      (attempt b poll).Course (forward.map (Call.event b helperName)) ending ∧
      ((resolve b poll).run answer s).1 = ending.environment ∧
      Disciplined b forward cleared removed := by
  obtain ⟨forward, cleared, removed, ending, events, course, result, attempt, clearing, removing⟩ :=
    resolve_course (Plan.play_course answer (resolve b poll) s)
  exact ⟨forward, cleared, removed, ending, events, course, result,
    attempt.disciplined clearing removing⟩

open Simulation in
/-- A helper that still runs is stopped and started again, its log is read and cleared, and it is
removed. -/
theorem resolve_disciplined_running :
    let b : Binding := ⟨"np04", "daq"⟩
    let w := (World.fresh "20260101120000").onHost "np04" fun h =>
      h.insertRunning "daq" helperName "bash -c \"export -p\""
    let events := (resolve b ⟨500, 20⟩).trace World.answer w
    events.map Event.request =
        [.order "np04" .list, .order "np04" (.info "daq:printenv"),
          .order "np04" (.stop "daq:printenv" true), .order "np04" (.start "daq:printenv" true),
          .order "np04" (.info "daq:printenv"), .order "np04" (.read "daq:printenv" .stdout),
          .order "np04" (.clear "daq:printenv"), .order "np04" (.info "daq:printenv"),
          .order "np04" (.remove "daq" helperName)] ∧
      ∃ forward cleared removed,
        events = (forward ++ cleared ++ removed).map (Call.event b helperName) ∧
          Disciplined b forward cleared removed ∧ cleared ≠ [] ∧ removed ≠ [] := by
  intro b w events
  obtain ⟨forward, cleared, removed, ending, whole, -, -, disciplined⟩ :=
    resolve_disciplined World.answer b ⟨500, 20⟩ w
  have asked : .order "np04" (.read "daq:printenv" .stdout) ∈ events.map Event.request := by
    decide +kernel
  rw [show events = _ from whole, List.map_map] at asked
  obtain ⟨c, member, same⟩ := List.mem_map.mp asked
  obtain ⟨reply, rfl⟩ := Call.eq_read_of_request same
  -- It was read, so a start was acknowledged before, and all of it is taken back.
  obtain ⟨before, after, split⟩ := List.append_of_mem member
  obtain ⟨first, wait, last, rfl, -⟩ := disciplined.read_after before reply after split
  have start : .start (.ok ()) ∈ forward ++ cleared ++ removed := by
    rw [split]
    simp
  have clearing := disciplined.cleared_iff.mpr (disciplined.start_mem start)
  refine ⟨by decide +kernel, forward, cleared, removed, whole, disciplined, clearing, ?_⟩
  exact (disciplined.cleared_once clearing).2

end HostEnvironment

end RunControl
