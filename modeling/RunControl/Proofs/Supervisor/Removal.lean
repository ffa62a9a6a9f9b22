import Mathlib.Data.List.Basic
import RunControl.Proofs.Simulation.Served

/-!
Removals: no process that may run loses its registration.

`remove_unorphaned` has two parts. Whoever answers, the registration is dropped once at most
and only when the process rests, and the result is that of the call that decided it. Where a
supervisor in memory answers, a removal that succeeds leaves no registration and can be done
again, one that fails leaves the process with all it has, and no other process is touched.
-/

namespace RunControl

/-- Whether a call drops a registration. -/
def Call.drops : Call → Bool
  | .remove _ => true
  | _ => false

namespace Binding

/-! ### Whoever answers -/

section AnyAnswers

variable {b : Binding} {name : String} {calls : List Call} {result : Except RpcError Unit}

/-- The order of the calls of a removal, and how its result hangs on their answers. -/
structure Orderly (calls : List Call) (result : Except RpcError Unit) : Prop where
  /-- The registration is dropped once at most. -/
  once : calls.countP Call.drops ≤ 1
  /-- It is dropped only after the process was reported in a state of rest, or after a stop that
  was acknowledged, not needed, or for a process that does not exist. -/
  rests : ∀ before reply after, calls = before ++ .remove reply :: after →
    (∃ i, .info (.ok i) ∈ before ∧ (Lifecycle.ofReport i.state i.start).isTerminal = true) ∨
      ∃ stop, .stop stop ∈ before ∧ settles stop = true
  /-- The removal succeeds exactly if the process was not known in the first place, or its
  registration was dropped or is gone. -/
  ok_iff : result = .ok () ↔
    (∃ e, .info (.error e) ∈ calls ∧ e.isBadName = true) ∨
      ∃ reply, .remove reply ∈ calls ∧ (reply = .ok () ∨ ∃ e, reply = .error e ∧ e.isBadName = true)
  /-- It fails exactly as the stop or the dropping did. -/
  error_iff : ∀ e, result = .error e ↔
    (.stop (.error e) ∈ calls ∧ settles (.error e) = false) ∨
      (.remove (.error e) ∈ calls ∧ e.isBadName = false)

theorem dropped_ok_iff {reply : Except RpcError Unit} :
    dropped reply = .ok () ↔ reply = .ok () ∨ ∃ e, reply = .error e ∧ e.isBadName = true := by
  cases reply with
  | ok u => simp [dropped]
  | error e => by_cases known : e.isBadName <;> simp [dropped, known]

/-- A failed drop that counts as done was about a process that does not exist. -/
theorem isBadName_of_dropped {e : RpcError} (done : dropped (.error e) = .ok ()) :
    e.isBadName = true := by
  by_contra known
  simp [dropped, known] at done

theorem dropped_error_iff {reply : Except RpcError Unit} {e : RpcError} :
    dropped reply = .error e ↔ reply = .error e ∧ e.isBadName = false := by
  cases reply with
  | ok u => simp [dropped]
  | error e' =>
      by_cases known : e'.isBadName
      · simp only [dropped, known, if_true, reduceCtorEq, Except.error.injEq, false_iff, not_and]
        rintro rfl
        simp [known]
      · simp only [dropped, known, Bool.false_eq_true, if_false, Except.error.injEq]
        exact ⟨fun same => ⟨same, by simpa [← same] using known⟩, And.left⟩

/-- A registration that is dropped in the end was not dropped before. -/
theorem eq_of_drop (first : List Call) {before after : List Call} {given reply : Except RpcError Unit}
    (unremoved : ∀ reply, .remove reply ∉ first)
    (split : first ++ [.remove given] = before ++ .remove reply :: after) : before = first := by
  obtain ⟨rfl, -, -⟩ :=
    (List.append_cons_inj_of_notMem (unremoved _) (List.not_mem_nil)).mp split
  rfl

/-- What may run was not reported as unknown. -/
theorem mayRun_known {answer : Except RpcError ProcessInfo} (runs : mayRun answer = true) :
    ∀ e, answer = .error e → e.isBadName = false := by
  rintro e rfl
  simpa [mayRun] using runs

/-- In whatever way a removal goes, it is orderly. -/
theorem Removal.orderly (removal : Removal calls result) : Orderly calls result := by
  cases removal with
  | @absent e unknown =>
      constructor
      case once => simp [Call.drops]
      case rests =>
        intro before reply after split
        have member : .remove reply ∈ [Call.info (.error e)] := by rw [split]; simp
        simp at member
      case ok_iff => simp [unknown]
      case error_iff => simp
  | @resting i reply rests =>
      constructor
      case once => simp [Call.drops]
      case rests =>
        intro before reply' after split
        rw [eq_of_drop [.info (.ok i)] (by simp) split]
        exact .inl ⟨i, .head _, rests⟩
      case ok_iff =>
        rw [dropped_ok_iff]
        simp
      case error_iff =>
        intro e
        rw [dropped_error_iff]
        simp only [List.mem_cons, Call.remove.injEq, reduceCtorEq, List.not_mem_nil, or_false,
          false_and, false_or, eq_comm]
  | @kept answer e runs fails =>
      constructor
      case once => simp [Call.drops]
      case rests =>
        intro before reply after split
        have member : .remove reply ∈ [Call.info answer, .stop (.error e)] := by rw [split]; simp
        simp at member
      case ok_iff =>
        simp only [reduceCtorEq, List.mem_cons, Call.info.injEq, List.not_mem_nil, or_false,
          false_and, exists_false, false_iff, not_exists, not_and, Bool.not_eq_true]
        intro e' same
        exact mayRun_known runs e' same.symm
      case error_iff =>
        intro e'
        simp only [Except.error.injEq, List.mem_cons, Call.stop.injEq, reduceCtorEq,
          List.not_mem_nil, or_false, false_or, false_and]
        constructor
        · rintro rfl
          exact ⟨rfl, fails⟩
        · exact fun ⟨same, _⟩ => same.symm
  | @stopped answer stop reply runs stops =>
      constructor
      case once => simp [Call.drops]
      case rests =>
        intro before reply' after split
        rw [eq_of_drop [.info answer, .stop stop] (by simp) split]
        exact .inr ⟨stop, by simp, stops⟩
      case ok_iff =>
        rw [dropped_ok_iff]
        simp only [List.mem_cons, Call.info.injEq, reduceCtorEq, List.not_mem_nil, or_false,
          Call.remove.injEq, false_or, exists_eq_left, iff_or_self]
        rintro ⟨e, same, unknown⟩
        exact nomatch unknown.symm.trans (mayRun_known runs e same.symm)
      case error_iff =>
        intro e
        rw [dropped_error_iff]
        simp only [List.mem_cons, Call.stop.injEq, reduceCtorEq, List.not_mem_nil, or_false,
          Call.remove.injEq, false_or, eq_comm (a := reply), iff_or_self]
        rintro ⟨rfl, fails⟩
        exact nomatch fails.symm.trans stops

end AnyAnswers

end Binding

/-! ### A supervisor in memory -/

namespace Simulation

open Binding (Removal dropped settles)

variable {b : Binding} {name id : String} {calls : List Call} {result : Except RpcError Unit}
  {h h' : Host}

/-- A registration that was dropped is gone. -/
theorem drop_gone {group : String} {reply : Except RpcError Unit} {after : Table Process}
    (done : dropped reply = .ok ()) (answers : h.Answers (.remove group name) reply after) :
    after.get? (qualified group name) = none := by
  cases answers with
  | removed found rests => simp
  | @refused _ e why =>
      have bad := Binding.isBadName_of_dropped done
      cases why with
      | injected fails => exact nomatch bad.symm.trans (Host.injected?_kind fails).1
      | absent about unknown =>
          cases about
          exact unknown
      | stillRunning found active => cases bad

/-- After a removal that succeeds there is no registration. -/
theorem Served.gone (removal : Removal calls result) (served : Served b name calls h h')
    (done : result = .ok ()) : h'.processes.get? (b.identifier name) = none := by
  cases removal with
  | absent unknown =>
      obtain ⟨_, asked, rfl⟩ := served
      exact info_absent unknown (asked.answers rfl)
  | resting rests =>
      obtain ⟨mid, asked, _, gone, rfl⟩ := served
      exact drop_gone done (gone.answers rfl)
  | kept runs fails => cases done
  | stopped runs stops =>
      obtain ⟨mid, asked, next, stopped, _, gone, rfl⟩ := served
      exact drop_gone done (gone.answers rfl)

/-- When the drop fails, what comes before it only looks at the process and stops it. -/
theorem Served.still_of_drop (first : List Call) {reply : Except RpcError Unit} {e : RpcError}
    (quiet : ∀ c ∈ first, c.isQuiet = true) (failed : dropped reply = .error e)
    (served : Served b name (first ++ [.remove reply]) h h') (id : String) :
    (h'.processes.get? id).map Process.still = (h.processes.get? id).map Process.still := by
  obtain ⟨mid, before, _, drop, rfl⟩ := served_append_iff.mp served
  obtain ⟨rfl, -⟩ := Binding.dropped_error_iff.mp failed
  rw [(drop.answers rfl).of_error]
  exact before.still quiet id

/-- A removal that fails leaves the process with all it has but its state. -/
theorem Served.still_of_failed {e : RpcError} (removal : Removal calls result)
    (served : Served b name calls h h') (failed : result = .error e) (id : String) :
    (h'.processes.get? id).map Process.still = (h.processes.get? id).map Process.still := by
  cases removal with
  | absent unknown => cases failed
  | @resting i reply rests =>
      exact Served.still_of_drop [.info (.ok i)] (by simp [Call.isQuiet]) failed served
        id
  | kept runs fails => exact served.still (by simp [Call.isQuiet]) id
  | @stopped answer stop reply runs stops =>
      exact Served.still_of_drop [.info answer, .stop stop] (by simp [Call.isQuiet])
        failed served id

/-- The refusal to drop the registration of a process that is active. -/
def stillRunning (process : String) : RpcError :=
  .fault .rejected ("STILL_RUNNING: " ++ process)

/-- No failure that is injected looks like that refusal. -/
theorem injected?_ne_stillRunning (m : Method) (process : String) :
    h.injected? m ≠ some (stillRunning process) := by
  unfold Host.injected? stillRunning
  split
  · exact nofun
  · split
    · intro same
      have texts : m.name ++ " failed" = "STILL_RUNNING: " ++ process := by simpa using same
      have chars := congrArg (fun s => s.toList.head?) texts
      cases m <;> simp [Method.name] at chars
    · exact nofun

/-- The registration of a process that is not active is never refused to be dropped as if it
were. -/
theorem drop_ne_stillRunning {group : String} {reply : Except RpcError Unit}
    {after : Table Process} (quiet : Quiet h.processes (qualified group name))
    (answers : h.Answers (.remove group name) reply after) :
    reply ≠ .error (stillRunning (qualified group name)) := by
  cases answers with
  | removed found rests => exact nofun
  | @refused _ e why =>
      cases why with
      | injected fails =>
          rintro ⟨⟩
          exact injected?_ne_stillRunning _ _ fails
      | absent about unknown => exact nofun
      | stillRunning found active => exact nomatch active.symm.trans (quiet _ found)

/-- A removal never asks for an active process to be dropped. -/
theorem Served.ne_stillRunning (removal : Removal calls result)
    (served : Served b name calls h h') {reply : Except RpcError Unit}
    (member : .remove reply ∈ calls) : reply ≠ .error (stillRunning (b.identifier name)) := by
  cases removal with
  | absent unknown => simp at member
  | kept runs fails => simp at member
  | resting rests =>
      obtain rfl : reply = _ := by simpa using member
      obtain ⟨mid, asked, _, drop, rfl⟩ := served
      exact drop_ne_stillRunning (info_quiet rests (asked.answers rfl)) (drop.answers rfl)
  | stopped runs stops =>
      obtain rfl : reply = _ := by simpa using member
      obtain ⟨mid, asked, next, stopped, _, drop, rfl⟩ := served
      exact drop_ne_stillRunning (stop_quiet stops (stopped.answers rfl)) (drop.answers rfl)

/-! ### Removing again -/

/-- Where a removal succeeds, questions for the process are not made to fail, or else neither
stops nor drops are. -/
theorem Served.sound (removal : Removal calls result) (served : Served b name calls h h')
    (done : result = .ok ()) :
    h.injected? .info = none ∨ h.injected? .stop = none ∧ h.injected? .remove = none := by
  cases removal with
  | absent unknown =>
      obtain ⟨_, asked, rfl⟩ := served
      refine .inl (Host.injected?_of_answer (asked.answered _ _ rfl) ?_)
      rintro _ ⟨⟩
      exact .inl unknown
  | resting rests =>
      obtain ⟨_, asked, _⟩ := served
      exact .inl (Host.injected?_of_ok (asked.answered _ _ rfl))
  | kept runs fails => cases done
  | stopped runs stops =>
      obtain ⟨mid, asked, next, stopped, _, drop, rfl⟩ := served
      have first := asked.setup
      have second := stopped.setup.trans first
      rw [← Host.injected?_of_setup first .stop, ← Host.injected?_of_setup second .remove]
      refine .inr ⟨Host.injected?_of_answer (stopped.answered _ _ rfl) ?_,
        Host.injected?_of_answer (drop.answered _ _ rfl) ?_⟩
      · rintro e ⟨⟩
        simpa [settles, or_comm] using stops
      · rintro e ⟨⟩
        exact .inl (Binding.isBadName_of_dropped done)

/-- A removal of what is not there succeeds and changes nothing, unless questions for the
process are made to fail and so are stops or drops. -/
theorem Served.removed_absent (removal : Removal calls result) (served : Served b name calls h h')
    (unknown : h.processes.get? (b.identifier name) = none)
    (sound : h.injected? .info = none ∨ h.injected? .stop = none ∧ h.injected? .remove = none) :
    result = .ok () ∧ h' = h := by
  have refused {c : Call} {o : Order} {reply : Except RpcError o.Reply} {mid : Host}
      (step : Step b name c h mid) (order : order? b name c = some ⟨o, reply⟩)
      (about : process? o = some (b.identifier name))
      (unadded : ∀ group name settings, o ≠ .add group name settings)
      (unstarted : ∀ wait, o ≠ .start (b.identifier name) wait) :
      mid = h ∧ ∃ e, reply = .error e ∧
        (h.injected? (.ofOrder o) = none → e = Host.badName (b.identifier name)) := by
    obtain ⟨e, answer, bad⟩ := Host.answer_of_absent unknown about unadded unstarted
    rw [step.answered o reply order] at answer
    cases answer
    exact ⟨rfl, e, rfl, bad⟩
  have asks {e : RpcError} (runs : Binding.mayRun (.error e) = true)
      (known : h.injected? .info = none → e = Host.badName (b.identifier name)) :
      h.injected? .stop = none ∧ h.injected? .remove = none := by
    refine sound.resolve_left fun free => ?_
    rw [known free] at runs
    cases runs
  cases removal with
  | absent _ =>
      obtain ⟨_, asked, rfl⟩ := served
      exact ⟨rfl, (refused asked rfl rfl nofun nofun).1⟩
  | resting rests =>
      obtain ⟨_, asked, _⟩ := served
      obtain ⟨-, e, same, -⟩ := refused asked rfl rfl nofun nofun
      cases same
  | kept runs fails =>
      obtain ⟨_, asked, _, stopped, rfl⟩ := served
      obtain ⟨rfl, e, rfl, known⟩ := refused asked rfl rfl nofun nofun
      obtain ⟨rfl, e', ⟨⟩, settled⟩ := refused stopped rfl rfl nofun nofun
      rw [settled (asks runs known).1] at fails
      cases fails
  | stopped runs stops =>
      obtain ⟨_, asked, _, stopped, _, drop, rfl⟩ := served
      obtain ⟨rfl, e, rfl, known⟩ := refused asked rfl rfl nofun nofun
      obtain ⟨rfl, -⟩ := refused stopped rfl rfl nofun nofun
      obtain ⟨rfl, e', rfl, gone⟩ := refused drop rfl rfl nofun nofun
      rw [gone (asks runs known).2]
      exact ⟨rfl, rfl⟩

/-! ### Removals in a world -/

/-- The calls of a removal that are answered by the supervisor in a world. -/
theorem remove_served {w : World} (b : Binding) (name : String) (plain : w.Unprepared b.host) :
    ∃ calls, Removal calls (w.play (b.remove name)).1 ∧
      Served b name calls (w.hosts b.host) ((w.play (b.remove name)).2.hosts b.host) ∧
      (∀ other, other ≠ b.host → (w.play (b.remove name)).2.hosts other = w.hosts other) ∧
      (b.remove name).trace World.answer w = calls.map (Call.event b name) := by
  obtain ⟨calls, trace, removal⟩ :=
    Binding.removal_of_course (Plan.play_course World.answer (b.remove name) w)
  have answered := Plan.play_answered World.answer (b.remove name) w
  rw [trace] at answered
  obtain ⟨served, elsewhere⟩ := served_of_answered plain answered
  exact ⟨calls, removal, served, elsewhere, trace⟩

/-- What a removal leaves in a world. -/
structure Unorphaned (b : Binding) (name : String) (w : World) : Prop where
  /-- After a success there is no registration. -/
  gone : (w.play (b.remove name)).1 = .ok () →
    ((w.play (b.remove name)).2.hosts b.host).processes.get? (b.identifier name) = none
  /-- The removal that follows it succeeds too and changes nothing. -/
  again : (w.play (b.remove name)).1 = .ok () →
    ((w.play (b.remove name)).2.play (b.remove name)).1 = .ok () ∧
      ∀ host, ((w.play (b.remove name)).2.play (b.remove name)).2.hosts host =
        (w.play (b.remove name)).2.hosts host
  /-- After a failure a process that was there still is, with all it has but its state and the
  questions after which it rests: the same program and the same logs. -/
  kept : ∀ e, (w.play (b.remove name)).1 = .error e → ∀ p,
    (w.hosts b.host).processes.get? (b.identifier name) = some p → ∃ state pollsLeft,
      ((w.play (b.remove name)).2.hosts b.host).processes.get? (b.identifier name) =
        some { p with state := state, pollsLeft := pollsLeft }
  /-- In any case every other process there is the same. -/
  others : ∀ id, id ≠ b.identifier name →
    ((w.play (b.remove name)).2.hosts b.host).processes.get? id = (w.hosts b.host).processes.get? id
  /-- No other host is touched. -/
  elsewhere : ∀ host, host ≠ b.host → (w.play (b.remove name)).2.hosts host = w.hosts host
  /-- No drop is refused because the process is active. -/
  resting : ∀ reply, Call.event b name (.remove reply) ∈ (b.remove name).trace World.answer w →
    reply ≠ .error (stillRunning (b.identifier name))

/-- Which call a drop is. -/
theorem eq_of_event_remove {c : Call} {reply : Except RpcError Unit}
    (same : c.event b name = Call.event b name (.remove reply)) : c = .remove reply := by
  cases c with
  | remove reply' =>
      cases same
      rfl
  | _ => cases same

theorem unorphaned {w : World} (b : Binding) (name : String) (plain : w.Unprepared b.host) :
    Unorphaned b name w := by
  obtain ⟨calls, removal, served, elsewhere, trace⟩ := remove_served b name plain
  constructor
  case gone => exact served.gone removal
  case again =>
    intro done
    obtain ⟨calls', removal', served', elsewhere', -⟩ :=
      remove_served b name (plain.play (b.remove name))
    have sound := served.sound removal done
    rw [← Host.injected?_of_setup served.setup .info, ← Host.injected?_of_setup served.setup .stop,
      ← Host.injected?_of_setup served.setup .remove] at sound
    obtain ⟨result, same⟩ := served'.removed_absent removal' (served.gone removal done) sound
    refine ⟨result, fun host => ?_⟩
    by_cases here : host = b.host
    · rw [here, same]
    · exact elsewhere' host here
  case kept =>
    intro e failed p found
    have same := served.still_of_failed removal failed (b.identifier name)
    rw [found, Option.map_some] at same
    obtain ⟨q, there, still⟩ := Option.map_eq_some_iff.mp same
    exact ⟨q.state, q.pollsLeft, there.trans (congrArg some (Process.eq_of_still still))⟩
  case others => exact fun id other => served.frame other
  case elsewhere => exact elsewhere
  case resting =>
    intro reply member
    rw [trace] at member
    obtain ⟨c, member, same⟩ := List.mem_map.mp member
    obtain rfl := eq_of_event_remove same
    exact served.ne_stillRunning removal member

/-- Whoever answers, a removal is orderly; and whatever the supervisor of a host holds and
whatever is made to fail there, a removal leaves no process without its registration that may
run, and can be done again once it has succeeded. -/
theorem remove_unorphaned :
    (∀ (σ : Type) (answer : Answerer σ) (b : Binding) (name : String) (s : σ), ∃ calls,
      (b.remove name).trace answer s = calls.map (Call.event b name) ∧
        Binding.Orderly calls ((b.remove name).run answer s).1) ∧
    ∀ (w : World) (b : Binding) (name : String), w.Unprepared b.host → Unorphaned b name w := by
  constructor
  · intro σ answer b name s
    obtain ⟨calls, trace, removal⟩ :=
      Binding.removal_of_course (Plan.play_course answer (b.remove name) s)
    exact ⟨calls, trace, removal.orderly⟩
  · intro w b name plain
    exact unorphaned b name plain

/-- A running process on a host where stops fail keeps its registration. -/
theorem remove_unorphaned_running :
    let w := (World.fresh "20260101120000").onHost "np04" fun h =>
      { h.insertRunning "daq" "trigger" "bin/daqling" with failing := [.stop] }
    w.Unprepared "np04" ∧ (w.play (Binding.remove ⟨"np04", "daq"⟩ "trigger")).1 =
        .error (.fault .rejected "stop failed") ∧
      Unorphaned ⟨"np04", "daq"⟩ "trigger" w := by
  intro w
  have plain : w.Unprepared "np04" := fun _ => rfl
  exact ⟨plain, by decide +kernel, remove_unorphaned.2 w ⟨"np04", "daq"⟩ "trigger" plain⟩

end Simulation

end RunControl
