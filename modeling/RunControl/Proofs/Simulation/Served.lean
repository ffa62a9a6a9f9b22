import RunControl.Proofs.Rpc.Locality
import RunControl.Proofs.Simulation.Host
import RunControl.Proofs.Supervisor.Call
import RunControl.Simulation.World

/-!
Calls that a supervisor in memory answers.

`Served` says that a supervisor answers calls about one process one after another, and
what becomes of it. In a world without prepared answers for a host that is what happens to
the calls of a plan that is about this host (`served_of_answered`). A removal that is not made
to fail succeeds and leaves no registration (`Served.succeeds`).
-/

namespace RunControl.Simulation

variable {b : Binding} {name id : String} {c : Call} {calls first second : List Call}
  {h mid h' : Host}

/-! ### Single calls -/

/-- The order that a call is, with its reply; a pause is none. -/
def order? (b : Binding) (name : String) : Call → Option ((o : Order) × Except RpcError o.Reply)
  | .list reply => some ⟨.list, reply⟩
  | .add settings reply => some ⟨.add b.group name settings, reply⟩
  | .remove reply => some ⟨.remove b.group name, reply⟩
  | .start reply => some ⟨.start (b.identifier name) true, reply⟩
  | .stop reply => some ⟨.stop (b.identifier name) true, reply⟩
  | .info reply => some ⟨.info (b.identifier name), reply⟩
  | .read log reply => some ⟨.read (b.identifier name) log, reply⟩
  | .clear reply => some ⟨.clear (b.identifier name), reply⟩
  | .pause _ => none

/-- The supervisor answers the call so, and is `mid` afterwards. -/
structure Step (b : Binding) (name : String) (c : Call) (h mid : Host) : Prop where
  answered : ∀ o reply, order? b name c = some ⟨o, reply⟩ → h.answer o = (reply, mid)
  paused : order? b name c = none → mid = h

/-- An order is answered in one of the ways there are. -/
theorem Step.answers {o : Order} {reply : Except RpcError o.Reply} (step : Step b name c h mid)
    (order : order? b name c = some ⟨o, reply⟩) : h.Answers o reply mid.processes := by
  have answers := Host.answer_answers o h
  rw [step.answered o reply order] at answers
  exact answers

/-- A call is about the process or about none. -/
theorem about_of_order? {o : Order} {reply : Except RpcError o.Reply}
    (same : order? b name c = some ⟨o, reply⟩) :
    process? o = none ∨ process? o = some (b.identifier name) := by
  cases c with
  | list reply =>
      cases same
      exact .inl rfl
  | pause milliseconds => cases same
  | _ =>
      cases same
      exact .inr rfl

theorem Step.setup (step : Step b name c h mid) : mid.setup = h.setup := by
  cases order : order? b name c with
  | none => rw [step.paused order]
  | some asked =>
      have same := Host.answer_setup asked.1 h
      rw [step.answered asked.1 asked.2 order] at same
      exact same

theorem Step.frame (step : Step b name c h mid) (other : id ≠ b.identifier name) :
    mid.processes.get? id = h.processes.get? id := by
  cases order : order? b name c with
  | none => rw [step.paused order]
  | some asked =>
      rcases about_of_order? order with about | about
      · exact (step.answers order).frame (by simp [about])
      · exact (step.answers order).frame (by simpa [about] using other.symm)

theorem Step.still (step : Step b name c h mid) (quiet : c.isQuiet = true) :
    (mid.processes.get? id).map Process.still = (h.processes.get? id).map Process.still := by
  cases c with
  | pause milliseconds => rw [step.paused rfl]
  | list reply => exact (step.answers rfl).still rfl
  | stop reply => exact (step.answers rfl).still rfl
  | info reply => exact (step.answers rfl).still rfl
  | read log reply => exact (step.answers rfl).still rfl
  | _ => cases quiet

/-- What is not there is not there after a call that registers nothing. -/
theorem Step.absent (step : Step b name c h mid)
    (unadded : ∀ settings, c ≠ .add settings (.ok ())) (free : h.processes.get? id = none) :
    mid.processes.get? id = none := by
  cases c with
  | pause milliseconds =>
      rw [step.paused rfl]
      exact free
  | add settings reply =>
      refine (step.answers rfl).absent (fun _ _ _ _ => ?_) free
      cases reply with
      | ok u => exact absurd rfl (unadded settings)
      | error e => exact ⟨e, rfl⟩
  | list reply => exact (step.answers rfl).absent nofun free
  | remove reply => exact (step.answers rfl).absent nofun free
  | start reply => exact (step.answers rfl).absent nofun free
  | stop reply => exact (step.answers rfl).absent nofun free
  | info reply => exact (step.answers rfl).absent nofun free
  | read log reply => exact (step.answers rfl).absent nofun free
  | clear reply => exact (step.answers rfl).absent nofun free

theorem Step.keyed (step : Step b name c h mid) (keyed : Keyed h.processes) :
    Keyed mid.processes := by
  cases order : order? b name c with
  | none => exact step.paused order ▸ keyed
  | some asked => exact (step.answers order).keyed keyed

/-! ### Rows of calls -/

/-- The supervisor answers the calls so one after another, and is `h'` afterwards. -/
def Served (b : Binding) (name : String) : List Call → Host → Host → Prop
  | [], h, h' => h' = h
  | c :: calls, h, h' => ∃ mid, Step b name c h mid ∧ Served b name calls mid h'

theorem served_append_iff : Served b name (first ++ second) h h' ↔
    ∃ mid, Served b name first h mid ∧ Served b name second mid h' := by
  induction first generalizing h with
  | nil => simp [Served]
  | cons c first ih =>
      constructor
      · rintro ⟨next, step, rest⟩
        obtain ⟨mid, before, after⟩ := ih.mp rest
        exact ⟨mid, ⟨next, step, before⟩, after⟩
      · rintro ⟨mid, ⟨next, step, before⟩, after⟩
        exact ⟨next, step, ih.mpr ⟨mid, before, after⟩⟩

theorem Served.setup (served : Served b name calls h h') : h'.setup = h.setup := by
  induction calls generalizing h with
  | nil => rw [served]
  | cons c calls ih =>
      obtain ⟨mid, step, rest⟩ := served
      exact (ih rest).trans step.setup

/-- Calls about a process leave the others as they are. -/
theorem Served.frame (served : Served b name calls h h') (other : id ≠ b.identifier name) :
    h'.processes.get? id = h.processes.get? id := by
  induction calls generalizing h with
  | nil => rw [served]
  | cons c calls ih =>
      obtain ⟨mid, step, rest⟩ := served
      exact (ih rest).trans (step.frame other)

/-- Looking at a process and stopping it changes nothing but its state. -/
theorem Served.still (served : Served b name calls h h')
    (quiet : ∀ c ∈ calls, c.isQuiet = true) (id : String) :
    (h'.processes.get? id).map Process.still = (h.processes.get? id).map Process.still := by
  induction calls generalizing h with
  | nil => rw [show h' = h from served]
  | cons c calls ih =>
      obtain ⟨mid, step, rest⟩ := served
      exact (ih rest fun d member => quiet d (.tail _ member)).trans
        (step.still (quiet c (.head _)))

/-- What is not there is not there after calls that register nothing. -/
theorem Served.absent (served : Served b name calls h h')
    (unadded : ∀ settings, .add settings (.ok ()) ∉ calls) (free : h.processes.get? id = none) :
    h'.processes.get? id = none := by
  induction calls generalizing h with
  | nil =>
      obtain rfl : h' = h := served
      exact free
  | cons call calls ih =>
      obtain ⟨mid, step, rest⟩ := served
      refine ih rest (fun settings member => unadded settings (.tail _ member)) ?_
      exact step.absent (fun settings same => unadded settings (same ▸ .head _)) free

/-! ### Whose process it is -/

/-- Whether a process is the one of this name in the group. -/
def owns (b : Binding) (name : String) (p : Process) : Bool :=
  p.group = b.group && p.name = name

/-- Whether a table has the process of this name in the group. -/
def registers (b : Binding) (name : String) (processes : Table Process) : Bool :=
  processes.values.any (owns b name)

/-- What has the identifier of a process is this process: no other group and name make the
same identifier. -/
def Owned (b : Binding) (name : String) (processes : Table Process) : Prop :=
  ∀ p, processes.get? (b.identifier name) = some p → owns b name p = true

theorem registers_iff {processes : Table Process} : registers b name processes = true ↔
    ∃ id p, processes.get? id = some p ∧ owns b name p = true := by
  simp only [registers, Table.values, List.any_map, List.any_eq_true, Function.comp_apply,
    Table.get?_eq_some_iff, Prod.exists]

/-- A table with one process has no other. -/
theorem registers_single {p : Process} :
    registers b name ((.empty : Table Process).insert id p) = owns b name p := by
  rw [Bool.eq_iff_iff, registers_iff]
  constructor
  · rintro ⟨id', q, found, own⟩
    rw [Table.get?_insert] at found
    split at found
    · cases found
      exact own
    · cases found
  · exact fun own => ⟨id, p, by rw [Table.get?_insert, if_pos rfl], own⟩

/-- Calls leave a table keyed. -/
theorem Served.keyed (served : Served b name calls h h') (keyed : Keyed h.processes) :
    Keyed h'.processes := by
  induction calls generalizing h with
  | nil =>
      obtain rfl : h' = h := served
      exact keyed
  | cons c calls ih =>
      obtain ⟨mid, step, rest⟩ := served
      exact ih rest (step.keyed keyed)

/-- In a keyed table the process has its identifier. -/
theorem Keyed.at_identifier {processes : Table Process} (keyed : Keyed processes) {p : Process}
    (found : processes.get? id = some p) (own : owns b name p = true) :
    id = b.identifier name := by
  obtain ⟨group, same⟩ : p.group = b.group ∧ p.name = name := by simpa [owns] using own
  rw [keyed id p found, group, same]
  rfl

/-- In a keyed table that has the process no other has its identifier. -/
theorem Keyed.owned {processes : Table Process} (keyed : Keyed processes)
    (there : registers b name processes = true) : Owned b name processes := by
  obtain ⟨id, p, found, own⟩ := registers_iff.mp there
  intro q same
  rw [← keyed.at_identifier found own, found] at same
  cases same
  exact own

/-- A listing shows the process exactly if it does not fail and the process is there. -/
theorem Step.listed {listing : Except RpcError (List ProcessInfo)}
    (step : Step b name (.list listing) h mid) : mid.processes = h.processes ∧
      (b.lists name listing = true ↔
        h.injected? .list = none ∧ registers b name h.processes = true) := by
  obtain ⟨same, rfl | ⟨e, rfl, fails⟩⟩ := (step.answers rfl).of_list
  · have sound : h.injected? .list = none := Host.injected?_of_ok (step.answered _ _ rfl)
    have shown : b.lists name (.ok (h.processes.values.map Process.report)) =
        registers b name h.processes := by
      simp only [Binding.lists, registers, List.any_map]
      rfl
    rw [shown, and_iff_right sound]
    exact ⟨same, Iff.rfl⟩
  · refine ⟨same, nofun, fun ⟨sound, _⟩ => ?_⟩
    exact nomatch sound.symm.trans fails

theorem owns_of_program {p q : Process} (same : p.program = q.program) :
    owns b name p = owns b name q := by
  obtain ⟨group, called, -⟩ : p.group = q.group ∧ p.name = q.name ∧ p.settings = q.settings := by
    simpa [Process.program] using same
  rw [owns, owns, group, called]

theorem Owned.of_program {before after : Table Process} (owned : Owned b name before)
    (same : (after.get? (b.identifier name)).map Process.program =
      (before.get? (b.identifier name)).map Process.program) : Owned b name after := by
  intro p found
  rw [found, Option.map_some] at same
  obtain ⟨q, foundThen, program⟩ := Option.map_eq_some_iff.mp same.symm
  rw [owns_of_program program.symm]
  exact owned q foundThen

theorem Owned.of_add {settings : Table String} {reply : Except RpcError Unit}
    {after : Table Process} (owned : Owned b name h.processes)
    (answers : h.Answers (.add b.group name settings) reply after) : Owned b name after := by
  cases answers with
  | refused _ => exact owned
  | added _ =>
      intro p found
      rw [Binding.identifier, Table.get?_insert, if_pos rfl] at found
      cases found
      simp [owns, Process.added]

theorem Owned.of_remove {reply : Except RpcError Unit} {after : Table Process}
    (owned : Owned b name h.processes)
    (answers : h.Answers (.remove b.group name) reply after) : Owned b name after := by
  cases answers with
  | refused _ => exact owned
  | removed _ _ =>
      intro p found
      rw [Binding.identifier, Table.get?_erase, if_pos rfl] at found
      cases found

theorem Step.owned (step : Step b name c h mid) (owned : Owned b name h.processes) :
    Owned b name mid.processes := by
  cases c with
  | add settings reply => exact owned.of_add (step.answers rfl)
  | remove reply => exact owned.of_remove (step.answers rfl)
  | pause milliseconds =>
      rw [step.paused rfl]
      exact owned
  | list reply => exact owned.of_program ((step.answers rfl).program nofun nofun)
  | start reply => exact owned.of_program ((step.answers rfl).program nofun nofun)
  | stop reply => exact owned.of_program ((step.answers rfl).program nofun nofun)
  | info reply => exact owned.of_program ((step.answers rfl).program nofun nofun)
  | read log reply => exact owned.of_program ((step.answers rfl).program nofun nofun)
  | clear reply => exact owned.of_program ((step.answers rfl).program nofun nofun)

/-- Calls about a process give its identifier to no other. -/
theorem Served.owned (served : Served b name calls h h') (owned : Owned b name h.processes) :
    Owned b name h'.processes := by
  induction calls generalizing h with
  | nil =>
      obtain rfl : h' = h := served
      exact owned
  | cons c calls ih =>
      obtain ⟨mid, step, rest⟩ := served
      exact ih rest (step.owned owned)

/-! ### Removals -/

/-- A process that rests by its record is not active. -/
theorem isActive_of_isTerminal {p : Process}
    (rests : (Lifecycle.ofReport p.state p.start).isTerminal = true) : p.isActive = false := by
  have code : p.state = StateCode.stopped ∨ p.state = StateCode.exited ∨
      p.state = StateCode.fatal := by
    unfold Lifecycle.ofReport at rests
    split at rests
    · rename_i fresh
      exact .inl fresh.1
    · split at rests
      · assumption
      · repeat' split at rests
        all_goals cases rests
  unfold Process.isActive
  rcases code with same | same | same <;> rw [same] <;> decide

/-- No process has the identifier and is active. -/
def Quiet (processes : Table Process) (id : String) : Prop :=
  ∀ p, processes.get? id = some p → p.isActive = false

/-- A stop that is not made to fail is acknowledged or not needed. -/
theorem stop_settles {wait : Bool} {reply : Except RpcError Unit} {after : Table Process}
    (sound : h.injected? .stop = none) (answers : h.Answers (.stop id wait) reply after) :
    Binding.settles reply = true := by
  cases answers with
  | refused why =>
      cases why with
      | injected fails => exact nomatch sound.symm.trans fails
      | absent about unknown => rfl
      | notRunning found rests => rfl
  | stopped found active => rfl

/-- After a stop that is acknowledged or not needed the process is not active. -/
theorem stop_quiet {wait : Bool} {reply : Except RpcError Unit} {after : Table Process}
    (settled : Binding.settles reply = true) (answers : h.Answers (.stop id wait) reply after) :
    Quiet after id := by
  intro p same
  cases answers with
  | refused why =>
      cases why with
      | injected fails =>
          obtain ⟨known, runs⟩ := Host.injected?_kind fails
          simp [Binding.settles, known, runs] at settled
      | absent about unknown =>
          cases about
          exact nomatch unknown.symm.trans same
      | notRunning found rests =>
          rw [found] at same
          cases same
          exact rests
  | stopped found active =>
      rw [Table.get?_insert, if_pos rfl] at same
      cases same
      rfl

/-- Dropping a registration that is not made to fail succeeds, unless the process is active, and
leaves none. -/
theorem drop_succeeds {group : String} {reply : Except RpcError Unit} {after : Table Process}
    (sound : h.injected? .remove = none) (quiet : Quiet h.processes (qualified group name))
    (answers : h.Answers (.remove group name) reply after) :
    Binding.dropped reply = .ok () ∧ after.get? (qualified group name) = none := by
  cases answers with
  | refused why =>
      cases why with
      | injected fails => exact nomatch sound.symm.trans fails
      | absent about unknown =>
          cases about
          exact ⟨rfl, unknown⟩
      | stillRunning found active => exact nomatch active.symm.trans (quiet _ found)
  | removed found rests => exact ⟨rfl, by simp⟩

/-- A process that is reported at rest is not active. -/
theorem info_quiet {i : ProcessInfo} {after : Table Process}
    (rests : (Lifecycle.ofReport i.state i.start).isTerminal = true)
    (answers : h.Answers (.info id) (.ok i) after) : Quiet after id := by
  cases answers with
  | @polled _ p found =>
      intro q same
      rw [Table.get?_insert, if_pos rfl] at same
      cases same
      exact isActive_of_isTerminal rests

/-- Only a question for a process that does not exist is answered by a bad name. -/
theorem info_absent {e : RpcError} {after : Table Process} (bad : e.isBadName = true)
    (answers : h.Answers (.info id) (.error e) after) : after.get? id = none := by
  cases answers with
  | refused why =>
      cases why with
      | injected fails => exact nomatch bad.symm.trans (Host.injected?_kind fails).1
      | absent about unknown =>
          cases about
          exact unknown

/-- A removal in which neither the stop nor the removal itself is made to fail succeeds and leaves
no registration. -/
theorem Served.succeeds {result : Except RpcError Unit} (removal : Binding.Removal calls result)
    (stopSound : h.injected? .stop = none) (removeSound : h.injected? .remove = none)
    (served : Served b name calls h h') :
    result = .ok () ∧ h'.processes.get? (b.identifier name) = none := by
  have sound {mid : Host} (same : mid.setup = h.setup) :
      mid.injected? .stop = none ∧ mid.injected? .remove = none := by
    rw [Host.injected?_of_setup same, Host.injected?_of_setup same]
    exact ⟨stopSound, removeSound⟩
  cases removal with
  | absent unknown =>
      obtain ⟨_, asked, rfl⟩ := served
      exact ⟨rfl, info_absent unknown (asked.answers rfl)⟩
  | resting rests =>
      obtain ⟨mid, asked, _, gone, rfl⟩ := served
      have quiet := info_quiet rests (asked.answers rfl)
      exact drop_succeeds (sound asked.setup).2 quiet (gone.answers rfl)
  | kept runs fails =>
      obtain ⟨mid, asked, _, stopped, rfl⟩ := served
      have settled := stop_settles (sound asked.setup).1 (stopped.answers rfl)
      exact nomatch fails.symm.trans settled
  | stopped runs stops =>
      obtain ⟨mid, asked, next, stopped, _, gone, rfl⟩ := served
      have quiet := stop_quiet stops (stopped.answers rfl)
      have same := stopped.setup.trans asked.setup
      exact drop_succeeds (sound same).2 quiet (gone.answers rfl)

theorem Served.removed {result : Except RpcError Unit} (removal : Binding.Removal calls result)
    (stopSound : h.injected? .stop = none) (removeSound : h.injected? .remove = none)
    (served : Served b name calls h h') : h'.processes.get? (b.identifier name) = none :=
  (served.succeeds removal stopSound removeSound).2

/-! ### Worlds -/

/-- No answers are prepared for a host: its supervisor answers every order. -/
def World.Unprepared (w : World) (host : String) : Prop :=
  ∀ m, w.prepared host m = []

/-- An order that no answer is prepared for goes to the supervisor of its host. -/
theorem World.answerOrder_of_none {w : World} {host : String} {o : Order}
    (plain : w.prepared host (.ofOrder o) = []) :
    w.answerOrder host o = (((w.hosts host).answer o).1,
      (w.record (.order host o)).setHost host ((w.hosts host).answer o).2) := by
  have taken : (w.record (.order host o)).takePrepared host (.ofOrder o) =
      (.pass, w.record (.order host o)) := by
    unfold takePrepared
    rw [show (w.record (.order host o)).prepared host (.ofOrder o) = [] from plain]
  unfold answerOrder
  rw [taken]
  rfl

/-- Without prepared answers every order does. -/
theorem World.answerOrder_eq {w : World} {host : String} (plain : w.Unprepared host) (o : Order) :
    w.answerOrder host o = (((w.hosts host).answer o).1,
      (w.record (.order host o)).setHost host ((w.hosts host).answer o).2) :=
  answerOrder_of_none (plain _)

/-- What an order gives in a world without prepared answers for its host, and what becomes of
the supervisor there. -/
theorem World.play_order {w : World} (plain : w.Unprepared b.host) (o : Order) :
    (w.play (b.order o)).1 = ((w.hosts b.host).answer o).1 ∧
      (w.play (b.order o)).2.hosts b.host = ((w.hosts b.host).answer o).2 := by
  have given : w.play (b.order o) = _ := World.answerOrder_eq plain o
  rw [given]
  exact ⟨rfl, if_pos rfl⟩

/-- No request makes answers ready. -/
theorem World.Unprepared.answer {w : World} {host : String} (plain : w.Unprepared host)
    (r : Request) : (World.answer r w).2.Unprepared host := by
  have taken (other : String) (m : Method) (r : Request) :
      ((w.record r).takePrepared other m).2.Unprepared host := by
    unfold takePrepared
    split
    · exact plain
    · rename_i answer rest waiting
      intro n
      by_cases here : host = other ∧ n = m
      · have none : w.prepared other m = [] := here.1 ▸ plain m
        exact nomatch none.symm.trans waiting
      · simp [setPrepared, here, record, plain n]
  cases r with
  | order other o =>
      have taken := taken other (.ofOrder o) (.order other o)
      simp only [World.answer, answerOrder]
      split
      · exact taken
      · exact taken
  | command other port command args =>
      have taken := taken other .call (.command other port command args)
      simp only [World.answer, answerCommand]
      split
      · exact taken
      · split
        · exact taken
        · exact taken
  | now => exact plain
  | pause milliseconds => exact plain

theorem World.Unprepared.play {α : Type} {w : World} {host : String} (plain : w.Unprepared host)
    (p : Plan α) : (w.play p).2.Unprepared host :=
  p.only_any.keeps (World.Unprepared · host) (fun r _ _ plain => plain.answer r) plain

/-- A call as a request with its answer. -/
theorem event_eq (b : Binding) (name : String) (c : Call) :
    match order? b name c with
    | none => ∃ milliseconds, Call.event b name c = ⟨.pause milliseconds, ()⟩
    | some ⟨o, reply⟩ => Call.event b name c = ⟨.order b.host o, reply⟩ := by
  cases c with
  | pause milliseconds => exact ⟨milliseconds, rfl⟩
  | _ => rfl

/-- A call in a world without prepared answers for its host is a step of the supervisor there,
and nothing happens elsewhere. -/
theorem step_of_answer {w : World} (plain : w.Unprepared b.host)
    (same : (Call.event b name c).answer = (World.answer (Call.event b name c).request w).1) :
    let next := (World.answer (Call.event b name c).request w).2
    Step b name c (w.hosts b.host) (next.hosts b.host) ∧ next.Unprepared b.host ∧
      ∀ other, other ≠ b.host → next.hosts other = w.hosts other := by
  intro next
  have event := event_eq b name c
  cases order : order? b name c with
  | none =>
      rw [order] at event
      obtain ⟨milliseconds, event⟩ := event
      subst next
      rw [event]
      exact ⟨⟨fun o reply asked => (nomatch order.symm.trans asked), fun _ => rfl⟩, plain,
        fun _ _ => rfl⟩
  | some asked =>
      obtain ⟨o, reply⟩ := asked
      rw [order] at event
      subst next
      rw [event] at same ⊢
      have given : World.answer (.order b.host o) w = _ := World.answerOrder_eq plain o
      rw [given] at same ⊢
      obtain rfl : reply = ((w.hosts b.host).answer o).1 := same
      refine ⟨⟨fun o' reply' asked => ?_, fun none => (nomatch order.symm.trans none)⟩, plain,
        fun other elsewhere => ?_⟩
      · cases order.symm.trans asked
        simp [World.setHost]
      · simp [World.setHost, World.record, elsewhere]

/-- In a world without prepared answers for the host, calls about its processes are answered
by its supervisor, and no other supervisor has a part in them. -/
theorem served_of_answered {w w' : World} (plain : w.Unprepared b.host)
    (answered : Answered World.answer (calls.map (Call.event b name)) w w') :
    Served b name calls (w.hosts b.host) (w'.hosts b.host) ∧
      ∀ other, other ≠ b.host → w'.hosts other = w.hosts other := by
  induction calls generalizing w with
  | nil =>
      cases answered
      exact ⟨rfl, fun other _ => rfl⟩
  | cons c calls ih =>
      obtain ⟨same, rest⟩ := answered_cons_iff.mp answered
      obtain ⟨step, still, elsewhere⟩ := step_of_answer plain same
      obtain ⟨served, others⟩ := ih still rest
      exact ⟨⟨_, step, served⟩, fun other away => (others other away).trans (elsewhere other away)⟩

end RunControl.Simulation
