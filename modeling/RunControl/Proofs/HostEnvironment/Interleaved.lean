import RunControl.Proofs.HostEnvironment.Serial
import RunControl.Proofs.Simulation.Site

/-!
Resolutions that run at the same time in a world.

`play_serialised`: whatever moves are made, on each host one saga at most is on its way, the
host got the calls of whole sagas and then those of the one on its way, and once no task runs
there the results and the table of processes are those of the resolutions one after another in
the order in which the lock was taken.
-/

namespace RunControl.HostEnvironment.Schedule

open Simulation

variable {α : Type} {poll : PollBudget} {w w' : World} {host : String}

/-! ### Calls of sagas -/

/-- The calls that the supervisor of a host gets in a row of events. -/
def callsAt (host : String) (events : List Event) : List Request :=
  (events.map Event.request).filter (Request.isOrderTo host)

/-- The calls of a whole saga that is played in a world. -/
def saga (poll : PollBudget) (b : Binding) (w : World) : List Request :=
  callsAt b.host ((resolve b poll).trace World.answer w)

/-- The calls of whole sagas that are played one after another. -/
def sagas (poll : PollBudget) : List Binding → World → List Request
  | [], _ => []
  | b :: r, w => saga poll b w ++ sagas poll r (w.play (resolve b poll)).2

theorem callsTo_reaches {p rest : Plan α} {past : List Event}
    (stays : p.Only (Request.StaysAt host))
    (reaches : p.Reaches World.answer w past rest w') :
    w'.callsTo host = w.callsTo host ++ callsAt host past := by
  induction reaches with
  | start => simp [callsAt]
  | ask before ih =>
      rw [World.callsTo_answer ((before.only stays).first World.answer w), ih]
      simp [callsAt]

/-- After resolutions one after another the calls of their whole sagas were made. -/
theorem callsTo_inTurn {bindings : List Binding} (here : ∀ b ∈ bindings, b.host = host)
    (w : World) : (inTurn World.answer poll bindings w).2.callsTo host =
      w.callsTo host ++ sagas poll bindings w := by
  induction bindings generalizing w with
  | nil => simp [inTurn, sagas]
  | cons b r ih =>
      obtain rfl := here b (.head _)
      have whole := callsTo_reaches (resolve_stays b poll)
        (Plan.reaches_done World.answer (resolve b poll) w)
      have others := ih (fun b' member => here b' (.tail _ member)) (w.play (resolve b poll)).2
      simp only [inTurn, sagas, saga]
      rw [← List.append_assoc]
      exact others.trans (congrArg (· ++ _) whole)

/-! ### Hosts -/

/-- On a host the resolutions of turns were played one after another. -/
structure PlayedInTurn (poll : PollBudget) (w : World) (host : String) (turns : List Turn)
    (s : Schedule World) : Prop where
  results : Settled World.answer poll w turns (resultAt s.tasks)
  processes : s.world.hosts host =
    (inTurn World.answer poll (turns.map Turn.binding) w).2.hosts host
  calls : s.world.callsTo host = w.callsTo host ++ sagas poll (turns.map Turn.binding) w

/-- On a host the resolutions of turns were played one after another, and a saga is on its way
as it is when it is played after them. -/
structure OnItsWay (poll : PollBudget) (w : World) (host : String) (turns : List Turn)
    (a : Turn) (s : Schedule World) : Prop where
  results : Settled World.answer poll w turns (resultAt s.tasks)
  calls : ∃ past later,
    saga poll a.binding (inTurn World.answer poll (turns.map Turn.binding) w).2 = past ++ later ∧
      s.world.callsTo host =
        w.callsTo host ++ sagas poll (turns.map Turn.binding) w ++ past

/-- How resolutions stand in a world, with the turns in which locks were taken. -/
structure Serialised (poll : PollBudget) (bindings : List Binding) (w : World)
    (order : List Turn) (s : Schedule World) : Prop where
  /-- No task changes what it resolves. -/
  bound : s.tasks.map Task.binding = bindings
  /-- On each host one task at most is between the first call of its saga and the last. -/
  alone : ∀ (i j : Nat) (t u : Task), s.tasks[i]? = some t → s.tasks[j]? = some u →
    t.rest?.isSome = true → u.rest?.isSome = true → t.binding.host = u.binding.host → i = j
  /-- A task has one turn at most, -/
  nodup : (order.map Turn.place).Nodup
  /-- and it has one exactly if its saga is on its way or done. -/
  mem_iff : ∀ a, a ∈ order ↔ Begun s.tasks a
  /-- Where no saga is on its way, as on every host once all tasks are done, it is as if they
  had been played one after another. -/
  settled : ∀ host, (∀ t ∈ s.tasks, t.binding.host = host → t.rest? = none) →
    PlayedInTurn poll w host (order.filter (·.binding.host = host)) s
  /-- Where a saga is on its way, it is the last and the others were played before it. -/
  running : ∀ (place : Nat) (t : Task), s.tasks[place]? = some t → t.rest?.isSome = true →
    ∃ earlier, order.filter (·.binding.host = t.binding.host) = earlier ++ [⟨place, t.binding⟩] ∧
      OnItsWay poll w t.binding.host earlier ⟨place, t.binding⟩ s

section Hosts

variable {place : Nat} {turns order : List Turn} {bindings : List Binding} {s : Schedule World}

/-- A host that stands free was played in turn. -/
theorem Standing.inTurn (standing : Standing World.answer World.site poll w host turns
    (restAt s.tasks host) (resultAt s.tasks) s.world) (here : ∀ a ∈ turns, a.binding.host = host)
    (idle : ∀ place, restAt s.tasks host place = none) : PlayedInTurn poll w host turns s := by
  cases standing with
  | free _ settled same =>
      have calls := congrArg Site.calls same
      refine ⟨settled, congrArg Site.supervisor same, calls.trans (callsTo_inTurn ?_ w)⟩
      intro b member
      obtain ⟨a, among, rfl⟩ := List.mem_map.mp member
      exact here a among
  | held _ holds => exact nomatch (idle _).symm.trans holds

/-- On a host that does not stand free the last saga is on its way. -/
theorem Standing.onItsWay (standing : Standing World.answer World.site poll w host turns
    (restAt s.tasks host) (resultAt s.tasks) s.world) (here : ∀ a ∈ turns, a.binding.host = host)
    {rest : Plan Resolution} (holds : restAt s.tasks host place = some rest) :
    ∃ earlier a, turns = earlier ++ [a] ∧ a.place = place ∧ OnItsWay poll w host earlier a s := by
  cases standing with
  | free idle => exact nomatch (idle _).symm.trans holds
  | @held earlier a _ _ past rest _ mid own held others settled reaches same =>
      refine ⟨earlier, a, rfl, (Standing.eq_last others holds).symm, settled,
        callsAt host past, callsAt host (rest.trace World.answer mid), ?_, ?_⟩
      · rw [saga, own, reaches.trace, callsAt, List.map_append, List.filter_append]
        rfl
      · have calls := congrArg Site.calls same
        refine calls.trans ((callsTo_reaches (own ▸ resolve_stays _ poll) reaches).trans ?_)
        rw [callsTo_inTurn fun b member => ?_]
        obtain ⟨a', among, rfl⟩ := List.mem_map.mp member
        exact here a' (List.mem_append_left _ among)

theorem Ordered.serialised
    (ordered : Ordered World.answer World.site poll bindings w order s) :
    Serialised poll bindings w order s := by
  have here (host : String) : ∀ a ∈ order.filter (·.binding.host = host), a.binding.host = host :=
    fun a member => by simpa using (List.mem_filter.mp member).2
  have last {place : Nat} {t : Task} (there : s.tasks[place]? = some t)
      (runs : t.rest?.isSome = true) : ∃ earlier,
      order.filter (·.binding.host = t.binding.host) = earlier ++ [⟨place, t.binding⟩] ∧
        OnItsWay poll w t.binding.host earlier ⟨place, t.binding⟩ s := by
    obtain ⟨rest, rests⟩ := Option.isSome_iff_exists.mp runs
    obtain ⟨earlier, ⟨q, b⟩, turns, (same : q = place), way⟩ :=
      (ordered.standing t.binding.host).onItsWay (here _) ((restAt_of_task there).trans rests)
    subst same
    have member : ⟨q, b⟩ ∈ order.filter (·.binding.host = t.binding.host) := by
      rw [turns]
      exact List.mem_append_right _ (.head _)
    obtain ⟨u, there', own, -⟩ := (ordered.mem_iff _).mp (List.mem_filter.mp member).1
    obtain rfl : u = t := Option.some.inj (there'.symm.trans there)
    obtain rfl : u.binding = b := own
    exact ⟨earlier, turns, way⟩
  constructor
  case bound => exact ordered.bound
  case nodup => exact ordered.nodup
  case mem_iff => exact ordered.mem_iff
  case running => exact fun place t => last
  case alone => exact fun i j t u => ordered.alone
  case settled =>
    intro host idle
    exact (ordered.standing host).inTurn (here host) (restAt_eq_none idle)

end Hosts

/-- Nothing is left to do for a task that has its result. -/
theorem rest?_of_result? {t : Task} (ended : (Task.result? t).isSome = true) : t.rest? = none := by
  obtain ⟨binding, progress, attended⟩ := t
  cases progress with
  | holding lock rest => cases ended
  | _ => rfl

/-- For every row of moves of resolutions that share their locks, whichever callers go away: the
resolutions stand as `Serialised` says. -/
theorem play_serialised (locks : HostLocks) (bindings : List Binding) (w : World)
    (poll : PollBudget) (moves : List Move) :
    Serialised poll bindings w ((begin locks bindings w).turns World.answer poll moves)
      ((begin locks bindings w).play World.answer poll moves) := by
  have ordered := begin_ordered World.answer World.site poll locks bindings w
  simpa using (ordered.play World.separate moves).serialised

/-- Three resolutions on two hosts that go on by turns, the first without its caller: all come to
their end, and the second takes the lock that it shares with the first before it. So their host
stands as if the second had been played alone and the first after it. -/
theorem play_serialised_overtaken :
    let w := World.fresh "20260101120000"
    let s := begin .empty [⟨"np04", "daq"⟩, ⟨"np04", "test"⟩, ⟨"np02", "daq"⟩] w
    let moves := .advance 0 :: .abandon 0 :: .advance 1 ::
      (List.replicate 20 [Move.advance 1, .advance 2, .advance 0]).flatten
    let ended := s.play World.answer ⟨500, 20⟩ moves
    s.turns World.answer ⟨500, 20⟩ moves =
        [⟨1, "np04", "test"⟩, ⟨2, "np02", "daq"⟩, ⟨0, "np04", "daq"⟩] ∧
      ended.tasks.map Task.result? = [some (.ok .empty), some (.ok .empty), some (.ok .empty)] ∧
      PlayedInTurn ⟨500, 20⟩ w "np04" [⟨1, "np04", "test"⟩, ⟨0, "np04", "daq"⟩] ended := by
  intro w s moves ended
  have turns : s.turns World.answer ⟨500, 20⟩ moves =
      [⟨1, "np04", "test"⟩, ⟨2, "np02", "daq"⟩, ⟨0, "np04", "daq"⟩] := by decide +kernel
  have results : ended.tasks.map Task.result? =
      [some (.ok .empty), some (.ok .empty), some (.ok .empty)] := by decide +kernel
  have finished : ∀ t ∈ ended.tasks, (Task.result? t).isSome = true := by decide +kernel
  have serialised := play_serialised .empty [⟨"np04", "daq"⟩, ⟨"np04", "test"⟩, ⟨"np02", "daq"⟩] w
    ⟨500, 20⟩ moves
  have settled := serialised.settled "np04" fun t member _ =>
    rest?_of_result? (finished t member)
  refine ⟨turns, results, ?_⟩
  rw [turns] at settled
  exact settled

end RunControl.HostEnvironment.Schedule
