import RunControl.Proofs.HostEnvironment.Course
import RunControl.Proofs.Simulation.Served

/-!
What a resolution leaves on a host.

`resolve_restores`: unless stops or removals are made to fail, the table of processes is
afterwards what it was without the helper, except that a helper which was there before stays
when the listing fails, since it is not found then. Whatever is made to fail, no other
process is touched.
-/

namespace RunControl.HostEnvironment

open Simulation

variable {b : Binding} {poll : PollBudget} {ending : Ending} {h h' : Host} {id : String}
  {forward cleared removed : List Call}

theorem Launched.registered (launch : Launched b poll forward ending) :
    Stage.registered.rank ≤ ending.stage.rank := by
  cases launch <;> exact Nat.le_of_ble_eq_true rfl

/-- Either the table is left as it was in the first stage already, or the identifier of the
helper is its own. -/
theorem Attempted.kept_or_owned (attempt : Attempted b poll forward ending)
    (keyed : Keyed h.processes) (served : Served b helperName forward h h') :
    (ending.stage = .notStarted ∧ h'.processes = h.processes ∧
      (registers b helperName h.processes = true → h.injected? .list ≠ none)) ∨
    (Stage.registered.rank ≤ ending.stage.rank ∧ Owned b helperName h.processes ∧
      (registers b helperName h.processes = true → h.injected? .list = none)) := by
  cases attempt with
  | notAdded absent =>
      obtain ⟨mid, listed, _, added, rfl⟩ := served
      obtain ⟨same, shows⟩ := listed.listed
      refine .inl ⟨rfl, (added.answers rfl).of_error.trans same, fun there sound => ?_⟩
      exact nomatch absent.symm.trans (shows.mpr ⟨sound, there⟩)
  | notStopped found _ _ =>
      obtain ⟨mid, listed, _⟩ := served
      obtain ⟨sound, there⟩ := listed.listed.2.mp found
      exact .inr ⟨Nat.le_refl _, keyed.owned there, fun _ => sound⟩
  | launched obtained launch =>
      refine .inr ⟨launch.registered, ?_⟩
      have shown {listing} {mid : Host} (listed : Step b helperName (.list listing) h mid)
          (found : b.lists helperName listing = true) :
          Owned b helperName h.processes ∧
            (registers b helperName h.processes = true → h.injected? .list = none) := by
        obtain ⟨sound, there⟩ := listed.listed.2.mp found
        exact ⟨keyed.owned there, fun _ => sound⟩
      cases obtained with
      | added absent =>
          -- What was added was not there, so the listing did not hide it.
          obtain ⟨mid, listed, _, added, _⟩ := served
          have free := (added.answers rfl).of_add.1
          rw [listed.listed.1] at free
          refine ⟨fun p found => (nomatch free.symm.trans found), fun there => ?_⟩
          obtain ⟨id, p, found, own⟩ := registers_iff.mp there
          rw [keyed.at_identifier found own] at found
          exact nomatch free.symm.trans found
      | resting found _ =>
          obtain ⟨mid, listed, _⟩ := served
          exact shown listed found
      | stopped found _ =>
          obtain ⟨mid, listed, _⟩ := served
          exact shown listed found
      | notRunning found _ _ =>
          obtain ⟨mid, listed, _⟩ := served
          exact shown listed found

/-- A keyed table in which the identifier of the helper has become free is the table before
without the helper. -/
theorem eq_reject {before after : Table Process} (keyed : Keyed before)
    (owned : Owned b helperName before) (gone : after.get? (b.identifier helperName) = none)
    (frame : ∀ id, id ≠ b.identifier helperName → after.get? id = before.get? id) :
    after = before.reject (owns b helperName) := by
  ext id p
  rw [Table.get?_reject_eq_some_iff]
  by_cases here : id = b.identifier helperName
  · subst here
    rw [gone]
    refine ⟨nofun, fun ⟨found, other⟩ => ?_⟩
    exact nomatch other.symm.trans (owned p found)
  · rw [frame id here, iff_self_and]
    exact fun found => Bool.eq_false_iff.mpr fun own => here (keyed.at_identifier found own)

/-- Calls of a resolution that are answered by the supervisor in a world. -/
theorem resolve_served {w : World} (poll : PollBudget) (plain : w.Unprepared b.host) :
    ∃ forward cleared removed ending,
      Attempted b poll forward ending ∧ Clearing ending.stage cleared ∧
      Removing b ending.stage removed ∧
      Served b helperName (forward ++ cleared ++ removed) (w.hosts b.host)
        ((w.play (resolve b poll)).2.hosts b.host) ∧
      (∀ other, other ≠ b.host → (w.play (resolve b poll)).2.hosts other = w.hosts other) ∧
      (resolve b poll).trace World.answer w =
        (forward ++ cleared ++ removed).map (Call.event b helperName) ∧
      (w.play (resolve b poll)).1 = ending.environment := by
  obtain ⟨forward, cleared, removed, ending, trace, -, result, attempt, clearing, removing⟩ :=
    resolve_course (Plan.play_course World.answer (resolve b poll) w)
  have answered := Plan.play_answered World.answer (resolve b poll) w
  rw [trace] at answered
  obtain ⟨served, elsewhere⟩ := served_of_answered plain answered
  exact ⟨forward, cleared, removed, ending, attempt, clearing, removing, served, elsewhere, trace,
    result⟩

/-- What a resolution leaves of the table of processes. -/
structure Restored (b : Binding) (before after : Host) : Prop where
  /-- Unless stops or removals fail, the table is what it was without the helper; only when
  the listing fails a helper that was there stays as it was. -/
  erased : before.unreachable = false → .stop ∉ before.failing → .remove ∉ before.failing →
    after.processes =
      if .list ∈ before.failing ∧ registers b helperName before.processes = true then
        before.processes
      else before.processes.reject (owns b helperName)
  /-- So the helper is there afterwards exactly if it was there before and the listing fails. -/
  registered_iff : before.unreachable = false → .stop ∉ before.failing → .remove ∉ before.failing →
    (registers b helperName after.processes = true ↔
      registers b helperName before.processes = true ∧ .list ∈ before.failing)
  /-- Whatever fails, every other process is the same in all it has. -/
  others : after.processes.reject (owns b helperName) =
    before.processes.reject (owns b helperName)
  /-- The table is still keyed. -/
  keyed : Keyed after.processes

theorem registers_reject (processes : Table Process) :
    registers b helperName (processes.reject (owns b helperName)) = false := by
  rw [Bool.eq_false_iff]
  intro there
  obtain ⟨id, p, found, own⟩ := registers_iff.mp there
  rw [(Table.get?_reject_eq_some_iff.mp found).2] at own
  cases own

theorem reject_of_not_registers {processes : Table Process}
    (absent : registers b helperName processes = false) :
    processes.reject (owns b helperName) = processes := by
  rw [Table.reject_eq_self_iff]
  intro id p found
  rw [Bool.eq_false_iff]
  intro own
  exact nomatch absent.symm.trans (registers_iff.mpr ⟨id, p, found, own⟩)

/-- Whether the helper is there afterwards is read off the table. -/
theorem registers_of_erased {before after : Table Process} {stays : Prop} [Decidable stays]
    (erased : after = if stays ∧ registers b helperName before = true then before
      else before.reject (owns b helperName)) :
    registers b helperName after = true ↔ registers b helperName before = true ∧ stays := by
  by_cases both : stays ∧ registers b helperName before = true
  · rw [erased, if_pos both]
    exact ⟨fun there => ⟨there, both.1⟩, fun _ => both.2⟩
  · rw [erased, if_neg both, registers_reject]
    exact ⟨nofun, fun ⟨there, stay⟩ => absurd ⟨stay, there⟩ both⟩

/-- A table that was left alone since the helper was not found in it. -/
theorem Restored.of_kept (same : h'.processes = h.processes) (keyed : Keyed h.processes)
    (hidden : registers b helperName h.processes = true → h.injected? .list ≠ none) :
    Restored b h h' := by
  have erased (reached : h.unreachable = false) : h'.processes =
      if .list ∈ h.failing ∧ registers b helperName h.processes = true then h.processes
      else h.processes.reject (owns b helperName) := by
    rw [same]
    split
    · rfl
    · rename_i other
      have absent : registers b helperName h.processes = false := by
        rw [Bool.eq_false_iff]
        intro there
        apply hidden there
        rw [Host.injected?_eq_none_iff]
        exact ⟨reached, fun fails => other ⟨fails, there⟩⟩
      exact (reject_of_not_registers absent).symm
  constructor
  case erased =>
    intro reached _ _
    exact erased reached
  case registered_iff =>
    intro reached _ _
    exact registers_of_erased (erased reached)
  case others => rw [same]
  case keyed =>
    rw [same]
    exact keyed

/-- A table in which the identifier of the helper was its own all along. -/
theorem Restored.of_owned (keyed : Keyed h.processes) (owned : Owned b helperName h.processes)
    (seen : registers b helperName h.processes = true → h.injected? .list = none)
    (gone : h.injected? .stop = none → h.injected? .remove = none →
      h'.processes.get? (b.identifier helperName) = none)
    (served : ∃ calls, Served b helperName calls h h') : Restored b h h' := by
  obtain ⟨calls, served⟩ := served
  have erased (reached : h.unreachable = false) (stops : .stop ∉ h.failing)
      (removes : .remove ∉ h.failing) : h'.processes =
      if .list ∈ h.failing ∧ registers b helperName h.processes = true then h.processes
      else h.processes.reject (owns b helperName) := by
    rw [if_neg fun ⟨fails, there⟩ => (Host.injected?_eq_none_iff.mp (seen there)).2 fails]
    apply eq_reject keyed owned
    · exact gone (Host.injected?_eq_none_iff.mpr ⟨reached, stops⟩)
        (Host.injected?_eq_none_iff.mpr ⟨reached, removes⟩)
    · intro id other
      exact served.frame other
  constructor
  case erased => exact erased
  case registered_iff =>
    intro reached stops removes
    exact registers_of_erased (erased reached stops removes)
  case keyed => exact served.keyed keyed
  case others =>
    rw [Table.reject_eq_iff]
    intro id p other
    by_cases here : id = b.identifier helperName
    · subst here
      constructor
      · intro found
        exact nomatch other.symm.trans (served.owned owned p found)
      · intro found
        exact nomatch other.symm.trans (owned p found)
    · rw [served.frame here]

/-- For every state of a host's supervisor whose table is keyed, whatever is made to fail and
however the helper behaves: a resolution leaves the table of processes as `Restored` says, and
no other host is touched. -/
theorem resolve_restores (w : World) (b : Binding) (poll : PollBudget)
    (plain : w.Unprepared b.host) (keyed : Keyed (w.hosts b.host).processes) :
    Restored b (w.hosts b.host) ((w.play (resolve b poll)).2.hosts b.host) ∧
      ∀ other, other ≠ b.host → (w.play (resolve b poll)).2.hosts other = w.hosts other := by
  obtain ⟨forward, cleared, removed, ending, attempt, clearing, removing, served, elsewhere, -,
    -⟩ := resolve_served poll plain
  refine ⟨?_, elsewhere⟩
  obtain ⟨mid, before, after⟩ := served_append_iff.mp served
  obtain ⟨first, tried, cleaned⟩ := served_append_iff.mp before
  rcases attempt.kept_or_owned keyed tried with ⟨stage, same, hidden⟩ | ⟨stage, owned, seen⟩
  · rw [stage] at clearing removing
    obtain rfl := clearing.eq_nil (by decide)
    obtain rfl := removing.eq_nil (by decide)
    obtain rfl : mid = first := cleaned
    have unchanged : (w.play (resolve b poll)).2.hosts b.host = mid := after
    rw [unchanged]
    exact .of_kept same keyed hidden
  · refine .of_owned keyed owned seen (fun stops removes => ?_) ⟨_, served⟩
    have setup := before.setup
    obtain ⟨result, -, removal⟩ := removing.course stage
    apply after.removed removal
    · rw [Host.injected?_of_setup setup, stops]
    · rw [Host.injected?_of_setup setup, removes]

/-- A helper that still runs is in a keyed table, and a resolution leaves that table as it
should. -/
theorem resolve_restores_running :
    let w := (World.fresh "20260101120000").onHost "np04" fun h =>
      h.insertRunning "daq" helperName "bash -c \"export -p\""
    w.Unprepared "np04" ∧ Keyed (w.hosts "np04").processes ∧
      Restored ⟨"np04", "daq"⟩ (w.hosts "np04")
        ((w.play (resolve ⟨"np04", "daq"⟩ ⟨500, 20⟩)).2.hosts "np04") := by
  intro w
  have plain : w.Unprepared "np04" := fun _ => rfl
  have keyed : Keyed (w.hosts "np04").processes := Keyed.empty.insert rfl
  exact ⟨plain, keyed, (resolve_restores w ⟨"np04", "daq"⟩ ⟨500, 20⟩ plain keyed).1⟩

end RunControl.HostEnvironment
