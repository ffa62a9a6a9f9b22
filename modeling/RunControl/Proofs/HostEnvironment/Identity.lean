import RunControl.Proofs.HostEnvironment.Serial
import RunControl.Proofs.Simulation.Site
import RunControl.Rpc.Endpoint

/-!
What counts as one host.

A lock is for the text of a host, and an endpoint for its URL, to which a scheme is added where
there is none. The two agree but for hosts of which one is the other with its scheme written out
(`Endpoint.Alias`): these share a supervisor and not a lock, so that their sagas can be on their
way at once (`lock_eq_iff_url_eq`).
-/

namespace RunControl

/-! ### URLs -/

namespace Endpoint

variable {host other : String}

/-- Whether one of two hosts is the other with its scheme written out. -/
def Alias (host other : String) : Prop :=
  (hasScheme host = false ∧ other = "http://" ++ host) ∨
    (hasScheme other = false ∧ host = "http://" ++ other)

theorem hasScheme_append (host : String) : hasScheme ("http://" ++ host) = true := by
  rw [hasScheme, String.toList_append, Bool.or_eq_true]
  exact .inl (List.isPrefixOf_iff_prefix.mpr (List.prefix_append _ _))

theorem Alias.ne (written : Alias host other) : host ≠ other := by
  rintro rfl
  rcases written with ⟨plain, written⟩ | ⟨plain, written⟩
  · rw [written, hasScheme_append] at plain
    cases plain
  · rw [written, hasScheme_append] at plain
    cases plain

/-- At any port two hosts have one URL exactly if they are the same or aliases. -/
theorem url_eq_iff (port : UInt16) :
    url host port = url other port ↔ host = other ∨ Alias host other := by
  unfold url
  rw [String.append_left_inj, String.append_left_inj]
  cases plain : hasScheme host with
  | true =>
      cases plain' : hasScheme other with
      | true => simp [Alias, plain, plain']
      | false =>
          have apart : host ≠ other := by
            rintro rfl
            exact nomatch plain.symm.trans plain'
          simp [Alias, plain, plain', apart]
  | false =>
      cases plain' : hasScheme other with
      | true =>
          have apart : host ≠ other := by
            rintro rfl
            exact nomatch plain.symm.trans plain'
          simp [Alias, plain, plain', apart, eq_comm]
      | false =>
          have written : ¬ Alias host other := by
            rintro (⟨-, same⟩ | ⟨-, same⟩)
            · rw [same, hasScheme_append] at plain'
              cases plain'
            · rw [same, hasScheme_append] at plain
              cases plain
          simp [written, String.append_right_inj]

end Endpoint

namespace HostEnvironment

open Endpoint (Alias)
open Simulation

/-! ### Locks -/

namespace HostLocks

variable {l : HostLocks} {hosts : List String} {host other : String}

/-- Later requests keep the locks that were made. -/
theorem lockAll_keeps (known : other ∈ l.hosts) (hosts : List String) :
    other ∈ (l.lockAll hosts).2.hosts ∧
      ((l.lockAll hosts).2.lockFor other).1 = (l.lockFor other).1 := by
  induction hosts generalizing l with
  | nil => exact ⟨known, rfl⟩
  | cons host r ih =>
      obtain ⟨still, kept⟩ := lockFor_keeps known host
      obtain ⟨still', kept'⟩ := ih still
      exact ⟨still', kept'.trans kept⟩

/-- Every request gives the lock that its host has in the end. -/
theorem getElem?_lockAll {i : Nat} (there : hosts[i]? = some host) :
    host ∈ (l.lockAll hosts).2.hosts ∧
      (l.lockAll hosts).1[i]? = some ((l.lockAll hosts).2.lockFor host).1 := by
  induction hosts generalizing l i with
  | nil => cases there
  | cons first r ih =>
      cases i with
      | zero =>
          obtain rfl : first = host := by simpa using there
          obtain ⟨still, kept⟩ := lockAll_keeps (mem_lockFor l first) r
          refine ⟨still, congrArg some ?_⟩
          rw [lockFor_lockFor] at kept
          exact kept.symm
      | succ i => exact ih (by simpa using there)

/-- Requests share a lock exactly if they name the same host. -/
theorem lockAll_eq_iff {i j : Nat} (atI : hosts[i]? = some host) (atJ : hosts[j]? = some other) :
    (l.lockAll hosts).1[i]? = (l.lockAll hosts).1[j]? ↔ host = other := by
  obtain ⟨known, lockI⟩ := getElem?_lockAll (l := l) atI
  obtain ⟨-, lockJ⟩ := getElem?_lockAll (l := l) atJ
  rw [lockI, lockJ, Option.some.injEq, lockFor_eq_iff known]

end HostLocks

/-! ### Sagas at once -/

namespace Schedule

variable {σ : Type} {answer : Answerer σ} {poll : PollBudget} {s : Schedule σ} {place : Nat}
  {t : Task}

/-- Whether the saga of the task at a place is on its way. -/
def isRunning (s : Schedule σ) (place : Nat) : Bool :=
  s.tasks[place]?.any fun t => t.rest?.isSome

/-- The moves in which a task arrives and takes its lock. -/
def entry (place : Nat) : List Move :=
  [.advance place, .advance place]

/-- A task that arrives takes the lock of its host if no other holds it. -/
theorem play_entry (answer : Answerer σ) (poll : PollBudget) (here : s.tasks[place]? = some t)
    (arrives : t.progress = .arriving)
    (free : s.isHeld (s.locks.lockFor t.binding.host).1 = false) :
    (s.play answer poll (entry place)).locks = (s.locks.lockFor t.binding.host).2 ∧
      (s.play answer poll (entry place)).tasks = s.tasks.set place ⟨t.binding,
        .holding (s.locks.lockFor t.binding.host).1 (resolve t.binding poll), t.attended⟩ := by
  have arrived : s.move answer poll (.advance place) =
      ⟨(s.locks.lockFor t.binding.host).2, s.tasks.set place
        ⟨t.binding, .waiting (s.locks.lockFor t.binding.host).1, t.attended⟩, s.world⟩ := by
    simp only [move, advance, here, arrives]
    rfl
  have still : (s.move answer poll (.advance place)).isHeld (s.locks.lockFor t.binding.host).1 =
      false := by
    rw [arrived, isHeld_eq_false_iff]
    intro u member rest holds
    rcases List.mem_or_eq_of_mem_set member with member | rfl
    · exact isHeld_eq_false_iff.mp free u member rest holds
    · cases holds
  have waits := getElem?_set_task (u := ⟨t.binding, .waiting (s.locks.lockFor t.binding.host).1,
    t.attended⟩) here place
  rw [if_pos rfl] at waits
  rw [arrived] at still
  simp only [entry, play, List.foldl_cons, List.foldl_nil]
  rw [arrived]
  simp only [move, advance, waits, still, setProgress, List.set_set, Bool.false_eq_true, if_false,
    and_self]

/-- When two tasks about different hosts enter, the sagas of both are on their way. -/
theorem entries_running (answer : Answerer σ) (poll : PollBudget) (locks : HostLocks)
    (bindings : List Binding) (w : σ) {i j : Nat} {b b' : Binding} (atI : bindings[i]? = some b)
    (atJ : bindings[j]? = some b') (apart : b.host ≠ b'.host) :
    let s := (begin locks bindings w).play answer poll (entry i ++ entry j)
    s.isRunning i = true ∧ s.isRunning j = true := by
  have places : j ≠ i := by
    rintro rfl
    exact apart (congrArg Binding.host (Option.some.inj (atI.symm.trans atJ)))
  have tasksI : (begin locks bindings w).tasks[i]? = some (newTask b) := by simp [begin, atI]
  have tasksJ : (begin locks bindings w).tasks[j]? = some (newTask b') := by simp [begin, atJ]
  obtain ⟨locks₁, tasks₁⟩ := play_entry answer poll tasksI rfl (isHeld_eq_false_iff.mpr (by
    intro t member rest holds
    rw [begin_arriving member] at holds
    cases holds))
  intro s
  have split : s = ((begin locks bindings w).play answer poll (entry i)).play answer poll
      (entry j) := List.foldl_append
  generalize (begin locks bindings w).play answer poll (entry i) = s₁ at locks₁ tasks₁ split
  have thereI : s₁.tasks[i]? = some ⟨b, .holding (locks.lockFor b.host).1 (resolve b poll), true⟩ := by
    rw [tasks₁, getElem?_set_task tasksI, if_pos rfl]
    rfl
  have thereJ : s₁.tasks[j]? = some (newTask b') := by
    rw [tasks₁, getElem?_set_task tasksI, if_neg places, tasksJ]
  -- The first task holds the lock of its own host, which is not that of the second.
  have free : s₁.isHeld (s₁.locks.lockFor b'.host).1 = false := by
    rw [isHeld_eq_false_iff]
    intro t member rest holds
    rw [tasks₁] at member
    rcases List.mem_or_eq_of_mem_set member with member | rfl
    · rw [begin_arriving member] at holds
      cases holds
    · injection holds with lock
      have own := congrArg Prod.fst (locks.lockFor_lockFor b.host)
      rw [locks₁] at lock
      exact apart ((HostLocks.lockFor_eq_iff (locks.mem_lockFor b.host)).mp (own.trans lock))
  obtain ⟨-, tasks₂⟩ := play_entry answer poll thereJ rfl free
  rw [← split] at tasks₂
  unfold isRunning
  rw [tasks₂, getElem?_set_task thereJ, getElem?_set_task thereJ, if_neg places.symm, if_pos rfl,
    thereI]
  exact ⟨rfl, rfl⟩

/-- A saga is on its way at a place when the task there holds its lock. -/
theorem isRunning_iff : s.isRunning place = true ↔
    ∃ t, s.tasks[place]? = some t ∧ t.rest?.isSome = true := by
  unfold isRunning
  cases s.tasks[place]? <;> simp

/-- The sagas of two tasks can be on their way at once exactly if they are about different
hosts. -/
theorem running_at_once_iff (locks : HostLocks) (bindings : List Binding) (w : World)
    (poll : PollBudget) {i j : Nat} {b b' : Binding} (atI : bindings[i]? = some b)
    (atJ : bindings[j]? = some b') (places : i ≠ j) :
    (∃ moves, let s := (begin locks bindings w).play World.answer poll moves
      s.isRunning i = true ∧ s.isRunning j = true) ↔ b.host ≠ b'.host := by
  constructor
  · rintro ⟨moves, runsI, runsJ⟩ same
    have ordered := (begin_ordered World.answer World.site poll locks bindings w).play
      World.separate moves
    obtain ⟨t, thereI, restI⟩ := isRunning_iff.mp runsI
    obtain ⟨u, thereJ, restJ⟩ := isRunning_iff.mp runsJ
    have boundI := congrArg (·[i]?) ordered.bound
    have boundJ := congrArg (·[j]?) ordered.bound
    simp only [List.getElem?_map, thereI, thereJ, atI, atJ, Option.map_some,
      Option.some.injEq] at boundI boundJ
    refine places (ordered.alone thereI thereJ restI restJ ?_)
    rw [boundI, boundJ, same]
  · intro apart
    exact ⟨entry i ++ entry j, entries_running World.answer poll locks bindings w atI atJ apart⟩

end Schedule

/-! ### Locks and URLs -/

open Schedule in
/-- For all resolutions, from whatever locks there are, and at every port: the locks of two of
them are the same exactly if their URLs are, unless their hosts are aliases; and the sagas of two
that reach one supervisor can be on their way at once exactly if their hosts are aliases. -/
theorem lock_eq_iff_url_eq (locks : HostLocks) (bindings : List Binding) (port : UInt16)
    (i j : Fin bindings.length) (w : World) (poll : PollBudget) :
    (((locks.lockAll (bindings.map Binding.host)).1[(i : Nat)]? =
          (locks.lockAll (bindings.map Binding.host)).1[(j : Nat)]? ↔
        Endpoint.url bindings[i].host port = Endpoint.url bindings[j].host port) ↔
      ¬ Alias bindings[i].host bindings[j].host) ∧
    ((i ≠ j ∧ Endpoint.url bindings[i].host port = Endpoint.url bindings[j].host port ∧
        ∃ moves, let s := (begin locks bindings w).play World.answer poll moves
          s.isRunning i = true ∧ s.isRunning j = true) ↔
      Alias bindings[i].host bindings[j].host) := by
  have atI : bindings[(i : Nat)]? = some bindings[i] := by simp
  have atJ : bindings[(j : Nat)]? = some bindings[j] := by simp
  have hostI : (bindings.map Binding.host)[(i : Nat)]? = some bindings[i].host := by simp
  have hostJ : (bindings.map Binding.host)[(j : Nat)]? = some bindings[j].host := by simp
  rw [HostLocks.lockAll_eq_iff hostI hostJ, Endpoint.url_eq_iff]
  refine ⟨⟨?_, ?_⟩, ⟨?_, ?_⟩⟩
  · intro agree written
    exact written.ne (agree.mpr (.inr written))
  · intro other
    exact (or_iff_left other).symm
  · rintro ⟨places, same, once⟩
    have apart : (i : Nat) ≠ j := fun eq => places (Fin.ext eq)
    exact same.resolve_left ((running_at_once_iff locks bindings w poll atI atJ apart).mp once)
  · intro written
    have places : (i : Nat) ≠ j := by
      intro eq
      obtain rfl := Fin.ext eq
      exact written.ne rfl
    refine ⟨fun eq => places (congrArg Fin.val eq), .inr written, ?_⟩
    exact (running_at_once_iff locks bindings w poll atI atJ places).mpr written.ne

/-- A host with its scheme written out has the URL of the host without it and a lock of its own,
and after four moves the sagas of both are on their way. -/
theorem lock_ne_of_alias :
    Endpoint.url "daq01" 50051 = Endpoint.url "http://daq01" 50051 ∧
      (HostLocks.empty.lockAll ["daq01", "http://daq01"]).1 = [0, 1] ∧
      let s := (Schedule.begin .empty [⟨"daq01", "daq"⟩, ⟨"http://daq01", "daq"⟩]
        (World.fresh "20260101120000")).play World.answer ⟨500, 20⟩
          (Schedule.entry 0 ++ Schedule.entry 1)
      s.isRunning 0 = true ∧ s.isRunning 1 = true := by
  decide +kernel

end HostEnvironment

end RunControl
