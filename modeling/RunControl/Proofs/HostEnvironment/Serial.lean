import Mathlib.Data.List.Nodup
import RunControl.Proofs.HostEnvironment.Course
import RunControl.Proofs.HostEnvironment.Turns
import RunControl.Proofs.Rpc.Locality

/-!
Resolutions that run at the same time come to the same as resolutions one after another.

However the moves of a schedule interleave, a host sees the sagas of its tasks one after another
in the order of their turns (`Standing`). Every move keeps a schedule `Ordered`, and so does
every row of moves (`Ordered.play`). Nothing is assumed of who answers but that hosts are kept
apart.
-/

namespace RunControl.HostEnvironment

variable {σ τ : Type}

/-! ### A resolution stays at its host -/

theorem event_staysAt (b : Binding) (name : String) (c : Call) :
    (c.event b name).request.StaysAt b.host := by
  cases c with
  | pause milliseconds => exact trivial
  | _ => exact rfl

theorem resolve_stays (b : Binding) (poll : PollBudget) :
    (resolve b poll).Only (Request.StaysAt b.host) := by
  intro events a course e member
  obtain ⟨forward, cleared, removed, ending, rfl, -⟩ := resolve_course course
  obtain ⟨c, -, rfl⟩ := List.mem_map.mp member
  exact event_staysAt b helperName c

namespace Schedule

/-! ### How a host stands -/

theorem inTurn_append (answer : Answerer σ) (poll : PollBudget) (first second : List Binding)
    (s : σ) : inTurn answer poll (first ++ second) s =
      ((inTurn answer poll first s).1 ++ (inTurn answer poll second (inTurn answer poll first s).2).1,
        (inTurn answer poll second (inTurn answer poll first s).2).2) := by
  induction first generalizing s with
  | nil => rfl
  | cons b first ih =>
      simp only [List.cons_append, inTurn]
      rw [ih]

/-- The results of tasks are those of their resolutions one after another. -/
def Settled (answer : Answerer σ) (poll : PollBudget) (s₀ : σ) (turns : List Turn)
    (results : Nat → Option Resolution) : Prop :=
  turns.map (fun a => results a.place) =
    (inTurn answer poll (turns.map Turn.binding) s₀).1.map some

/-- How a host stands after the turns of its tasks: seen from the host, either the resolutions
were played one after another, or the last of them is on its way and those before it were. -/
inductive Standing (answer : Answerer σ) (site : String → σ → τ) (poll : PollBudget) (s₀ : σ)
    (host : String) : List Turn → (Nat → Option (Plan Resolution)) → (Nat → Option Resolution) →
    σ → Prop where
  | free {turns : List Turn} {rests : Nat → Option (Plan Resolution)}
      {results : Nat → Option Resolution} {s : σ} (idle : ∀ place, rests place = none)
      (settled : Settled answer poll s₀ turns results)
      (same : site host s = site host (inTurn answer poll (turns.map Turn.binding) s₀).2) :
      Standing answer site poll s₀ host turns rests results s
  | held {turns : List Turn} {a : Turn} {rests : Nat → Option (Plan Resolution)}
      {results : Nat → Option Resolution} {past : List Event} {rest : Plan Resolution} {s mid : σ}
      (here : a.binding.host = host) (holds : rests a.place = some rest)
      (others : ∀ place, place ≠ a.place → rests place = none)
      (settled : Settled answer poll s₀ turns results)
      (reaches : Plan.Reaches answer (resolve a.binding poll)
        (inTurn answer poll (turns.map Turn.binding) s₀).2 past rest mid)
      (same : site host s = site host mid) :
      Standing answer site poll s₀ host (turns ++ [a]) rests results s

section Standing

variable {answer : Answerer σ} {site : String → σ → τ} {poll : PollBudget} {s₀ s s' : σ}
  {host : String} {turns : List Turn} {a : Turn} {place : Nat}
  {rests rests' : Nat → Option (Plan Resolution)} {results results' : Nat → Option Resolution}

theorem Settled.grow (settled : Settled answer poll s₀ turns results)
    (grows : ∀ place r, results place = some r → results' place = some r) :
    Settled answer poll s₀ turns results' := by
  unfold Settled
  rw [← settled]
  apply List.map_congr_left
  intro a member
  have found : results a.place ∈ turns.map fun a => results a.place := List.mem_map_of_mem member
  rw [settled] at found
  obtain ⟨r, -, same⟩ := List.mem_map.mp found
  rw [← same]
  exact grows a.place r same.symm

theorem Settled.snoc (settled : Settled answer poll s₀ turns results)
    (last : results a.place = some ((resolve a.binding poll).run answer
      (inTurn answer poll (turns.map Turn.binding) s₀).2).1) :
    Settled answer poll s₀ (turns ++ [a]) results := by
  unfold Settled at settled ⊢
  rw [List.map_append, List.map_append, inTurn_append, List.map_append, settled]
  simp only [List.map_cons, List.map_nil, last, inTurn]

/-- Who holds the lock of the host is the last who got it. -/
theorem Standing.eq_last {rest : Plan Resolution}
    (others : ∀ place, place ≠ a.place → rests place = none) (holds : rests place = some rest) :
    place = a.place := by
  by_contra other
  rw [others place other] at holds
  cases holds

/-- One task at most holds the lock of the host. -/
theorem Standing.alone (standing : Standing answer site poll s₀ host turns rests results s)
    {q : Nat} {rest rest' : Plan Resolution} (holds : rests place = some rest)
    (holds' : rests q = some rest') : place = q := by
  cases standing with
  | free idle => exact nomatch (idle place).symm.trans holds
  | held _ _ others => exact (eq_last others holds).trans (eq_last others holds').symm

/-- What the holder of the lock asks for stays at the host. -/
theorem Standing.stays (standing : Standing answer site poll s₀ host turns rests results s)
    {r : Request} {next : r.Answer → Plan Resolution} (holds : rests place = some (.ask r next)) :
    r.StaysAt host := by
  cases standing with
  | free idle => exact nomatch (idle place).symm.trans holds
  | held here held alone _ reaches =>
      obtain rfl := Standing.eq_last alone holds
      cases held.symm.trans holds
      exact (reaches.only (here ▸ resolve_stays _ poll)).first answer s

/-- What happens elsewhere does not change how a host stands. -/
theorem Standing.keep (standing : Standing answer site poll s₀ host turns rests results s)
    (still : ∀ place, rests' place = rests place)
    (grows : ∀ place r, results place = some r → results' place = some r)
    (same : site host s' = site host s) :
    Standing answer site poll s₀ host turns rests' results' s' := by
  cases standing with
  | free idle settled before =>
      exact .free (fun place => (still place).trans (idle place)) (settled.grow grows)
        (same.trans before)
  | held here holds others settled reaches before =>
      exact .held here ((still _).trans holds)
        (fun place other => (still place).trans (others place other)) (settled.grow grows) reaches
        (same.trans before)

/-- A task takes the lock when no other holds it, and its saga begins where the last ended. -/
theorem Standing.admit (standing : Standing answer site poll s₀ host turns rests results s)
    (here : a.binding.host = host) (idle : ∀ place, rests place = none)
    (takes : rests' a.place = some (resolve a.binding poll))
    (others : ∀ place, place ≠ a.place → rests' place = rests place)
    (grows : ∀ place r, results place = some r → results' place = some r) :
    Standing answer site poll s₀ host (turns ++ [a]) rests' results' s := by
  cases standing with
  | free _ settled same =>
      exact .held here takes (fun place other => (others place other).trans (idle place))
        (settled.grow grows) .start same
  | held _ holds => exact nomatch (idle _).symm.trans holds

/-- The task that holds the lock asks, and gets the answer that it gets when it is alone. -/
theorem Standing.ask (separate : Separate answer site)
    (standing : Standing answer site poll s₀ host turns rests results s) {r : Request}
    {next : r.Answer → Plan Resolution} (holds : rests place = some (.ask r next))
    (goes : rests' place = some (next (answer r s).1))
    (others : ∀ q, q ≠ place → rests' q = rests q)
    (grows : ∀ place r, results place = some r → results' place = some r) :
    Standing answer site poll s₀ host turns rests' results' (answer r s).2 := by
  cases standing with
  | free idle => exact nomatch (idle place).symm.trans holds
  | held here held alone settled reaches same =>
      obtain rfl := Standing.eq_last alone holds
      cases held.symm.trans holds
      have stays := reaches.only (here ▸ resolve_stays _ poll)
      obtain ⟨reply, after⟩ := separate.same (stays.first answer s) same
      rw [reply] at goes
      exact .held here goes (fun q other => (others q other).trans (alone q other))
        (settled.grow grows) reaches.ask after

/-- The task that holds the lock gives it up with the result that it has when it is alone. -/
theorem Standing.finish (standing : Standing answer site poll s₀ host turns rests results s)
    {result : Resolution} (holds : rests place = some (.done result))
    (gives : rests' place = none) (others : ∀ q, q ≠ place → rests' q = rests q)
    (ends : results' place = some result)
    (grows : ∀ place r, results place = some r → results' place = some r) :
    Standing answer site poll s₀ host turns rests' results' s := by
  cases standing with
  | free idle => exact nomatch (idle place).symm.trans holds
  | @held _ a _ _ _ _ _ mid here held alone settled reaches same =>
      obtain rfl := Standing.eq_last alone holds
      cases held.symm.trans holds
      have run := reaches.run
      refine .free (fun q => ?_) ((settled.grow grows).snoc ?_) ?_
      · by_cases last : q = a.place
        · exact last ▸ gives
        · exact (others q last).trans (alone q last)
      · rw [ends, run]
        rfl
      · rw [same, List.map_append, inTurn_append]
        simp only [List.map_cons, List.map_nil, inTurn]
        rw [run]
        rfl

end Standing

/-! ### Invariants of a schedule -/

/-- A task waits for or holds the lock of its host only. -/
def Locked (locks : HostLocks) (tasks : List Task) : Prop :=
  ∀ t ∈ tasks, ∀ lock, t.lock? = some lock →
    t.binding.host ∈ locks.hosts ∧ lock = (locks.lockFor t.binding.host).1

/-- The task of a turn has begun. -/
def Begun (tasks : List Task) (a : Turn) : Prop :=
  ∃ t, tasks[a.place]? = some t ∧ t.binding = a.binding ∧ t.hasBegun = true

/-- What holds of a schedule all along, with the turns so far. -/
structure Ordered (answer : Answerer σ) (site : String → σ → τ) (poll : PollBudget)
    (bindings : List Binding) (s₀ : σ) (order : List Turn) (s : Schedule σ) : Prop where
  bound : s.tasks.map Task.binding = bindings
  locked : Locked s.locks s.tasks
  nodup : (order.map Turn.place).Nodup
  mem_iff : ∀ a, a ∈ order ↔ Begun s.tasks a
  standing : ∀ host, Standing answer site poll s₀ host (order.filter (·.binding.host = host))
    (restAt s.tasks host) (resultAt s.tasks) s.world

section Invariants

variable {answer : Answerer σ} {site : String → σ → τ} {poll : PollBudget}
  {bindings : List Binding} {s₀ : σ} {order : List Turn} {s s' : Schedule σ} {turn : Option Turn}
  {locks : HostLocks} {tasks : List Task} {place : Nat} {t u : Task} {p : Progress}
  {attended : Bool}

theorem map_binding_set (here : tasks[place]? = some t) :
    (tasks.set place ⟨t.binding, p, attended⟩).map Task.binding = tasks.map Task.binding := by
  apply List.ext_getElem?
  intro q
  rw [List.getElem?_map, List.getElem?_map, getElem?_set_task here]
  split
  · rename_i last
    rw [last, here]
    rfl
  · rfl

theorem Moved.bound (moved : Moved answer poll s s' turn) :
    s'.tasks.map Task.binding = s.tasks.map Task.binding := by
  cases moved with
  | idle => rfl
  | arrived here | admitted here | asked here | finished here | abandoned here =>
      exact map_binding_set here

/-! ### Locks -/

/-- The making of a lock keeps the locks that tasks have. -/
theorem Locked.lockFor (locked : Locked locks tasks) (host : String) :
    Locked (locks.lockFor host).2 tasks := by
  intro t member lock has
  obtain ⟨known, same⟩ := locked t member lock has
  obtain ⟨still, kept⟩ := HostLocks.lockFor_keeps known host
  exact ⟨still, same.trans kept.symm⟩

theorem Locked.set (locked : Locked locks tasks)
    (changed : ∀ lock, u.lock? = some lock →
      u.binding.host ∈ locks.hosts ∧ lock = (locks.lockFor u.binding.host).1) :
    Locked locks (tasks.set place u) := by
  intro v member lock has
  rcases List.mem_or_eq_of_mem_set member with member | rfl
  · exact locked v member lock has
  · exact changed lock has

/-- A task that goes on has the lock that it had, if it has one. -/
theorem Locked.set_same (locked : Locked locks tasks) (here : tasks[place]? = some t)
    (kept : ∀ lock, Task.lock? ⟨t.binding, p, attended⟩ = some lock → t.lock? = some lock) :
    Locked locks (tasks.set place ⟨t.binding, p, attended⟩) :=
  locked.set fun lock has => locked t (List.mem_of_getElem? here) lock (kept lock has)

theorem Moved.locked (moved : Moved answer poll s s' turn) (locked : Locked s.locks s.tasks) :
    Locked s'.locks s'.tasks := by
  cases moved with
  | idle => exact locked
  | arrived here arrives =>
      refine (locked.lockFor _).set fun lock has => ⟨HostLocks.mem_lockFor _ _, ?_⟩
      cases has
      exact (congrArg Prod.fst (s.locks.lockFor_lockFor _)).symm
  | admitted here waits =>
      refine locked.set_same here fun lock has => ?_
      cases has
      simp only [Task.lock?, waits]
  | asked here holds =>
      refine locked.set_same here fun lock has => ?_
      cases has
      simp only [Task.lock?, holds]
  | finished here holds => exact locked.set_same here nofun
  | @abandoned place t here =>
      exact locked.set_same here fun lock has => t.abandon_lock? ▸ has

/-- When the lock of its host is free, no task about the host holds it. -/
theorem Locked.idle {s : Schedule σ} (locked : Locked s.locks s.tasks) {lock : Lock}
    (here : s.tasks[place]? = some t) (has : t.lock? = some lock) (free : s.isHeld lock = false)
    (q : Nat) : restAt s.tasks t.binding.host q = none := by
  obtain ⟨-, own⟩ := locked t (List.mem_of_getElem? here) lock has
  refine restAt_eq_none (fun u member sameHost => ?_) q
  cases rests : u.rest? with
  | none => rfl
  | some rest =>
      obtain ⟨held, progress⟩ := u.holding_of_rest? rests
      obtain ⟨-, own'⟩ := locked u member held (by simp only [Task.lock?, progress])
      obtain rfl : held = lock := by rw [own, own', sameHost]
      exact absurd progress (isHeld_eq_false_iff.mp free u member rest)

/-! ### Turns -/

theorem begun_set (here : tasks[place]? = some t) (a : Turn) :
    Begun (tasks.set place ⟨t.binding, p, attended⟩) a ↔
      if a.place = place then t.binding = a.binding ∧ Task.hasBegun ⟨t.binding, p, attended⟩ = true
      else Begun tasks a := by
  unfold Begun
  rw [getElem?_set_task here]
  split
  · simp
  · rfl

/-- A task that had its turn before it goes on has had it afterwards, and no other. -/
theorem begun_set_same (here : tasks[place]? = some t)
    (begun : Task.hasBegun ⟨t.binding, p, attended⟩ = t.hasBegun) (a : Turn) :
    Begun (tasks.set place ⟨t.binding, p, attended⟩) a ↔ Begun tasks a := by
  rw [begun_set here, begun]
  split
  · rename_i last
    simp [Begun, last, here]
  · rfl

/-- A turn that a move gives goes to a task that has not begun, and nothing else begins. -/
theorem Moved.begun (moved : Moved answer poll s s' turn) :
    (∀ a, turn = some a → ∀ b, ¬ Begun s.tasks ⟨a.place, b⟩) ∧
      ∀ a, Begun s'.tasks a ↔ Begun s.tasks a ∨ turn = some a := by
  have nothing {tasks' : List Task} (same : ∀ a, Begun tasks' a ↔ Begun s.tasks a) :
      (∀ a : Turn, none = some a → ∀ b, ¬ Begun s.tasks ⟨a.place, b⟩) ∧
        ∀ a, Begun tasks' a ↔ Begun s.tasks a ∨ none = some a :=
    ⟨nofun, fun a => (same a).trans (or_iff_left nofun).symm⟩
  cases moved with
  | idle => exact nothing fun a => Iff.rfl
  | arrived here arrives =>
      exact nothing fun a => begun_set_same here (by simp only [Task.hasBegun, arrives]) a
  | asked here holds =>
      exact nothing fun a => begun_set_same here (by simp only [Task.hasBegun, holds]) a
  | finished here holds =>
      exact nothing fun a => begun_set_same here (by simp only [Task.hasBegun, holds]) a
  | @abandoned place t here =>
      exact nothing fun a => begun_set_same here t.abandon_hasBegun a
  | @admitted place t lock here waits free =>
      have rests : t.hasBegun = false := by simp only [Task.hasBegun, waits]
      constructor
      · rintro _ ⟨⟩ b ⟨u, there, -, began⟩
        cases here.symm.trans there
        exact nomatch rests.symm.trans began
      · rintro ⟨q, b⟩
        refine Iff.trans (begun_set here _) ?_
        split
        · rename_i last
          obtain rfl : q = place := last
          have unbegun : ¬ Begun s.tasks ⟨q, b⟩ := by simp [Begun, here, rests]
          simp [unbegun, Task.hasBegun]
        · rename_i other
          have apart : place ≠ q := Ne.symm other
          simp [apart]

/-! ### Runs -/

/-- The result of a task does not change once there is one. -/
theorem Moved.grows (moved : Moved answer poll s s' turn) (q : Nat) (r : Resolution)
    (found : resultAt s.tasks q = some r) : resultAt s'.tasks q = some r := by
  cases moved with
  | idle => exact found
  | arrived here arrives =>
      exact resultAt_set_grows here (by simp only [Task.result?, arrives]) found
  | admitted here waits =>
      exact resultAt_set_grows here (by simp only [Task.result?, waits]) found
  | asked here holds =>
      exact resultAt_set_grows here (by simp only [Task.result?, holds]) found
  | finished here holds =>
      exact resultAt_set_grows here (by simp only [Task.result?, holds]) found
  | @abandoned place t here =>
      rw [resultAt_set here]
      split
      · rename_i last
        rw [Task.abandon_result?, ← found, last, resultAt, here]
        rfl
      · exact found

/-- A move keeps how every host stands, with the turn that it gives as the last. -/
theorem Moved.standing (separate : Separate answer site) (moved : Moved answer poll s s' turn)
    (locked : Locked s.locks s.tasks)
    (standing : ∀ host, Standing answer site poll s₀ host (order.filter (·.binding.host = host))
      (restAt s.tasks host) (resultAt s.tasks) s.world) (host : String) :
    Standing answer site poll s₀ host ((order ++ turn.toList).filter (·.binding.host = host))
      (restAt s'.tasks host) (resultAt s'.tasks) s'.world := by
  have before := standing host
  have grows := moved.grows
  cases moved with
  | idle =>
      rw [Option.toList_none, List.append_nil]
      exact before
  | arrived here arrives =>
      rw [Option.toList_none, List.append_nil]
      exact before.keep (restAt_set_same here (by simp only [Task.rest?, arrives]) host) grows rfl
  | @abandoned place t here =>
      rw [Option.toList_none, List.append_nil]
      exact before.keep (restAt_set_same here t.abandon_rest? host) grows rfl
  | @admitted place t lock here waits free =>
      rw [Option.toList_some, List.filter_append]
      by_cases own : t.binding.host = host
      · subst own
        rw [List.filter_cons_of_pos (by simp), List.filter_nil]
        have idle := locked.idle here (by simp only [Task.lock?, waits]) free
        exact before.admit rfl idle (restAt_set_here here)
          (fun q other => restAt_set_other here _ other) grows
      · rw [List.filter_cons_of_neg (by simpa using own), List.filter_nil, List.append_nil]
        exact before.keep (restAt_set_away here own) grows rfl
  | @asked place t lock r next here holds =>
      rw [Option.toList_none, List.append_nil]
      have asks : restAt s.tasks t.binding.host place = some (.ask r next) := by
        simp [restAt, here, Task.rest?, holds]
      by_cases own : t.binding.host = host
      · subst own
        exact before.ask separate asks (restAt_set_here here)
          (fun q other => restAt_set_other here _ other) grows
      · have stays := (standing t.binding.host).stays asks
        exact before.keep (restAt_set_away here own) grows (separate.away stays (Ne.symm own))
  | @finished place t lock result here holds =>
      rw [Option.toList_none, List.append_nil]
      by_cases own : t.binding.host = host
      · subst own
        have ends : restAt s.tasks t.binding.host place = some (.done result) := by
          simp [restAt, here, Task.rest?, holds]
        refine before.finish ends (restAt_set_here here)
          (fun q other => restAt_set_other here _ other) ?_ grows
        rw [resultAt_set here, if_pos rfl]
        rfl
      · exact before.keep (restAt_set_away here own) grows rfl

/-- One task at most for each host is between the first call of its saga and the last. -/
theorem Ordered.alone (ordered : Ordered answer site poll bindings s₀ order s) {i j : Nat}
    (atI : s.tasks[i]? = some t) (atJ : s.tasks[j]? = some u) (runsT : t.rest?.isSome = true)
    (runsU : u.rest?.isSome = true) (same : t.binding.host = u.binding.host) : i = j := by
  obtain ⟨rest, restT⟩ := Option.isSome_iff_exists.mp runsT
  obtain ⟨rest', restU⟩ := Option.isSome_iff_exists.mp runsU
  have holdsT := (restAt_of_task atI).trans restT
  have holdsU := (restAt_of_task atJ).trans restU
  rw [← same] at holdsU
  exact (ordered.standing t.binding.host).alone holdsT holdsU

/-- What one move preserves. -/
theorem Ordered.move (separate : Separate answer site)
    (ordered : Ordered answer site poll bindings s₀ order s)
    (moved : Moved answer poll s s' turn) :
    Ordered answer site poll bindings s₀ (order ++ turn.toList) s' := by
  obtain ⟨fresh, begun⟩ := moved.begun
  constructor
  case bound => exact moved.bound.trans ordered.bound
  case locked => exact moved.locked ordered.locked
  case standing => exact moved.standing separate ordered.locked ordered.standing
  case nodup =>
    cases turn with
    | none => simpa using ordered.nodup
    | some a =>
        rw [Option.toList_some, List.map_append, List.map_singleton, ← List.concat_eq_append]
        refine List.Nodup.concat (fun member => ?_) ordered.nodup
        obtain ⟨a', had, same⟩ := List.mem_map.mp member
        exact fresh a rfl a'.binding (same ▸ (ordered.mem_iff a').mp had)
  case mem_iff =>
    intro a
    rw [begun, List.mem_append, ordered.mem_iff, Option.mem_toList]

/-- What holds when the resolutions are about to begin. -/
theorem begin_ordered (answer : Answerer σ) (site : String → σ → τ) (poll : PollBudget)
    (locks : HostLocks) (bindings : List Binding) (s₀ : σ) :
    Ordered answer site poll bindings s₀ [] (begin locks bindings s₀) := by
  constructor
  case bound => simp [begin, newTask, Function.comp_def]
  case locked =>
    intro t member lock has
    simp only [Task.lock?, begin_arriving member] at has
    cases has
  case nodup => exact .nil
  case mem_iff =>
    intro a
    simp only [List.not_mem_nil, false_iff]
    rintro ⟨t, there, -, began⟩
    simp only [Task.hasBegun, begin_arriving (List.mem_of_getElem? there)] at began
    cases began
  case standing =>
    intro host
    refine .free (restAt_eq_none fun t member _ => ?_) rfl rfl
    simp only [Task.rest?, begin_arriving member]

/-- What any row of moves preserves. -/
theorem Ordered.play (separate : Separate answer site)
    (ordered : Ordered answer site poll bindings s₀ order s) (moves : List Move) :
    Ordered answer site poll bindings s₀ (order ++ s.turns answer poll moves)
      (s.play answer poll moves) := by
  induction moves generalizing order s with
  | nil => simpa [turns, Schedule.play] using ordered
  | cons m moves ih =>
      have rest := ih (ordered.move separate (move_moved answer poll s m))
      rwa [List.append_assoc] at rest

end Invariants

end Schedule

end RunControl.HostEnvironment
