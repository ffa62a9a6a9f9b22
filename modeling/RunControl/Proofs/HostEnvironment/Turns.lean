import Mathlib.Data.List.Basic
import RunControl.HostEnvironment.Schedule

/-!
Turns of resolutions that run at the same time.

A task has its turn when it takes the lock of its host; `Schedule.turns` gives the turns of a
row of moves in order. What a move can do is listed once in `Moved`, and `move_moved` says that
there is nothing else: one task goes on at most.
-/

namespace RunControl.HostEnvironment

variable {σ : Type}

/-! ### Tasks by place -/

/-- What is left of the saga of a task that holds its lock. -/
def Task.rest? (t : Task) : Option (Plan Resolution) :=
  match t.progress with
  | .holding _ rest => some rest
  | _ => none

/-- The lock that a task waits for or holds. -/
def Task.lock? (t : Task) : Option Lock :=
  match t.progress with
  | .waiting lock | .holding lock _ => some lock
  | _ => none

/-- Whether a task has had its turn, or has it. -/
def Task.hasBegun (t : Task) : Bool :=
  match t.progress with
  | .holding .. | .finished _ => true
  | _ => false

theorem Task.abandon_rest? (t : Task) : t.abandon.rest? = t.rest? := by
  unfold rest? abandon
  cases t.progress <;> rfl

theorem Task.abandon_lock? (t : Task) : t.abandon.lock? = t.lock? := by
  unfold lock? abandon
  cases t.progress <;> rfl

theorem Task.abandon_hasBegun (t : Task) : t.abandon.hasBegun = t.hasBegun := by
  unfold hasBegun abandon
  cases t.progress <;> rfl

theorem Task.holding_of_rest? {t : Task} {rest : Plan Resolution} (holds : t.rest? = some rest) :
    ∃ lock, t.progress = .holding lock rest := by
  unfold rest? at holds
  split at holds
  · rename_i lock _ progress
    cases holds
    exact ⟨lock, progress⟩
  · cases holds

/-- A task that has had its lock took it once: its place, and what it resolves. -/
structure Turn where
  place : Nat
  binding : Binding
  deriving DecidableEq, Repr

namespace Schedule

theorem Task.abandon_result? (t : Task) : Task.result? t.abandon = Task.result? t := by
  unfold result? Task.abandon
  cases t.progress <;> rfl

/-- What is left of the saga of the task at a place, if the task is about a host and holds its
lock. -/
def restAt (tasks : List Task) (host : String) (place : Nat) : Option (Plan Resolution) :=
  tasks[place]?.bind fun t => if t.binding.host = host then t.rest? else none

/-- The result of the task at a place, if it has one. -/
def resultAt (tasks : List Task) (place : Nat) : Option Resolution :=
  tasks[place]?.bind Task.result?

section Places

variable {tasks : List Task} {place : Nat} {t u : Task} {p : Progress} {attended : Bool}

theorem getElem?_set_task (here : tasks[place]? = some t) (q : Nat) :
    (tasks.set place u)[q]? = if q = place then some u else tasks[q]? := by
  obtain ⟨inside, -⟩ := List.getElem?_eq_some_iff.mp here
  rw [List.getElem?_set]
  by_cases same : q = place
  · rw [if_pos same.symm, if_pos same, if_pos inside]
  · rw [if_neg (Ne.symm same), if_neg same]

theorem restAt_of_task (here : tasks[place]? = some t) :
    restAt tasks t.binding.host place = t.rest? := by
  simp [restAt, here]

/-- Nothing is left for a host of whose tasks none holds its lock. -/
theorem restAt_eq_none {host : String}
    (idle : ∀ t ∈ tasks, t.binding.host = host → t.rest? = none) (q : Nat) :
    restAt tasks host q = none := by
  unfold restAt
  cases there : tasks[q]? with
  | none => rfl
  | some t =>
      rw [Option.bind_some]
      split
      · rename_i own
        exact idle t (List.mem_of_getElem? there) own
      · rfl

theorem restAt_set (here : tasks[place]? = some t) (host : String) (q : Nat) :
    restAt (tasks.set place ⟨t.binding, p, attended⟩) host q =
      if q = place then if t.binding.host = host then Task.rest? ⟨t.binding, p, attended⟩ else none
      else restAt tasks host q := by
  unfold restAt
  rw [getElem?_set_task here]
  split
  · rfl
  · rfl

theorem resultAt_set (here : tasks[place]? = some t) (q : Nat) :
    resultAt (tasks.set place u) q =
      if q = place then Task.result? u else resultAt tasks q := by
  unfold resultAt
  rw [getElem?_set_task here]
  split
  · rfl
  · rfl

theorem restAt_set_here (here : tasks[place]? = some t) :
    restAt (tasks.set place ⟨t.binding, p, attended⟩) t.binding.host place =
      Task.rest? ⟨t.binding, p, attended⟩ := by
  rw [restAt_set here, if_pos rfl, if_pos rfl]

theorem restAt_set_other (here : tasks[place]? = some t) (host : String) {q : Nat}
    (other : q ≠ place) :
    restAt (tasks.set place ⟨t.binding, p, attended⟩) host q = restAt tasks host q := by
  rw [restAt_set here, if_neg other]

/-- When a task goes on and the rest of its saga stays, nothing changes for any host. -/
theorem restAt_set_same (here : tasks[place]? = some t)
    (rests : Task.rest? ⟨t.binding, p, attended⟩ = t.rest?) (host : String) (q : Nat) :
    restAt (tasks.set place ⟨t.binding, p, attended⟩) host q = restAt tasks host q := by
  rw [restAt_set here, rests]
  split
  · rename_i last
    rw [last, restAt, here]
    rfl
  · rfl

/-- When a task about another host goes on, nothing changes for a host. -/
theorem restAt_set_away (here : tasks[place]? = some t) {host : String}
    (away : t.binding.host ≠ host) (q : Nat) :
    restAt (tasks.set place ⟨t.binding, p, attended⟩) host q = restAt tasks host q := by
  rw [restAt_set here, if_neg away]
  split
  · rename_i last
    rw [last, restAt, here]
    exact (if_neg away).symm
  · rfl

/-- Results stay if the task that changes had none. -/
theorem resultAt_set_grows (here : tasks[place]? = some t) (before : Task.result? t = none)
    {q : Nat} {r : Resolution} (found : resultAt tasks q = some r) :
    resultAt (tasks.set place u) q = some r := by
  rw [resultAt_set here]
  split
  · rename_i last
    rw [last, resultAt, here, Option.bind_some, before] at found
    cases found
  · exact found

end Places

theorem isHeld_eq_false_iff {s : Schedule σ} {lock : Lock} : s.isHeld lock = false ↔
    ∀ t ∈ s.tasks, ∀ rest, t.progress ≠ .holding lock rest := by
  unfold isHeld
  rw [List.any_eq_false]
  constructor
  · intro free t member rest holds
    have unheld := free t member
    rw [holds] at unheld
    exact unheld (decide_eq_true rfl)
  · intro free t member held
    cases progress : t.progress with
    | holding other rest =>
        rw [progress] at held
        obtain rfl : other = lock := of_decide_eq_true held
        exact free t member rest progress
    | _ =>
        rw [progress] at held
        cases held

/-- In the beginning every task is still to ask for its lock. -/
theorem begin_arriving {locks : HostLocks} {bindings : List Binding} {w : σ} {t : Task}
    (member : t ∈ (begin locks bindings w).tasks) : t.progress = .arriving := by
  obtain ⟨b, -, rfl⟩ := List.mem_map.mp member
  rfl

/-! ### What a move does -/

/-- The turn that a move gives. -/
def turn? (s : Schedule σ) : Move → Option Turn
  | .advance place =>
    match s.tasks[place]? with
    | none => none
    | some t =>
      match t.progress with
      | .waiting lock => if s.isHeld lock then none else some ⟨place, t.binding⟩
      | _ => none
  | .abandon _ => none

/-- The turns that a row of moves gives, in order. -/
def turns (answer : Answerer σ) (poll : PollBudget) (s : Schedule σ) : List Move → List Turn
  | [] => []
  | m :: moves => (s.turn? m).toList ++ (s.move answer poll m).turns answer poll moves

/-- What a move makes of a schedule, and the turn that it gives: nothing happens, or one task
goes on. -/
inductive Moved (answer : Answerer σ) (poll : PollBudget) (s : Schedule σ) :
    Schedule σ → Option Turn → Prop where
  | idle : Moved answer poll s s none
  | arrived {place : Nat} {t : Task} (here : s.tasks[place]? = some t)
      (arrives : t.progress = .arriving) :
      Moved answer poll s
        ⟨(s.locks.lockFor t.binding.host).2,
          s.tasks.set place { t with progress := .waiting (s.locks.lockFor t.binding.host).1 },
          s.world⟩ none
  | admitted {place : Nat} {t : Task} {lock : Lock} (here : s.tasks[place]? = some t)
      (waits : t.progress = .waiting lock) (free : s.isHeld lock = false) :
      Moved answer poll s
        ⟨s.locks, s.tasks.set place { t with progress := .holding lock (resolve t.binding poll) },
          s.world⟩ (some ⟨place, t.binding⟩)
  | asked {place : Nat} {t : Task} {lock : Lock} {r : Request}
      {next : r.Answer → Plan Resolution} (here : s.tasks[place]? = some t)
      (holds : t.progress = .holding lock (.ask r next)) :
      Moved answer poll s
        ⟨s.locks,
          s.tasks.set place { t with progress := .holding lock (next (answer r s.world).1) },
          (answer r s.world).2⟩ none
  | finished {place : Nat} {t : Task} {lock : Lock} {result : Resolution}
      (here : s.tasks[place]? = some t) (holds : t.progress = .holding lock (.done result)) :
      Moved answer poll s
        ⟨s.locks, s.tasks.set place { t with progress := .finished result }, s.world⟩ none
  | abandoned {place : Nat} {t : Task} (here : s.tasks[place]? = some t) :
      Moved answer poll s ⟨s.locks, s.tasks.set place t.abandon, s.world⟩ none

/-- There is nothing else that a move can do. -/
theorem move_moved (answer : Answerer σ) (poll : PollBudget) (s : Schedule σ) (m : Move) :
    Moved answer poll s (s.move answer poll m) (s.turn? m) := by
  cases m with
  | advance place =>
      cases here : s.tasks[place]? with
      | none =>
          simp only [move, advance, turn?, here]
          exact .idle
      | some t =>
          cases progress : t.progress with
          | arriving =>
              simp only [move, advance, turn?, here, progress]
              exact .arrived here progress
          | waiting lock =>
              cases free : s.isHeld lock with
              | true =>
                  simp only [move, advance, turn?, here, progress, free]
                  exact .idle
              | false =>
                  simp only [move, advance, turn?, here, progress, free]
                  exact .admitted here progress free
          | holding lock rest =>
              cases rest with
              | done result =>
                  simp only [move, advance, turn?, here, progress]
                  exact .finished here progress
              | ask r next =>
                  simp only [move, advance, turn?, here, progress]
                  exact .asked here progress
          | finished result =>
              simp only [move, advance, turn?, here, progress]
              exact .idle
          | withdrawn =>
              simp only [move, advance, turn?, here, progress]
              exact .idle
  | abandon place =>
      cases here : s.tasks[place]? with
      | none =>
          have same : s.tasks.modify place Task.abandon = s.tasks := by
            rw [List.modify_eq_set_getElem?, here]
            rfl
          simp only [move, turn?, same]
          exact .idle
      | some t =>
          have same : s.tasks.modify place Task.abandon = s.tasks.set place t.abandon := by
            rw [List.modify_eq_set_getElem?, here]
            rfl
          simp only [move, turn?, same]
          exact .abandoned here

end Schedule

end RunControl.HostEnvironment
