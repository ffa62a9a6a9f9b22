import RunControl.HostEnvironment.Locks
import RunControl.HostEnvironment.Saga

/-!
Resolutions that run at the same time.

Each resolution is a task that gets the lock of its host, waits until no other task
holds it, and then plays the helper's saga one request at a time. A schedule is a list
of moves; a move that a lock forbids changes nothing. A caller may go away at any time.
When it has not asked for the lock yet, nothing comes of its resolution; after that the
task runs on, and only its result is lost.
-/

namespace RunControl.HostEnvironment

open Exports (Environment)

/-- What a resolution gives. -/
abbrev Resolution := Except RpcError Environment

/-- How far a task has come. -/
inductive Progress where
  /-- The lock of its host is still to be asked for. -/
  | arriving
  | waiting (lock : Lock)
  | holding (lock : Lock) (rest : Plan Resolution)
  | finished (result : Resolution)
  /-- Its caller went away before the lock was asked for. -/
  | withdrawn

/-- A resolution under way. -/
structure Task where
  binding : Binding
  progress : Progress
  /-- Whether its caller still waits for the result. -/
  attended : Bool

/-- A task whose caller goes away: it is withdrawn while it arrives, and goes on later. -/
def Task.abandon (t : Task) : Task :=
  { t with
    attended := false
    progress := match t.progress with
      | .arriving => .withdrawn
      | p => p }

/-- The tasks of one resolver, its locks, and whoever answers. -/
structure Schedule (σ : Type) where
  locks : HostLocks
  tasks : List Task
  world : σ

/-- A choice of the scheduler. -/
inductive Move where
  /-- The task at a place goes on by one step. -/
  | advance (task : Nat)
  /-- The caller of the task at a place goes away. -/
  | abandon (task : Nat)
  deriving DecidableEq, Repr

namespace Schedule

variable {σ : Type}

/-- A task before its first step. -/
def newTask (b : Binding) : Task :=
  ⟨b, .arriving, true⟩

/-- Resolutions that are about to begin. -/
def begin (locks : HostLocks) (bindings : List Binding) (world : σ) : Schedule σ :=
  ⟨locks, bindings.map newTask, world⟩

/-- Whether a task holds a lock. -/
def isHeld (s : Schedule σ) (lock : Lock) : Bool :=
  s.tasks.any fun t => match t.progress with
    | .holding held _ => held = lock
    | _ => false

/-- The schedule with a task's progress changed. -/
def setProgress (s : Schedule σ) (place : Nat) (t : Task) (p : Progress) : Schedule σ :=
  { s with tasks := s.tasks.set place { t with progress := p } }

/-- One step of the task at a place. -/
def advance (answer : Answerer σ) (poll : PollBudget) (place : Nat) (s : Schedule σ) :
    Schedule σ :=
  match s.tasks[place]? with
  | none => s
  | some t =>
    match t.progress with
    | .arriving =>
      let (lock, locks) := s.locks.lockFor t.binding.host
      { s with locks := locks }.setProgress place t (.waiting lock)
    | .waiting lock =>
      if s.isHeld lock then s else s.setProgress place t (.holding lock (resolve t.binding poll))
    | .holding _ (.done result) => s.setProgress place t (.finished result)
    | .holding lock (.ask r next) =>
      let (reply, world) := answer r s.world
      { s with world := world }.setProgress place t (.holding lock (next reply))
    | .finished _ | .withdrawn => s

/-- One move. -/
def move (answer : Answerer σ) (poll : PollBudget) (s : Schedule σ) : Move → Schedule σ
  | .advance place => s.advance answer poll place
  | .abandon place => { s with tasks := s.tasks.modify place Task.abandon }

/-- A row of moves. -/
def play (answer : Answerer σ) (poll : PollBudget) (s : Schedule σ) (moves : List Move) :
    Schedule σ :=
  moves.foldl (move answer poll) s

/-- The result of a task that has one. -/
def Task.result? (t : Task) : Option Resolution :=
  match t.progress with
  | .finished result => some result
  | _ => none

/-- What the callers that still wait have got. -/
def results (s : Schedule σ) : List (Option Resolution) :=
  s.tasks.map fun t => if t.attended then Task.result? t else none

/-! ### One after another -/

/-- Plays whole resolutions one after another. -/
def inTurn (answer : Answerer σ) (poll : PollBudget) :
    List Binding → σ → List Resolution × σ
  | [], world => ([], world)
  | b :: r, world =>
    let (result, world) := (resolve b poll).run answer world
    let (results, world) := inTurn answer poll r world
    (result :: results, world)

/-- Lets the task at a place go on until it is finished, if no other task holds its
lock: the steps of `advance` taken at once. -/
def complete (answer : Answerer σ) (poll : PollBudget) (place : Nat) (s : Schedule σ) :
    Schedule σ :=
  let s := s.advance answer poll place
  let s := s.advance answer poll place
  match s.tasks[place]? with
  | none => s
  | some t =>
    match t.progress with
    | .holding _ rest =>
      let (result, world) := rest.run answer s.world
      { s with world := world }.setProgress place t (.finished result)
    | _ => s

end Schedule

end RunControl.HostEnvironment
