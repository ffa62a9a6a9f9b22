import RunControl.Proofs.Rpc.Identifier
import RunControl.Proofs.Rpc.Locality
import RunControl.Proofs.Simulation.Served

/-!
Worlds that runs can come to.

A run begins in a fresh world. Any plans are played in it, answers are prepared, supervisors are set
up anew around the processes they have, and running processes and endpoints are put in place.
Processes get into a table by additions only, and by being put there, so whatever the run was, every
process has the identifier that its group and name make, and its group is one of those that the run
was about (`Reached.books`). So something is under the identifier of a process exactly if the process
is registered, unless another of the groups has the identifier too (`Reached.contains_iff`).
-/

namespace RunControl

/-- Whether a request adds a process at most for some groups. -/
def Request.AddsFor (groups : String → Prop) : Request → Prop
  | .order _ (.add group _ _) => groups group
  | .order .. | .command .. | .now | .pause _ => True

namespace Simulation

variable {groups : String → Prop} {w : World} {host : String}

/-! ### Single requests -/

theorem World.hosts_takePrepared (w : World) (host : String) (m : Method) :
    (w.takePrepared host m).2.hosts = w.hosts := by
  unfold takePrepared
  split <;> rfl

/-- Commands change no supervisor. -/
theorem World.hosts_answerCommand (w : World) (host : String) (port : UInt16) (command : String)
    (args : List String) : (w.answerCommand host port command args).2.hosts = w.hosts := by
  have taken := hosts_takePrepared (w.record (.command host port command args)) host .call
  unfold answerCommand
  dsimp only
  split
  · exact taken
  · split
    · exact taken
    · exact taken

/-- Commands use up nothing that is prepared for a supervisor. -/
theorem World.prepared_answerCommand (w : World) (host : String) (port : UInt16)
    (command : String) (args : List String) {other : String} {m : Method} (order : m ≠ .call) :
    (w.answerCommand host port command args).2.prepared other m = w.prepared other m := by
  have taken : ((w.record (.command host port command args)).takePrepared host .call).2.prepared
      other m = w.prepared other m := by
    unfold takePrepared
    split
    · rfl
    · simp [setPrepared, record, order]
  unfold answerCommand
  dsimp only
  split
  · exact taken
  · split
    · exact taken
    · exact taken

/-- A supervisor changes with a request only if this is an order that it answers itself. -/
theorem World.hosts_answer (r : Request) (w : World) (host : String) :
    (World.answer r w).2.hosts host = w.hosts host ∨
      ∃ o, r = .order host o ∧ (World.answer r w).2.hosts host = ((w.hosts host).answer o).2 := by
  cases r with
  | now => exact .inl rfl
  | pause milliseconds => exact .inl rfl
  | command other port command args =>
      exact .inl (congrFun (hosts_answerCommand w other port command args) host)
  | order other o =>
      have taken := hosts_takePrepared (w.record (.order other o)) other (.ofOrder o)
      simp only [World.answer, answerOrder]
      split
      · exact .inl (congrFun taken host)
      · by_cases here : host = other
        · subst here
          refine .inr ⟨o, rfl, ?_⟩
          rw [taken]
          exact if_pos rfl
        · refine .inl ?_
          rw [setHost, taken]
          exact if_neg here

/-! ### Runs -/

/-- The worlds that runs come to in which processes are added only for some groups. -/
inductive Reached (groups : String → Prop) : World → Prop where
  | fresh (now : String) : Reached groups (.fresh now)
  | played {w : World} {α : Type} {p : Plan α} (before : Reached groups w)
      (adds : p.Only (Request.AddsFor groups)) : Reached groups (w.play p).2
  | prepared {w : World} (before : Reached groups w) (host : String) (m : Method)
      (answers : List Prepared) : Reached groups (w.setPrepared host m answers)
  /-- Methods are made to fail, the supervisor is cut off, or its helpers behave otherwise. -/
  | setUp {w : World} (before : Reached groups w) {host : String} {h : Host}
      (same : h.processes = (w.hosts host).processes) : Reached groups (w.setHost host h)
  | inserted {w : World} (before : Reached groups w) (host : String) {group : String}
      (allowed : groups group) (name command : String) :
      Reached groups (w.onHost host fun h => h.insertRunning group name command)
  | served {w : World} (before : Reached groups w) (host : String) (port : UInt16) (e : Endpoint) :
      Reached groups (w.setEndpoint host port e)

/-- A process under an identifier belongs there, and to one of the groups. -/
def Booked (groups : String → Prop) (id : String) (program : String × String × Table String) :
    Prop :=
  Belongs id program ∧ groups program.1

/-- A request whose addition is allowed leaves every process where it belongs. -/
theorem books_answer {r : Request} (adds : r.AddsFor groups)
    (books : Each (Booked groups) (w.hosts host).processes) :
    Each (Booked groups) ((World.answer r w).2.hosts host).processes := by
  rcases World.hosts_answer r w host with same | ⟨o, rfl, same⟩
  · rw [same]
    exact books
  · rw [same]
    refine (Host.answer_answers o (w.hosts host)).each books fun group name settings added => ?_
    subst added
    exact ⟨rfl, adds⟩

/-- So does a plan all of whose additions are. -/
theorem books_play {α : Type} {p : Plan α} (adds : p.Only (Request.AddsFor groups))
    (books : Each (Booked groups) (w.hosts host).processes) :
    Each (Booked groups) ((w.play p).2.hosts host).processes :=
  adds.keeps (fun w : World => Each (Booked groups) (w.hosts host).processes)
    (fun _ _ adds books => books_answer adds books) books

/-- Whatever a run was, every process has the identifier that its group and name make, and belongs
to one of the groups that processes were added for. -/
theorem Reached.books (reached : Reached groups w) (host : String) :
    Each (Booked groups) (w.hosts host).processes := by
  induction reached generalizing host with
  | fresh now => exact fun _ _ found => nomatch found
  | played before adds ih => exact books_play adds (ih host)
  | prepared before other m answers ih => exact ih host
  | served before other port e ih => exact ih host
  | setUp before same ih =>
      unfold World.setHost
      dsimp only
      split
      · rename_i here
        rw [same, ← here]
        exact ih host
      · exact ih host
  | inserted before other allowed name command ih =>
      unfold World.onHost World.setHost
      dsimp only
      split
      · exact (ih other).insert ⟨rfl, allowed⟩
      · exact ih host

theorem Reached.keyed (reached : Reached groups w) (host : String) :
    Keyed (w.hosts host).processes :=
  fun id p found => (reached.books host id p found).1

/-- No other of the groups has the identifier of a process. -/
def Alone (groups : String → Prop) (b : Binding) (name : String) : Prop :=
  ∀ group name', groups group → qualified group name' = b.identifier name → group = b.group

/-- Among all groups this is so exactly if there is no colon in the group and the name. -/
theorem alone_iff {b : Binding} {name : String} :
    Alone (fun _ => True) b name ↔ ':' ∉ b.group.toList ∧ ':' ∉ name.toList := by
  rw [← qualified_unique_iff]
  constructor
  · intro alone group name' same
    obtain rfl := alone group name' trivial same
    exact ⟨rfl, qualified_inj.mp same⟩
  · intro unique group name' _ same
    exact (unique group name' same).1

/-- Where no other of the groups has a process's identifier, something is under the identifier
exactly if the process is registered. -/
theorem Reached.contains_iff (reached : Reached groups w) {b : Binding} {name : String}
    (alone : Alone groups b name) :
    (w.hosts host).processes.contains (b.identifier name) = true ↔
      registers b name (w.hosts host).processes = true := by
  constructor
  · intro there
    obtain ⟨p, found⟩ := Option.isSome_iff_exists.mp there
    obtain ⟨keyed, allowed⟩ := reached.books host _ p found
    have own : p.group = b.group := alone p.group p.name allowed keyed.symm
    have named : b.identifier name = qualified p.group p.name := keyed
    rw [own, Binding.identifier, qualified_inj] at named
    exact registers_iff.mpr ⟨_, p, found, by simp [owns, own, named]⟩
  · intro there
    obtain ⟨id, p, found, own⟩ := registers_iff.mp there
    rw [← (reached.keyed host).at_identifier found own, Table.contains, found]
    rfl

end Simulation

end RunControl
