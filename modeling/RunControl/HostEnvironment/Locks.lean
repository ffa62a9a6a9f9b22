/-!
One lock for each host on which helpers run.

A lock is made when its host is first named and stays the same from then on, so two
requests share a lock exactly when they name the same host (`lockFor_eq_iff`).
-/

namespace RunControl.HostEnvironment

/-- A lock, by its place among the locks that were made. -/
abbrev Lock := Nat

/-- The locks made so far, as the hosts they are for in the order of their making. -/
structure HostLocks where
  hosts : List String
  deriving DecidableEq, Repr

namespace HostLocks

/-- No locks. -/
def empty : HostLocks :=
  ⟨[]⟩

/-- The lock of a host, made if there is none yet. -/
def lockFor (l : HostLocks) (host : String) : Lock × HostLocks :=
  (l.hosts.idxOf host, if l.hosts.contains host then l else ⟨l.hosts ++ [host]⟩)

/-- The locks of hosts that are asked for one after another. -/
def lockAll (l : HostLocks) : List String → List Lock × HostLocks
  | [] => ([], l)
  | host :: r =>
    let (lock, l) := l.lockFor host
    let (locks, l) := l.lockAll r
    (lock :: locks, l)

/-- For each host the place of the first one with the same lock. -/
def firstSharing (hosts : List String) : List Nat :=
  let locks := (empty.lockAll hosts).1
  locks.map fun lock => locks.idxOf lock

/-- A later request for a lock gives the one made first. -/
theorem lockFor_lockFor (l : HostLocks) (host : String) :
    (l.lockFor host).2.lockFor host = ((l.lockFor host).1, (l.lockFor host).2) := by
  unfold lockFor
  by_cases h : l.hosts.contains host
  · simp only [h, if_true]
  · simp only [h, Bool.false_eq_true, if_false]
    have notIn : host ∉ l.hosts := by simpa using h
    rw [List.idxOf_append, if_neg notIn, List.idxOf_eq_length notIn]
    simp

/-- The host of a lock that was asked for is in the table. -/
theorem mem_lockFor (l : HostLocks) (host : String) : host ∈ (l.lockFor host).2.hosts := by
  unfold lockFor
  dsimp only
  split
  · rename_i known
    simpa using known
  · exact List.mem_append_right _ (.head _)

/-- The making of a lock keeps the locks that were made. -/
theorem lockFor_keeps {l : HostLocks} {other : String} (known : other ∈ l.hosts) (host : String) :
    other ∈ (l.lockFor host).2.hosts ∧
      ((l.lockFor host).2.lockFor other).1 = (l.lockFor other).1 := by
  unfold lockFor
  dsimp only
  split
  · exact ⟨known, rfl⟩
  · refine ⟨List.mem_append_left _ known, ?_⟩
    rw [List.idxOf_append, if_pos known]

/-- A host that has a lock shares it with no other host: from one table, two hosts get
the same lock exactly when they are the same. -/
theorem lockFor_eq_iff {l : HostLocks} {host other : String} (known : host ∈ l.hosts) :
    (l.lockFor host).1 = (l.lockFor other).1 ↔ host = other := by
  constructor
  · intro h
    have same : l.hosts.idxOf host = l.hosts.idxOf other := h
    have lt : l.hosts.idxOf host < l.hosts.length := List.idxOf_lt_length_of_mem known
    have lt' : l.hosts.idxOf other < l.hosts.length := same ▸ lt
    rw [← List.getElem_idxOf lt, ← List.getElem_idxOf lt']
    simp only [same]
  · rintro rfl
    rfl

end HostLocks

end RunControl.HostEnvironment
