import RunControl.HostEnvironment.Saga
import RunControl.Proofs.Supervisor.Call

/-!
The courses of a resolution, whoever answers.

`Attempted` lists the ways in which the forward part of the saga can go and the stage and
outcome each ends in. A resolution is such an attempt followed by what its stage owes
(`resolve_course`): at most one clearing of the logs, then at most one removal.
-/

namespace RunControl.HostEnvironment

open Utf8 (Bytes)

variable {b : Binding} {poll : PollBudget} {events : List Event}

/-! ### Waiting -/

/-- Whether an answer to the question for its record shows the helper at rest. -/
def showsRest (answer : Except RpcError ProcessInfo) : Bool :=
  (Binding.stateOf answer).isTerminal

/-- `Polls interval n calls`: in `calls` the helper was asked for `n` times, never shown at
rest, and every question was followed by a pause. -/
inductive Polls (interval : Nat) : Nat → List Call → Prop where
  | none : Polls interval 0 []
  | more {n : Nat} {calls : List Call} {answer : Except RpcError ProcessInfo}
      (busy : showsRest answer = false) (rest : Polls interval n calls) :
      Polls interval (n + 1) (.info answer :: .pause interval :: calls)

/-- The calls of a wait with a number of pauses to spare, and whether the helper came to
rest. -/
inductive Awaited (interval attempts : Nat) : List Call → Bool → Prop where
  | rested {n : Nat} {polls : List Call} {last : Except RpcError ProcessInfo}
      (polling : Polls interval n polls) (inTime : n ≤ attempts) (rests : showsRest last = true) :
      Awaited interval attempts (polls ++ [.info last]) true
  | late {polls : List Call} {last : Except RpcError ProcessInfo} {reply : Except RpcError Unit}
      (polling : Polls interval attempts polls) (busy : showsRest last = false) :
      Awaited interval attempts (polls ++ [.info last, .stop reply]) false

/-- One more poll before a wait. -/
theorem Awaited.again {interval attempts : Nat} {calls : List Call} {rested : Bool}
    {answer : Except RpcError ProcessInfo} (busy : showsRest answer = false)
    (wait : Awaited interval attempts calls rested) :
    Awaited interval (attempts + 1) (.info answer :: .pause interval :: calls) rested := by
  cases wait with
  | rested polling inTime rests => exact .rested (.more busy polling) (by omega) rests
  | late polling still => exact .late (.more busy polling) still

/-- A wait goes in one of the ways of `Awaited`. -/
theorem await_course {interval attempts : Nat} {rested : Bool}
    (course : (await b interval attempts).Course events rested) :
    ∃ calls, events = calls.map (Call.event b helperName) ∧
      Awaited interval attempts calls rested := by
  induction attempts generalizing events with
  | zero =>
      obtain ⟨_, l, _, rfl, asked, rest⟩ := Plan.course_bind_iff.mp course
      obtain ⟨answer, rfl, rfl⟩ := Binding.state_course asked
      by_cases rests : (Binding.stateOf answer).isTerminal
      · rw [if_pos rests] at rest
        obtain ⟨rfl, rfl⟩ := Plan.course_pure_iff.mp rest
        exact ⟨[.info answer], rfl, .rested .none (Nat.le_refl 0) rests⟩
      · rw [if_neg rests] at rest
        obtain ⟨reply, _, rfl, ended⟩ := Binding.order_bind_course rest
        obtain ⟨rfl, rfl⟩ := Plan.course_pure_iff.mp ended
        exact ⟨[.info answer, .stop reply], rfl, .late .none (Bool.eq_false_iff.mpr rests)⟩
  | succ attempts ih =>
      obtain ⟨_, l, _, rfl, asked, rest⟩ := Plan.course_bind_iff.mp course
      obtain ⟨answer, rfl, rfl⟩ := Binding.state_course asked
      by_cases rests : (Binding.stateOf answer).isTerminal
      · rw [if_pos rests] at rest
        obtain ⟨rfl, rfl⟩ := Plan.course_pure_iff.mp rest
        exact ⟨[.info answer], rfl, .rested .none (Nat.zero_le _) rests⟩
      · rw [if_neg rests] at rest
        obtain ⟨_, u, _, rfl, paused, more⟩ := Plan.course_bind_iff.mp rest
        obtain rfl := Plan.course_request_iff.mp paused
        obtain ⟨calls, rfl, wait⟩ := ih more
        exact ⟨.info answer :: .pause interval :: calls, rfl,
          wait.again (Bool.eq_false_iff.mpr rests)⟩

/-! ### Launching -/

/-- The calls of a launch and how it ends. -/
inductive Launched (b : Binding) (poll : PollBudget) : List Call → Ending → Prop where
  | refused {e : RpcError} {reply : Except RpcError Bytes} :
      Launched b poll [.start (.error e), .read .stderr reply] ⟨.registered, .error e⟩
  | late {calls : List Call} (wait : Awaited poll.interval poll.attempts calls false) :
      Launched b poll (.start (.ok ()) :: calls) ⟨.started, .error (.timeout (awaited b))⟩
  | unread {calls : List Call} {e : RpcError}
      (wait : Awaited poll.interval poll.attempts calls true) :
      Launched b poll (.start (.ok ()) :: (calls ++ [.read .stdout (.error e)]))
        ⟨.completed, .error e⟩
  | read {calls : List Call} {log : Bytes}
      (wait : Awaited poll.interval poll.attempts calls true) :
      Launched b poll (.start (.ok ()) :: (calls ++ [.read .stdout (.ok log)]))
        ⟨.logRead, .ok (Utf8.decodeLossy log)⟩

/-- A launch goes in one of the ways of `Launched`. -/
theorem launch_course {ending : Ending} (course : (launch b poll).Course events ending) :
    ∃ calls, events = calls.map (Call.event b helperName) ∧ Launched b poll calls ending := by
  obtain ⟨reply, _, rfl, rest⟩ := Binding.order_bind_course course
  cases reply with
  | error e =>
      obtain ⟨reply, _, rfl, ended⟩ := Binding.order_bind_course rest
      obtain ⟨rfl, rfl⟩ := Plan.course_pure_iff.mp ended
      exact ⟨[.start (.error e), .read .stderr reply], rfl, .refused⟩
  | ok u =>
      obtain ⟨_, rested, _, rfl, waited, rest⟩ := Plan.course_bind_iff.mp rest
      obtain ⟨calls, rfl, wait⟩ := await_course waited
      cases rested with
      | false =>
          obtain ⟨rfl, rfl⟩ := Plan.course_pure_iff.mp rest
          exact ⟨.start (.ok u) :: calls, by rw [List.append_nil]; rfl, .late wait⟩
      | true =>
          obtain ⟨reply, _, rfl, ended⟩ := Binding.order_bind_course rest
          cases reply with
          | error e =>
              obtain ⟨rfl, rfl⟩ := Plan.course_pure_iff.mp ended
              exact ⟨.start (.ok u) :: (calls ++ [.read .stdout (.error e)]),
                by rw [List.map_cons, List.map_append]; rfl, .unread wait⟩
          | ok log =>
              obtain ⟨rfl, rfl⟩ := Plan.course_pure_iff.mp ended
              exact ⟨.start (.ok u) :: (calls ++ [.read .stdout (.ok log)]),
                by rw [List.map_cons, List.map_append]; rfl, .read wait⟩

/-! ### Getting hold of the helper -/

/-- The calls after which the helper is registered and known not to run. -/
inductive Obtained (b : Binding) : List Call → Prop where
  | added {listing : Except RpcError (List ProcessInfo)}
      (absent : b.lists helperName listing = false) :
      Obtained b [.list listing, .add helperSettings (.ok ())]
  | resting {listing : Except RpcError (List ProcessInfo)} {answer : Except RpcError ProcessInfo}
      (found : b.lists helperName listing = true) (rests : showsRest answer = true) :
      Obtained b [.list listing, .info answer]
  | stopped {listing : Except RpcError (List ProcessInfo)} {answer : Except RpcError ProcessInfo}
      (found : b.lists helperName listing = true) (busy : showsRest answer = false) :
      Obtained b [.list listing, .info answer, .stop (.ok ())]
  | notRunning {listing : Except RpcError (List ProcessInfo)}
      {answer : Except RpcError ProcessInfo} {e : RpcError}
      (found : b.lists helperName listing = true) (busy : showsRest answer = false)
      (still : e.isNotRunning = true) :
      Obtained b [.list listing, .info answer, .stop (.error e)]

/-- The forward calls of a resolution and how they end. -/
inductive Attempted (b : Binding) (poll : PollBudget) : List Call → Ending → Prop where
  | notAdded {listing : Except RpcError (List ProcessInfo)} {e : RpcError}
      (absent : b.lists helperName listing = false) :
      Attempted b poll [.list listing, .add helperSettings (.error e)] ⟨.notStarted, .error e⟩
  | notStopped {listing : Except RpcError (List ProcessInfo)}
      {answer : Except RpcError ProcessInfo} {e : RpcError}
      (found : b.lists helperName listing = true) (busy : showsRest answer = false)
      (fails : e.isNotRunning = false) :
      Attempted b poll [.list listing, .info answer, .stop (.error e)] ⟨.registered, .error e⟩
  | launched {first second : List Call} {ending : Ending} (obtained : Obtained b first)
      (launch : Launched b poll second ending) : Attempted b poll (first ++ second) ending

/-- An attempt goes in one of the ways of `Attempted`. -/
theorem attempt_course {ending : Ending} (course : (attempt b poll).Course events ending) :
    ∃ calls, events = calls.map (Call.event b helperName) ∧ Attempted b poll calls ending := by
  obtain ⟨_, found, _, rfl, listed, rest⟩ := Plan.course_bind_iff.mp course
  obtain ⟨listing, rfl, rfl⟩ := Binding.hasProcess_course listed
  by_cases found : b.lists helperName listing
  · rw [if_pos found] at rest
    obtain ⟨_, l, _, rfl, asked, further⟩ := Plan.course_bind_iff.mp rest
    obtain ⟨answer, rfl, rfl⟩ := Binding.state_course asked
    by_cases rests : (Binding.stateOf answer).isTerminal
    · rw [if_pos rests] at further
      obtain ⟨calls, rfl, launched⟩ := launch_course further
      exact ⟨[.list listing, .info answer] ++ calls, by simp,
        .launched (.resting found rests) launched⟩
    · have busy : showsRest answer = false := Bool.eq_false_iff.mpr rests
      rw [if_neg rests] at further
      obtain ⟨reply, _, rfl, onward⟩ := Binding.order_bind_course further
      cases reply with
      | ok u =>
          obtain ⟨calls, rfl, launched⟩ := launch_course onward
          exact ⟨[.list listing, .info answer, .stop (.ok u)] ++ calls, rfl,
            .launched (.stopped found busy) launched⟩
      | error e =>
          dsimp only at onward
          by_cases still : e.isNotRunning
          · rw [if_pos still] at onward
            obtain ⟨calls, rfl, launched⟩ := launch_course onward
            exact ⟨[.list listing, .info answer, .stop (.error e)] ++ calls, rfl,
              .launched (.notRunning found busy still) launched⟩
          · rw [if_neg still] at onward
            obtain ⟨rfl, rfl⟩ := Plan.course_pure_iff.mp onward
            exact ⟨[.list listing, .info answer, .stop (.error e)], rfl,
              .notStopped found busy (Bool.eq_false_iff.mpr still)⟩
  · have absent : b.lists helperName listing = false := Bool.eq_false_iff.mpr found
    rw [if_neg found] at rest
    obtain ⟨reply, _, rfl, further⟩ := Binding.order_bind_course rest
    cases reply with
    | ok u =>
        obtain ⟨calls, rfl, launched⟩ := launch_course further
        exact ⟨[.list listing, .add helperSettings (.ok u)] ++ calls, rfl,
          .launched (.added absent) launched⟩
    | error e =>
        obtain ⟨rfl, rfl⟩ := Plan.course_pure_iff.mp further
        exact ⟨[.list listing, .add helperSettings (.error e)], rfl, .notAdded absent⟩

/-! ### Taking back -/

/-- The calls that clear the logs in a stage. -/
inductive Clearing (s : Stage) : List Call → Prop where
  | none (early : s.rank < Stage.started.rank) : Clearing s []
  | once {reply : Except RpcError Unit} (late : Stage.started.rank ≤ s.rank) :
      Clearing s [.clear reply]

/-- The calls that remove the helper in a stage: one course of a removal at most. -/
inductive Removing (b : Binding) (s : Stage) : List Call → Prop where
  | none (early : s.rank < Stage.registered.rank) : Removing b s []
  | once {calls : List Call} {result : Except RpcError Unit}
      (late : Stage.registered.rank ≤ s.rank)
      (course : (b.remove helperName).Course (calls.map (Call.event b helperName)) result)
      (removal : Binding.Removal calls result) : Removing b s calls

theorem Clearing.eq_nil {s : Stage} {calls : List Call} (clearing : Clearing s calls)
    (early : s.rank < Stage.started.rank) : calls = [] := by
  cases clearing with
  | none _ => rfl
  | once late => exact absurd late (Nat.not_le.mpr early)

theorem Clearing.eq_once {s : Stage} {calls : List Call} (clearing : Clearing s calls)
    (late : Stage.started.rank ≤ s.rank) : ∃ reply, calls = [.clear reply] := by
  cases clearing with
  | none early => exact absurd late (Nat.not_le.mpr early)
  | once _ => exact ⟨_, rfl⟩

theorem Removing.eq_nil {s : Stage} {calls : List Call} (removing : Removing b s calls)
    (early : s.rank < Stage.registered.rank) : calls = [] := by
  cases removing with
  | none _ => rfl
  | once late _ _ => exact absurd late (Nat.not_le.mpr early)

theorem Removing.course {s : Stage} {calls : List Call} (removing : Removing b s calls)
    (late : Stage.registered.rank ≤ s.rank) : ∃ result,
      (b.remove helperName).Course (calls.map (Call.event b helperName)) result ∧
        Binding.Removal calls result := by
  cases removing with
  | none early => exact absurd late (Nat.not_le.mpr early)
  | once _ course removal => exact ⟨_, course, removal⟩

/-- The last step owed is a removal. -/
theorem remove_course {s : Stage} (late : Stage.registered.rank ≤ s.rank)
    {results : List (Except RpcError Unit)}
    (course : (Plan.forEach [.remove] (Compensation.plan b)).Course events results) :
    ∃ removed, events = removed.map (Call.event b helperName) ∧ Removing b s removed := by
  obtain ⟨first, result, second, others, rfl, -, removed, ended⟩ := Plan.course_forEach_cons course
  obtain ⟨rfl, -⟩ := Plan.course_forEach_nil ended
  obtain ⟨calls, rfl, removal⟩ := Binding.removal_of_course removed
  exact ⟨calls, by simp, .once late removed removal⟩

/-- In a stage from the start of the helper on, the removal comes after a clearing. -/
theorem clear_remove_course {s : Stage} (late : Stage.started.rank ≤ s.rank)
    {results : List (Except RpcError Unit)}
    (course : (Plan.forEach [.clearLogs, .remove] (Compensation.plan b)).Course events results) :
    ∃ cleared removed, events = (cleared ++ removed).map (Call.event b helperName) ∧
      Clearing s cleared ∧ Removing b s removed := by
  obtain ⟨first, reply, second, others, rfl, -, cleared, rest⟩ := Plan.course_forEach_cons course
  obtain rfl := Binding.order_course cleared
  have registered : Stage.registered.rank ≤ s.rank := Nat.le_trans (by decide) late
  obtain ⟨removed, rfl, removing⟩ := remove_course registered rest
  exact ⟨[.clear reply], removed, rfl, .once late, removing⟩

/-- What a stage owes is one clearing of the logs at most, and one removal at most after
it, whatever becomes of the clearing. -/
theorem compensate_course {s : Stage} (course : (compensate b s).Course events ()) :
    ∃ cleared removed, events = (cleared ++ removed).map (Call.event b helperName) ∧
      Clearing s cleared ∧ Removing b s removed := by
  obtain ⟨_, results, _, rfl, taken, ended⟩ := Plan.course_bind_iff.mp course
  obtain ⟨rfl, -⟩ := Plan.course_pure_iff.mp ended
  rw [List.append_nil]
  cases s with
  | notStarted =>
      obtain ⟨rfl, -⟩ := Plan.course_forEach_nil taken
      exact ⟨[], [], rfl, .none (by decide), .none (by decide)⟩
  | registered =>
      obtain ⟨removed, rfl, removing⟩ := remove_course (Nat.le_refl _) taken
      exact ⟨[], removed, rfl, .none (by decide), removing⟩
  | started => exact clear_remove_course (by decide) taken
  | completed => exact clear_remove_course (by decide) taken
  | logRead => exact clear_remove_course (by decide) taken

/-- A resolution is an attempt and then what its stage owes. What is taken back has no part
in the result. -/
theorem resolve_course {result : Except RpcError Exports.Environment}
    (course : (resolve b poll).Course events result) :
    ∃ forward cleared removed ending,
      events = (forward ++ cleared ++ removed).map (Call.event b helperName) ∧
      (attempt b poll).Course (forward.map (Call.event b helperName)) ending ∧
      result = ending.environment ∧ Attempted b poll forward ending ∧
      Clearing ending.stage cleared ∧ Removing b ending.stage removed := by
  obtain ⟨_, ending, _, rfl, attempted, rest⟩ := Plan.course_bind_iff.mp course
  obtain ⟨_, u, _, rfl, compensated, ended⟩ := Plan.course_bind_iff.mp rest
  obtain ⟨rfl, rfl⟩ := Plan.course_pure_iff.mp ended
  obtain ⟨forward, rfl, attempt⟩ := attempt_course attempted
  obtain ⟨cleared, removed, rfl, clearing, removing⟩ := compensate_course compensated
  exact ⟨forward, cleared, removed, ending, by simp, attempted, rfl, attempt, clearing, removing⟩

end RunControl.HostEnvironment
