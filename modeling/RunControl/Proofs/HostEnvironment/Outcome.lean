import Mathlib.Data.List.Basic
import RunControl.Proofs.HostEnvironment.Discipline

/-!
How a resolution ends, and how often it asks for the helper, whoever answers.

`resolve_concluded` says which answers make a resolution fail and with what error, what it
gives otherwise, and how many questions it asks between the start of the helper and the end
of the wait. `awaitCounting_eq` says that 32 bits suffice to count them.
-/

namespace RunControl

open Utf8 (Bytes)

/-- The state that the answer to a question for the record shows. -/
def Call.state? : Call → Option Lifecycle
  | .info answer => some (Binding.stateOf answer)
  | _ => none

/-- The states that the questions among the calls were answered with, in order. -/
def Call.shown (calls : List Call) : List Lifecycle :=
  calls.filterMap state?

@[simp]
theorem Call.shown_info (answer : Except RpcError ProcessInfo) (calls : List Call) :
    shown (.info answer :: calls) = Binding.stateOf answer :: shown calls := rfl

@[simp]
theorem Call.shown_stop (reply : Except RpcError Unit) (calls : List Call) :
    shown (.stop reply :: calls) = shown calls := rfl

@[simp]
theorem Call.shown_append (first second : List Call) :
    shown (first ++ second) = shown first ++ shown second :=
  List.filterMap_append

namespace HostEnvironment

open Exports (Environment)

variable {b : Binding} {poll : PollBudget} {calls before after rest removed : List Call}
  {ending : Ending}

/-! ### Counting in 32 bits -/

/-- Below the largest number a count of attempts does not overflow. -/
theorem toNat_succ {limit count : UInt32} (room : limit.toNat + 1 < UInt32.size)
    (within : count ≤ limit) : (count + 1).toNat = count.toNat + 1 := by
  have bound := UInt32.le_iff_toNat_le.mp within
  rw [UInt32.toNat_add]
  exact Nat.mod_eq_of_lt (by simp only [UInt32.size] at room; simp; omega)

/-- The wait as a loop that counts its attempts in 32 bits and compares the count with the
limit after each of them. -/
def awaitCounting (b : Binding) (interval : Nat) (limit count : UInt32)
    (room : limit.toNat + 1 < UInt32.size) (within : count ≤ limit) : Plan Bool := do
  if (← b.state helperName).isTerminal then return true
  else if above : limit < count + 1 then
    let _ ← b.stop helperName
    return false
  else
    have := toNat_succ room within
    let _ ← Plan.request (.pause interval)
    awaitCounting b interval limit (count + 1) room (UInt32.not_lt.mp above)
termination_by limit.toNat - count.toNat
decreasing_by
  have := UInt32.le_iff_toNat_le.mp (UInt32.not_lt.mp above)
  omega

/-- The loop is the wait with as many pauses to spare as the count is below the limit. -/
theorem awaitCounting_eq (b : Binding) (interval : Nat) (limit count : UInt32)
    (room : limit.toNat + 1 < UInt32.size) (within : count ≤ limit) :
    awaitCounting b interval limit count room within =
      await b interval (limit.toNat - count.toNat) := by
  fun_induction awaitCounting b interval limit count room within with
  | case1 count within ih =>
      have next := toNat_succ room within
      by_cases above : limit < count + 1
      · have := UInt32.lt_iff_toNat_lt.mp above
        have spent : limit.toNat - count.toNat = 0 := by omega
        rw [spent, await]
        simp only [above, dif_pos]
      · have := UInt32.le_iff_toNat_le.mp (UInt32.not_lt.mp above)
        have left : limit.toNat - count.toNat = limit.toNat - (count + 1).toNat + 1 := by omega
        rw [left, await]
        simp only [above, ih above]
        rfl

/-- The same loop with the values that its count takes. -/
def awaitCounts (b : Binding) (interval : Nat) (limit count : UInt32)
    (room : limit.toNat + 1 < UInt32.size) (within : count ≤ limit) : Plan (Bool × List UInt32) := do
  if (← b.state helperName).isTerminal then return (true, [count])
  else if above : limit < count + 1 then
    let _ ← b.stop helperName
    return (false, [count, count + 1])
  else
    have := toNat_succ room within
    let _ ← Plan.request (.pause interval)
    let (rested, counts) ←
      awaitCounts b interval limit (count + 1) room (UInt32.not_lt.mp above)
    return (rested, count :: counts)
termination_by limit.toNat - count.toNat
decreasing_by
  have := UInt32.le_iff_toNat_le.mp (UInt32.not_lt.mp above)
  omega

/-- Watching the count changes nothing. -/
theorem awaitCounts_eq (b : Binding) (interval : Nat) (limit count : UInt32)
    (room : limit.toNat + 1 < UInt32.size) (within : count ≤ limit) :
    Prod.fst <$> awaitCounts b interval limit count room within =
      awaitCounting b interval limit count room within := by
  fun_induction awaitCounting b interval limit count room within with
  | case1 count within ih =>
      rw [awaitCounts, map_bind]
      refine bind_congr fun state => ?_
      split
      · exact map_pure _ _
      · split
        · rw [map_bind]
          exact bind_congr fun _ => map_pure _ _
        · rename_i above
          rw [map_bind]
          refine bind_congr fun _ => ?_
          rw [map_bind, ← ih above, ← bind_pure_comp]
          exact bind_congr fun _ => map_pure _ _

/-- The count goes up by one at a time and does not come above the number after the limit. -/
theorem counts_of_course {interval : Nat} {limit count : UInt32}
    {room : limit.toNat + 1 < UInt32.size} {within : count ≤ limit} {events : List Event}
    {rested : Bool} {counts : List UInt32}
    (course : (awaitCounts b interval limit count room within).Course events (rested, counts)) :
    counts.map UInt32.toNat = List.range' count.toNat counts.length ∧
      count.toNat + counts.length ≤ limit.toNat + 2 := by
  have below := UInt32.le_iff_toNat_le.mp within
  fun_induction awaitCounts b interval limit count room within generalizing events rested counts with
  | case1 count within ih =>
      have next := toNat_succ room within
      obtain ⟨first, state, rest, rfl, -, course⟩ := Plan.course_bind_iff.mp course
      split at course
      · obtain ⟨-, same⟩ := Plan.course_pure_iff.mp course
        cases same
        exact ⟨rfl, by simp; omega⟩
      · split at course
        · obtain ⟨_, _, _, -, -, course⟩ := Plan.course_bind_iff.mp course
          obtain ⟨-, same⟩ := Plan.course_pure_iff.mp course
          cases same
          refine ⟨?_, by simp; omega⟩
          simp [List.range', next]
        · rename_i above
          obtain ⟨_, _, _, -, -, course⟩ := Plan.course_bind_iff.mp course
          obtain ⟨_, ⟨rested', others⟩, _, -, further, course⟩ := Plan.course_bind_iff.mp course
          obtain ⟨-, same⟩ := Plan.course_pure_iff.mp course
          cases same
          obtain ⟨values, bound⟩ := ih above further
            (UInt32.le_iff_toNat_le.mp (UInt32.not_lt.mp above))
          rw [next] at values bound
          refine ⟨?_, by simp; omega⟩
          rw [List.map_cons, values, List.length_cons, List.range'_succ]

/-! ### What a wait shows -/

theorem Polls.shown_length {interval n : Nat} (polling : Polls interval n calls) :
    (Call.shown calls).length = n := by
  induction polling with
  | none => rfl
  | more _ _ ih => exact congrArg (· + 1) ih

theorem Polls.shown_busy {interval n : Nat} (polling : Polls interval n calls) :
    ∀ l ∈ Call.shown calls, l.isTerminal = false := by
  induction polling with
  | none => exact fun l member => nomatch member
  | more busy _ ih =>
      intro l member
      rcases List.mem_cons.mp member with rfl | member
      · exact busy
      · exact ih l member

/-- Of `attempts + 1` questions after the start none was answered with a state of rest. -/
def StaysBusy (attempts : Nat) (after : List Call) : Prop :=
  attempts < (Call.shown after).length ∧
    ∀ l ∈ (Call.shown after).take (attempts + 1), l.isTerminal = false

/-- One of the first `attempts + 1` questions after the start was answered with a state of
rest. -/
def RestsInTime (attempts : Nat) (after : List Call) : Prop :=
  ∃ l ∈ (Call.shown after).take (attempts + 1), l.isTerminal = true

theorem StaysBusy.not_restsInTime {attempts : Nat} (busy : StaysBusy attempts after) :
    ¬ RestsInTime attempts after := by
  rintro ⟨l, member, rests⟩
  exact Bool.false_ne_true ((busy.2 l member).symm.trans rests)

theorem Awaited.staysBusy {interval attempts : Nat}
    (wait : Awaited interval attempts calls false) : StaysBusy attempts (calls ++ rest) := by
  cases wait with
  | @late polls last reply polling busy =>
      have shows : Call.shown (polls ++ [.info last, .stop reply] ++ rest) =
          (Call.shown polls ++ [Binding.stateOf last]) ++ Call.shown rest := by simp
      have length : (Call.shown polls ++ [Binding.stateOf last]).length = attempts + 1 := by
        simp [polling.shown_length]
      refine ⟨by rw [shows, List.length_append, length]; omega, fun l member => ?_⟩
      rw [shows, List.take_left' length] at member
      rcases List.mem_append.mp member with member | member
      · exact polling.shown_busy l member
      · rw [List.mem_singleton.mp member]
        exact busy

theorem Awaited.restsInTime {interval attempts : Nat}
    (wait : Awaited interval attempts calls true) : RestsInTime attempts (calls ++ rest) := by
  cases wait with
  | @rested n polls last polling inTime rests =>
      have shows : Call.shown (polls ++ [.info last] ++ rest) =
          Call.shown polls ++ Binding.stateOf last :: Call.shown rest := by simp
      have here : (Call.shown polls ++ Binding.stateOf last :: Call.shown rest)[n]? =
          some (Binding.stateOf last) := by
        rw [List.getElem?_append_right (Nat.le_of_eq polling.shown_length), polling.shown_length]
        simp
      refine ⟨Binding.stateOf last, List.mem_of_getElem? (i := n) ?_, rests⟩
      rw [shows, List.getElem?_take_of_lt (by omega), here]

/-- Polls put off the first state of rest by their number. -/
theorem Polls.findIdx_shown {interval n : Nat} (polling : Polls interval n calls)
    (states : List Lifecycle) :
    (Call.shown calls ++ states).findIdx Lifecycle.isTerminal =
      states.findIdx Lifecycle.isTerminal + n := by
  have none := List.findIdx_eq_length_of_false polling.shown_busy
  rw [List.findIdx_append, none, polling.shown_length, if_neg (Nat.lt_irrefl n)]

/-- A wait asks as long as it takes to see a state of rest, and `attempts + 1` times at most;
only a wait without success ends with a stop. -/
theorem Awaited.polled {interval attempts : Nat} {rested : Bool}
    (wait : Awaited interval attempts calls rested) (rest : List Call) :
    ∃ n polls last tail, calls = polls ++ .info last :: tail ∧ Polls interval n polls ∧
      (rested = true ∧ tail = [] ∨ ∃ reply, tail = [.stop reply]) ∧
      n + 1 = min ((Call.shown (calls ++ rest)).findIdx Lifecycle.isTerminal + 1)
        (attempts + 1) := by
  cases wait with
  | @rested n polls last polling inTime rests =>
      refine ⟨n, polls, last, [], rfl, polling, .inl ⟨rfl, rfl⟩, ?_⟩
      have atOnce : (Call.shown (.info last :: rest)).findIdx Lifecycle.isTerminal = 0 := by
        rw [Call.shown_info, List.findIdx_cons,
          show (Binding.stateOf last).isTerminal = true from rests]
        rfl
      rw [List.append_assoc, Call.shown_append, polling.findIdx_shown, List.singleton_append,
        atOnce]
      omega
  | @late polls last reply polling busy =>
      refine ⟨attempts, polls, last, [.stop reply], rfl, polling, .inr ⟨reply, rfl⟩, ?_⟩
      rw [List.append_assoc, Call.shown_append, polling.findIdx_shown]
      omega

/-! ### How resolutions end -/

/-- The helper could not be added, was found and could not be stopped, or could not be
started. -/
def Refused (calls : List Call) : Prop :=
  (∃ e, .add helperSettings (.error e) ∈ calls) ∨
    (∃ listing answer e others, e.isNotRunning = false ∧
      calls = .list listing :: .info answer :: .stop (.error e) :: others) ∨
    ∃ e, .start (.error e) ∈ calls

/-- The calls of a whole resolution and its result. -/
inductive Finished (b : Binding) (poll : PollBudget) :
    List Call → Except RpcError Environment → Prop where
  | refused {calls : List Call} (why : Refused calls) (unstarted : .start (.ok ()) ∉ calls)
      (unread : ∀ reply, .read .stdout reply ∉ calls) : Finished b poll calls (.ok .empty)
  | late {first wait removed : List Call} {reply : Except RpcError Unit}
      (obtained : Obtained b first)
      (waited : Awaited poll.interval poll.attempts wait false)
      (removing : Removing b .started removed) :
      Finished b poll (first ++ .start (.ok ()) :: (wait ++ .clear reply :: removed))
        (.error (.timeout (awaited b)))
  | read {first wait removed : List Call} {reply : Except RpcError Unit} {s : Stage}
      (given : Except RpcError Bytes) (obtained : Obtained b first)
      (waited : Awaited poll.interval poll.attempts wait true)
      (removing : Removing b s removed) :
      Finished b poll
        (first ++ .start (.ok ()) :: (wait ++ .read .stdout given :: .clear reply :: removed))
        (given.map fun log => Exports.parse (Utf8.decodeLossy log))

/-- Whatever an attempt comes to, the resolution is finished in one of these ways. -/
theorem Attempted.finished {cleared : List Call} (attempt : Attempted b poll calls ending)
    (clearing : Clearing ending.stage cleared) (removing : Removing b ending.stage removed) :
    Finished b poll (calls ++ cleared ++ removed) ending.environment := by
  have unstarted {s : Stage} (removing : Removing b s removed) :
      .start (.ok ()) ∉ removed := fun member => Bool.false_ne_true (removing.removes _ member)
  have unread {s : Stage} (removing : Removing b s removed) (reply : Except RpcError Bytes) :
      .read .stdout reply ∉ removed := fun member => Bool.false_ne_true (removing.removes _ member)
  cases attempt with
  | @notAdded _ e _ =>
      obtain rfl := clearing.eq_nil (by simp [Stage.rank])
      exact .refused (.inl ⟨e, by simp⟩) (by simp [unstarted removing])
        (by simp [unread removing])
  | notStopped _ _ fails =>
      obtain rfl := clearing.eq_nil (by simp [Stage.rank])
      exact .refused (.inr (.inl ⟨_, _, _, _, fails, rfl⟩)) (by simp [unstarted removing])
        (by simp [unread removing])
  | launched obtained launch =>
      cases launch with
      | @refused e _ =>
          obtain rfl := clearing.eq_nil (by simp [Stage.rank])
          exact .refused (.inr (.inr ⟨e, by simp⟩))
            (by simp [unstarted removing, obtained.unstarted])
            (by simp [unread removing, obtained.unread])
      | late waited =>
          obtain ⟨reply, rfl⟩ := clearing.eq_once (Nat.le_refl _)
          show Finished b poll _ (.error (.timeout (awaited b)))
          simpa using Finished.late obtained waited removing
      | @unread wait e waited =>
          obtain ⟨reply, rfl⟩ := clearing.eq_once (by simp [Stage.rank])
          show Finished b poll _ (.error e)
          simpa [Except.map] using Finished.read (.error e) obtained waited removing
      | @read wait log waited =>
          obtain ⟨reply, rfl⟩ := clearing.eq_once (by simp [Stage.rank])
          show Finished b poll _ (.ok (Exports.parse (Utf8.decodeLossy log)))
          simpa [Except.map] using Finished.read (.ok log) obtained waited removing

/-- How the result of a resolution and its number of questions hang on the answers. -/
structure Concluded (b : Binding) (poll : PollBudget) (calls : List Call)
    (result : Except RpcError Environment) : Prop where
  /-- It fails exactly if a start was acknowledged and then either the helper was not shown at
  rest by the first `attempts + 1` questions, which is a time-out, or it was and the log could
  not be read, which fails as the reading did. -/
  failed_iff : ∀ e, result = .error e ↔ ∃ before after,
    calls = before ++ .start (.ok ()) :: after ∧
      (StaysBusy poll.attempts after ∧ e = .timeout (awaited b) ∨
        RestsInTime poll.attempts after ∧ .read .stdout (.error e) ∈ after)
  /-- After a time-out one stop follows the last of these questions at once, and then what is
  taken back. -/
  late : ∀ before after, calls = before ++ .start (.ok ()) :: after →
    StaysBusy poll.attempts after → ∃ polls last stop clear removed,
      after = polls ++ [.info last, .stop stop, .clear clear] ++ removed ∧
      Polls poll.interval poll.attempts polls ∧
      ∃ end', (b.remove helperName).Course (removed.map (Call.event b helperName)) end'
  /-- A log that was read gives the result. -/
  read : ∀ log, .read .stdout (.ok log) ∈ calls →
    result = .ok (Exports.parse (Utf8.decodeLossy log))
  /-- A helper that was refused before it ran gives the empty environment. -/
  refused : Refused calls → result = .ok .empty
  /-- There are no other ways to succeed. -/
  succeeded : ∀ environment, result = .ok environment →
    Refused calls ∨ ∃ log, .read .stdout (.ok log) ∈ calls
  /-- Between the start and the end of the wait, which is a stop or the reading of the log, the
  helper is asked for until it is first shown at rest, and `attempts + 1` times at most. -/
  questions : ∀ before after, calls = before ++ .start (.ok ()) :: after →
    ∃ n polls last others, after = polls ++ .info last :: others ∧ Polls poll.interval n polls ∧
      ((∃ reply, others.head? = some (.stop reply)) ∨
        ∃ reply, others.head? = some (.read .stdout reply)) ∧
      n + 1 = min ((Call.shown after).findIdx Lifecycle.isTerminal + 1) (poll.attempts + 1)

theorem Obtained.not_refused {first others : List Call} (obtained : Obtained b first)
    (unstarted : ∀ reply, .start reply ∉ others)
    (unadded : ∀ reply, .add helperSettings reply ∉ others) :
    ¬ Refused (first ++ .start (.ok ()) :: others) := by
  rintro (⟨e, added⟩ | ⟨listing, answer, e, tail, fails, same⟩ | ⟨e, started⟩)
  · cases obtained <;> simp [unadded] at added
  · cases obtained <;> simp at same
    obtain ⟨-, -, rfl, -⟩ := same
    simp_all
  · cases obtained <;> simp [unstarted] at started

/-- The calls after an acknowledged start are the same however they are taken apart. -/
theorem Obtained.after_eq {first others : List Call} (obtained : Obtained b first)
    (unstarted : ∀ reply, .start reply ∉ others)
    (split : first ++ .start (.ok ()) :: others = before ++ .start (.ok ()) :: after) :
    after = others := by
  obtain ⟨-, -, rfl⟩ :=
    (List.append_cons_inj_of_notMem (obtained.unstarted _) (unstarted _)).mp split
  rfl

/-- The end of a resolution in which the helper was started is read off the calls after the
start. -/
theorem Obtained.concluded {first others : List Call} {result : Except RpcError Environment}
    (obtained : Obtained b first) (unstarted : ∀ reply, .start reply ∉ others)
    (unadded : ∀ reply, .add helperSettings reply ∉ others)
    (fails : ∀ e, result = .error e ↔
      StaysBusy poll.attempts others ∧ e = .timeout (awaited b) ∨
        RestsInTime poll.attempts others ∧ .read .stdout (.error e) ∈ others)
    (late : StaysBusy poll.attempts others → ∃ polls last stop clear removed,
      others = polls ++ [.info last, .stop stop, .clear clear] ++ removed ∧
      Polls poll.interval poll.attempts polls ∧
      ∃ end', (b.remove helperName).Course (removed.map (Call.event b helperName)) end')
    (read : ∀ log, .read .stdout (.ok log) ∈ others →
      result = .ok (Exports.parse (Utf8.decodeLossy log)))
    (succeeds : ∀ environment, result = .ok environment →
      ∃ log, .read .stdout (.ok log) ∈ others)
    (asks : ∃ n polls last tail, others = polls ++ .info last :: tail ∧
      Polls poll.interval n polls ∧
      ((∃ reply, tail.head? = some (.stop reply)) ∨
        ∃ reply, tail.head? = some (.read .stdout reply)) ∧
      n + 1 = min ((Call.shown others).findIdx Lifecycle.isTerminal + 1) (poll.attempts + 1)) :
    Concluded b poll (first ++ .start (.ok ()) :: others) result where
  failed_iff e := by
    constructor
    · intro failed
      exact ⟨first, others, rfl, (fails e).mp failed⟩
    · rintro ⟨before, after, split, why⟩
      obtain rfl := obtained.after_eq unstarted split
      exact (fails e).mpr why
  late before after split := by
    obtain rfl := obtained.after_eq unstarted split
    exact late
  read log member := by
    rcases List.mem_append.mp member with member | member
    · exact absurd member (obtained.unread _)
    · rcases List.mem_cons.mp member with same | member
      · cases same
      · exact read log member
  refused why := absurd why (obtained.not_refused unstarted unadded)
  succeeded environment same := by
    obtain ⟨log, member⟩ := succeeds environment same
    exact .inr ⟨log, by simp [member]⟩
  questions before after split := by
    obtain rfl := obtained.after_eq unstarted split
    exact asks

/-- A call that is neither part of a wait nor of a removal is one of those between them. -/
theorem foreign {s : Stage} {rested : Bool} {wait : List Call} {c : Call}
    (between : List Call) (waited : Awaited poll.interval poll.attempts wait rested)
    (removing : Removing b s removed)
    (unwatched : c.watches = false) (unremoving : c.removes = false) :
    c ∈ wait ++ (between ++ removed) ↔ c ∈ between := by
  constructor
  · intro member
    rcases List.mem_append.mp member with member | member
    · exact absurd (waited.watches c member) (by rw [unwatched]; exact Bool.false_ne_true)
    · rcases List.mem_append.mp member with member | member
      · exact member
      · exact absurd (removing.removes c member) (by rw [unremoving]; exact Bool.false_ne_true)
  · intro member
    exact List.mem_append_right wait (List.mem_append_left removed member)

theorem Finished.concluded_late {first wait : List Call} {reply : Except RpcError Unit}
    (obtained : Obtained b first) (waited : Awaited poll.interval poll.attempts wait false)
    (removing : Removing b .started removed) :
    Concluded b poll (first ++ .start (.ok ()) :: (wait ++ .clear reply :: removed))
      (.error (.timeout (awaited b))) := by
  have others (c : Call) (unwatched : c.watches = false) (unremoving : c.removes = false) :
      c ∈ wait ++ .clear reply :: removed ↔ c ∈ [.clear reply] :=
    foreign [.clear reply] waited removing unwatched unremoving
  have busy : StaysBusy poll.attempts (wait ++ .clear reply :: removed) := waited.staysBusy
  refine obtained.concluded (fun started => ?unstarted) (fun added => ?unadded) (fun e => ?fails)
    (fun _ => ?late) (fun log => ?read) nofun ?asks
  case unstarted => simp [others (.start started) rfl rfl]
  case unadded => simp [others (.add helperSettings added) rfl rfl]
  case read => simp [others (.read .stdout (.ok log)) rfl rfl]
  case fails =>
    constructor
    · rintro ⟨⟩
      exact .inl ⟨busy, rfl⟩
    · rintro (⟨-, rfl⟩ | ⟨rests, -⟩)
      · rfl
      · exact absurd rests busy.not_restsInTime
  case late =>
    obtain ⟨result, course, -⟩ := removing.course (by decide)
    cases waited with
    | @late polls last stop polling _ =>
        exact ⟨polls, last, stop, reply, removed, by simp, polling, result, course⟩
  case asks =>
    obtain ⟨n, polls, last, tail, rfl, polling, stopped, count⟩ :=
      waited.polled (.clear reply :: removed)
    rcases stopped with ⟨⟨⟩, -⟩ | ⟨stop, rfl⟩
    exact ⟨n, polls, last, .stop stop :: .clear reply :: removed, by simp, polling,
      .inl ⟨stop, rfl⟩, count⟩

theorem Finished.concluded_read {first wait : List Call} {given : Except RpcError Bytes}
    {reply : Except RpcError Unit} {s : Stage} (obtained : Obtained b first)
    (waited : Awaited poll.interval poll.attempts wait true) (removing : Removing b s removed) :
    Concluded b poll
      (first ++ .start (.ok ()) :: (wait ++ .read .stdout given :: .clear reply :: removed))
      (given.map fun log => Exports.parse (Utf8.decodeLossy log)) := by
  have others (c : Call) (unwatched : c.watches = false) (unremoving : c.removes = false) :
      c ∈ wait ++ .read .stdout given :: .clear reply :: removed ↔
        c ∈ [.read .stdout given, .clear reply] :=
    foreign [.read .stdout given, .clear reply] waited removing unwatched unremoving
  have rests : RestsInTime poll.attempts
      (wait ++ .read .stdout given :: .clear reply :: removed) := waited.restsInTime
  refine obtained.concluded (fun started => ?unstarted) (fun added => ?unadded) (fun e => ?fails)
    (fun busy => absurd rests busy.not_restsInTime) (fun log => ?read) (fun environment => ?ends)
    ?asks
  case unstarted => simp [others (.start started) rfl rfl]
  case unadded => simp [others (.add helperSettings added) rfl rfl]
  case read =>
    rw [others _ rfl rfl]
    intro member
    obtain rfl : given = .ok log := by simpa [eq_comm] using member
    rfl
  case ends =>
    cases given with
    | error e => exact nofun
    | ok log => exact fun _ => ⟨log, (others _ rfl rfl).mpr (.head _)⟩
  case fails =>
    rw [others _ rfl rfl]
    constructor
    · intro failed
      cases given with
      | error e' =>
          cases failed
          exact .inr ⟨rests, .head _⟩
      | ok log => cases failed
    · rintro (⟨busy, -⟩ | ⟨-, member⟩)
      · exact absurd rests busy.not_restsInTime
      · obtain rfl : given = .error e := by simpa [eq_comm] using member
        rfl
  case asks =>
    obtain ⟨n, polls, last, tail, rfl, polling, stopped, count⟩ :=
      waited.polled (.read .stdout given :: .clear reply :: removed)
    rcases stopped with ⟨-, rfl⟩ | ⟨stop, rfl⟩
    · exact ⟨n, polls, last, .read .stdout given :: .clear reply :: removed, by simp, polling,
        .inr ⟨given, rfl⟩, count⟩
    · exact ⟨n, polls, last, .stop stop :: .read .stdout given :: .clear reply :: removed,
        by simp, polling, .inl ⟨stop, rfl⟩, count⟩

theorem Finished.concluded_refused (why : Refused calls) (unstarted : .start (.ok ()) ∉ calls)
    (unread : ∀ reply, .read .stdout reply ∉ calls) : Concluded b poll calls (.ok .empty) := by
  have unsplit (before after : List Call) : calls ≠ before ++ .start (.ok ()) :: after := by
    rintro rfl
    exact unstarted (by simp)
  constructor
  case failed_iff =>
    intro e
    constructor
    · exact nofun
    · rintro ⟨before, after, split, -⟩
      exact absurd split (unsplit before after)
  case late =>
    intro before after split
    exact absurd split (unsplit before after)
  case read =>
    intro log member
    exact absurd member (unread _)
  case refused =>
    intro _
    rfl
  case succeeded =>
    intro _ _
    exact .inl why
  case questions =>
    intro before after split
    exact absurd split (unsplit before after)

theorem Finished.concluded {result : Except RpcError Environment}
    (finished : Finished b poll calls result) : Concluded b poll calls result := by
  cases finished with
  | refused why unstarted unread => exact concluded_refused why unstarted unread
  | late obtained waited removing => exact concluded_late obtained waited removing
  | read _ obtained waited removing => exact concluded_read obtained waited removing

/-- Outcome and number of questions of a resolution, whoever answers: its calls and result are
related as in `Concluded`, and a limit that 32 bits hold with one to spare is counted up to
without overflow. -/
theorem resolve_concluded {σ : Type} (answer : Answerer σ) (b : Binding) (poll : PollBudget)
    (s : σ) :
    (∃ calls, (resolve b poll).trace answer s = calls.map (Call.event b helperName) ∧
      Concluded b poll calls ((resolve b poll).run answer s).1) ∧
    ∀ (limit : UInt32) (room : limit.toNat + 1 < UInt32.size),
      awaitCounting b poll.interval limit 0 room (UInt32.zero_le) =
        await b poll.interval limit.toNat := by
  constructor
  · obtain ⟨forward, cleared, removed, ending, trace, -, result, attempt, clearing, removing⟩ :=
      resolve_course (Plan.play_course answer (resolve b poll) s)
    rw [trace, result]
    exact ⟨_, rfl, (attempt.finished clearing removing).concluded⟩
  · intro limit room
    exact awaitCounting_eq b poll.interval limit 0 room UInt32.zero_le

end HostEnvironment

end RunControl
