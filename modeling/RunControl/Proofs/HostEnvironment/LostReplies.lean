import RunControl.Proofs.HostEnvironment.Restoration
import RunControl.Proofs.Simulation.Line

/-!
Resolutions on a line that loses replies.

The stage of a saga is what was acknowledged, so a lost reply leaves it behind what happened.
From the start of the helper on that does no harm, since the helper is owed to be removed
already; but a helper whose addition was not acknowledged is not taken back. `resolve_lossy`
says that this is the only way in which lost replies leave a helper behind.
-/

namespace RunControl.HostEnvironment

open Simulation

variable {σ : Type} {b : Binding} {poll : PollBudget} {losses : Losses} {ending : Ending}
  {h mid h' : Host} {forward sent cleared removed rest : List Call}
  {listing : Except RpcError (List ProcessInfo)} {reply : Except RpcError Unit}

/-! ### The two parts of a resolution -/

/-- What an attempt leaves is what the compensations begin with. -/
theorem resolve_run (answer : Answerer σ) (b : Binding) (poll : PollBudget) (s : σ) :
    let attempted := (attempt b poll).run answer s
    (resolve b poll).run answer s = (attempted.1.environment,
      ((compensate b attempted.1.stage).run answer attempted.2).2) := by
  intro attempted
  have whole : (resolve b poll).run answer s = _ := Plan.run_bind answer (attempt b poll)
    (fun ending => (compensate b ending.stage).bind fun _ => .done ending.environment) s
  exact whole.trans (Plan.run_bind answer (compensate b attempted.1.stage)
    (fun _ => .done attempted.1.environment) attempted.2)

theorem resolve_trace (answer : Answerer σ) (b : Binding) (poll : PollBudget) (s : σ) :
    let attempted := (attempt b poll).run answer s
    (resolve b poll).trace answer s = (attempt b poll).trace answer s ++
      (compensate b attempted.1.stage).trace answer attempted.2 := by
  intro attempted
  have whole : (resolve b poll).trace answer s = _ := Plan.trace_bind answer (attempt b poll)
    (fun ending => (compensate b ending.stage).bind fun _ => .done ending.environment) s
  have taken := Plan.trace_bind answer (compensate b attempted.1.stage)
    (fun _ => .done attempted.1.environment) attempted.2
  exact whole.trans (congrArg _ (taken.trans (List.append_nil _)))

/-! ### The first two calls -/

/-- Whether the helper is added though the reply that says so is lost. The addition is the
second request of a resolution on a host without the helper. -/
def additionLost (losses : Losses) (b : Binding) (h : Host) : Bool :=
  (losses 1).isSome && (h.answer (.add b.group helperName helperSettings)).1.isOk

/-- Where the helper is not, no listing that is seen shows it. -/
theorem unlisted_of_seen (absent : registers b helperName h.processes = false)
    (seen : .list listing :: rest = masked losses 0 sent) (served : Served b helperName sent h h') :
    b.lists helperName listing = false := by
  cases sent with
  | nil => cases seen
  | cons c sent =>
      obtain ⟨mid, step, -⟩ := served
      obtain ⟨first, -⟩ := List.cons.inj seen
      cases c with
      | list given =>
          obtain rfl : listing = Loss.mask (losses 0) given := Call.list.inj first
          cases losses 0 with
          | none =>
              rw [Bool.eq_false_iff]
              intro shown
              exact nomatch absent.symm.trans (step.listed.2.mp shown).2
          | some l => rfl
      | _ => cases first

/-- The addition that is seen after a listing is masked from what the supervisor answers. -/
theorem addition_of_seen (seen : .list listing :: .add helperSettings reply :: rest =
      masked losses 0 sent) (served : Served b helperName sent h h') :
    ∃ given mid more, h.answer (.add b.group helperName helperSettings) = (given, mid) ∧
      reply = Loss.mask (losses 1) given ∧ rest = masked losses 2 more ∧
      Served b helperName more mid h' := by
  match sent with
  | [] => cases seen
  | [_] => cases (List.cons.inj seen).2
  | c :: d :: more =>
      obtain ⟨first, others⟩ := List.cons.inj seen
      obtain ⟨second, later⟩ := List.cons.inj others
      obtain ⟨next, listed, mid, added, further⟩ := served
      cases c with
      | list given =>
          have same : next = h := by
            have answered := listed.answered _ _ rfl
            unfold Host.answer at answered
            split at answered
            · exact (congrArg Prod.snd answered).symm
            · exact (congrArg Prod.snd answered).symm
          subst same
          cases d with
          | add settings given =>
              cases second
              exact ⟨given, mid, more, added.answered _ _ rfl, rfl, later, further⟩
          | _ => cases second
      | _ => cases first

/-! ### What an attempt leaves -/

/-- The table of processes with the helper as it is added. -/
def withHelper (b : Binding) (processes : Table Process) : Table Process :=
  processes.insert (b.identifier helperName) (.added b.group helperName helperSettings)

/-- What an attempt on a host without the helper leaves: a table with the helper, if only its
addition was not acknowledged, or else a stage that is owed to be taken back. -/
inductive Left (losses : Losses) (b : Binding) (h h' : Host) (ending : Ending) : Prop where
  | unacknowledged (stage : ending.stage = .notStarted) (silent : ending.environment = .ok .empty)
      (table : h'.processes =
        if additionLost losses b h then withHelper b h.processes else h.processes)
  | owed (stage : Stage.registered.rank ≤ ending.stage.rank)
      (acknowledged : additionLost losses b h = false) (reached : h.unreachable = false)
      (free : h.processes.get? (b.identifier helperName) = none)

/-- An attempt on a host without the helper begins with a listing and the addition. -/
theorem Attempted.left (attempt : Attempted b poll forward ending)
    (absent : registers b helperName h.processes = false)
    (seen : forward = masked losses 0 sent) (served : Served b helperName sent h h') :
    (∃ listing reply rest, forward = .list listing :: .add helperSettings reply :: rest) ∧
      Left losses b h h' ending := by
  have hidden {listing : Except RpcError (List ProcessInfo)} {rest : List Call}
      (found : b.lists helperName listing = true)
      (seen : .list listing :: rest = masked losses 0 sent) : False :=
    nomatch found.symm.trans (unlisted_of_seen absent seen served)
  cases attempt with
  | @notAdded listing e _ =>
      refine ⟨⟨listing, .error e, [], rfl⟩, .unacknowledged rfl rfl ?_⟩
      obtain ⟨given, mid, more, answered, masks, later, further⟩ := addition_of_seen seen served
      obtain rfl : more = [] := by
        cases more with
        | nil => rfl
        | cons c more => cases later
      obtain rfl : h' = mid := further
      have answers := Host.answer_answers (.add b.group helperName helperSettings) h
      rw [answered] at answers
      cases given with
      | ok u =>
          have lost : (losses 1).isSome = true := by
            cases arrives : losses 1 with
            | none =>
                rw [arrives] at masks
                cases masks
            | some l => rfl
          simp only [additionLost, answered, lost]
          exact answers.of_add.2
      | error e' =>
          have unadded : additionLost losses b h = false := by
            simp only [additionLost, answered]
            exact Bool.and_false _
          rw [unadded]
          exact answers.of_error
  | notStopped found _ _ => exact (hidden found seen).elim
  | launched obtained launch =>
      cases obtained with
      | @added listing _ =>
          refine ⟨⟨listing, .ok (), _, rfl⟩, ?_⟩
          obtain ⟨given, mid, more, answered, masks, -, -⟩ := addition_of_seen seen served
          obtain ⟨arrives, rfl⟩ := of_mask_ok masks.symm
          have answers := Host.answer_answers (.add b.group helperName helperSettings) h
          rw [answered] at answers
          refine .owed launch.registered (by rw [additionLost, arrives]; rfl) ?_ answers.of_add.1
          exact (Host.injected?_eq_none_iff.mp (Host.injected?_of_ok answered)).1
      | resting found _ => exact (hidden found seen).elim
      | stopped found _ => exact (hidden found seen).elim
      | notRunning found _ _ => exact (hidden found seen).elim

/-! ### What a resolution leaves -/

/-- What is owed for an attempt takes back what it left, unless the addition of the helper was
not acknowledged. -/
theorem Left.table (left : Left losses b h mid ending) (tried : Served b helperName sent h mid)
    (clearing : Clearing ending.stage cleared) (removing : Removing b ending.stage removed)
    (served : Served b helperName (cleared ++ removed) mid h') (stops : .stop ∉ h.failing)
    (removes : .remove ∉ h.failing) :
    h'.processes = if additionLost losses b h then withHelper b h.processes else h.processes := by
  obtain ⟨next, cleaned, erased⟩ := served_append_iff.mp served
  cases left with
  | unacknowledged stage _ table =>
      rw [stage] at clearing removing
      obtain rfl := clearing.eq_nil (by decide)
      obtain rfl := removing.eq_nil (by decide)
      obtain rfl : next = mid := cleaned
      obtain rfl : h' = next := erased
      exact table
  | owed stage acknowledged reached free =>
      obtain ⟨result, -, removal⟩ := removing.course stage
      have sound (m : Method) (passes : m ∉ h.failing) : next.injected? m = none := by
        rw [Host.injected?_of_setup (cleaned.setup.trans tried.setup)]
        exact Host.injected?_eq_none_iff.mpr ⟨reached, passes⟩
      have gone := erased.removed removal (sound .stop stops) (sound .remove removes)
      rw [acknowledged]
      ext id p
      by_cases here : id = b.identifier helperName
      · subst here
        rw [gone]
        exact ⟨nofun, fun found => nomatch free.symm.trans found⟩
      · rw [erased.frame here, cleaned.frame here, tried.frame here]
        rfl

/-- Where the addition of the helper was not acknowledged, nothing is said of it. -/
theorem Left.silent (left : Left losses b h mid ending) (lost : additionLost losses b h = true) :
    ending.environment = .ok .empty := by
  cases left with
  | unacknowledged _ silent _ => exact silent
  | owed _ acknowledged _ _ => exact nomatch lost.symm.trans acknowledged

theorem registers_withHelper (processes : Table Process) :
    registers b helperName (withHelper b processes) = true := by
  rw [registers_iff]
  refine ⟨b.identifier helperName, .added b.group helperName helperSettings, ?_, ?_⟩
  · rw [withHelper, Table.get?_insert, if_pos rfl]
  · simp [owns, Process.added]

/-- For every world behind the line, in which the host has no helper and neither stops nor
removals are made to fail, however the helper behaves, and whichever replies of the attempt are
lost, if those of the compensations arrive: the second request of the resolution is the addition
of the helper, and the helper is left behind exactly if it is added and the reply to this request
is lost. The table of processes is then the one before with the helper in it, and the resolution
gives the empty environment; else the table is the one before. -/
theorem resolve_lossy (w : World) (b : Binding) (poll : PollBudget) (losses : Losses)
    (plain : w.Unprepared b.host) (stops : .stop ∉ (w.hosts b.host).failing)
    (removes : .remove ∉ (w.hosts b.host).failing)
    (absent : registers b helperName (w.hosts b.host).processes = false)
    (arrive : ∀ i, ((attempt b poll).trace (Line.answer losses) (.opened w)).length ≤ i →
      losses i = none) :
    let before := (w.hosts b.host).processes
    let played := (resolve b poll).run (Line.answer losses) (.opened w)
    let after := (played.2.world.hosts b.host).processes
    let lost := additionLost losses b (w.hosts b.host)
    ((resolve b poll).trace (Line.answer losses) (.opened w))[1]?.map Event.request =
        some (.order b.host (.add b.group helperName helperSettings)) ∧
      (registers b helperName after = true ↔ lost = true) ∧
      after = (if lost then withHelper b before else before) ∧
      (lost = true → played.1 = .ok .empty) := by
  intro before played after lost
  obtain ⟨forward, trace, attempted⟩ :=
    attempt_course (Plan.play_course (Line.answer losses) (attempt b poll) (.opened w))
  have answered := Plan.play_answered (Line.answer losses) (attempt b poll) (.opened w)
  have whole := resolve_trace (Line.answer losses) b poll (.opened w)
  have ends : played = _ := resolve_run (Line.answer losses) b poll (.opened w)
  rw [trace] at answered arrive whole
  obtain ⟨sent, seen, tried, still, count⟩ := served_of_line plain answered
  obtain ⟨⟨listing, reply, rest, begins⟩, left⟩ := attempted.left absent seen tried
  generalize (attempt b poll).run (Line.answer losses) (.opened w) = reached at *
  have table : after = if lost then withHelper b before else before := by
    obtain ⟨cleared, removed, traced, clearing, removing⟩ := compensate_course
      (Plan.play_course (Line.answer losses) (compensate b reached.1.stage) reached.2)
    have answered' := Plan.play_answered (Line.answer losses) (compensate b reached.1.stage)
      reached.2
    rw [traced] at answered'
    obtain ⟨sent', seen', served, -⟩ := served_of_line still answered'
    -- The compensations are seen as they are served.
    have later (i : Nat) (late : reached.2.sent ≤ i) : losses i = none := by
      apply arrive
      rw [List.length_map]
      have sentFirst : reached.2.sent = 0 + forward.length := count
      omega
    rw [masked_eq_self later] at seen'
    subst seen'
    subst after
    rw [ends]
    exact left.table tried clearing removing served stops removes
  refine ⟨by rw [whole, begins]; rfl, ?_, table, fun unseen => ?_⟩
  · rw [table]
    cases lost with
    | true => simp [registers_withHelper]
    | false => simp [before, absent]
  · rw [ends]
    exact left.silent unseen

/-- On a fresh host a helper whose start was not acknowledged is taken back. -/
theorem resolve_lossy_start :
    let w := World.fresh "20260101120000"
    let b : Binding := ⟨"np04", "daq"⟩
    let losses : Losses := fun i =>
      if i = 2 then some ⟨"http://np04:9001", "deadline has elapsed"⟩ else none
    w.Unprepared b.host ∧ registers b helperName (w.hosts b.host).processes = false ∧
      additionLost losses b (w.hosts b.host) = false ∧
      registers b helperName
        (((resolve b ⟨500, 20⟩).run (Line.answer losses) (.opened w)).2.world.hosts
          b.host).processes = false := by
  intro w b losses
  have plain : w.Unprepared b.host := fun _ => rfl
  have absent : registers b helperName (w.hosts b.host).processes = false := rfl
  have acknowledged : additionLost losses b (w.hosts b.host) = false := rfl
  have length : ((attempt b ⟨500, 20⟩).trace (Line.answer losses) (.opened w)).length = 4 := by
    decide +kernel
  have arrive (i : Nat) (late : ((attempt b ⟨500, 20⟩).trace (Line.answer losses)
      (.opened w)).length ≤ i) : losses i = none := by
    rw [length] at late
    exact if_neg (by omega)
  obtain ⟨-, left, -, -⟩ := resolve_lossy w b ⟨500, 20⟩ losses plain nofun nofun absent arrive
  refine ⟨plain, absent, acknowledged, ?_⟩
  rw [Bool.eq_false_iff, ne_eq, left, acknowledged]
  exact Bool.false_ne_true

/-- On a fresh host a helper whose addition was not acknowledged is left behind, though every
other reply arrives. -/
theorem resolve_leaves_helper :
    let w := World.fresh "20260101120000"
    let b : Binding := ⟨"np04", "daq"⟩
    let losses : Losses := fun i =>
      if i = 1 then some ⟨"http://np04:9001", "deadline has elapsed"⟩ else none
    let played := (resolve b ⟨500, 20⟩).run (Line.answer losses) (.opened w)
    registers b helperName (w.hosts "np04").processes = false ∧
      ((attempt b ⟨500, 20⟩).trace (Line.answer losses) (.opened w)).length = 2 ∧
      played.2.sent = 2 ∧ registers b helperName (played.2.world.hosts "np04").processes = true := by
  decide +kernel

end RunControl.HostEnvironment
