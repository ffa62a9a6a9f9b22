import RunControl.Proofs.HostEnvironment.Restoration
import RunControl.Proofs.Supervisor.Operation

/-!
What a plan about one process leaves alone.

Whoever answers, everything that is done through a binding is a row of calls about one process of
its group (`Plan.Concerns`). Played in a world, such a plan changes nothing but this process
(`confined_of_concerns`), and unless it adds the process there is none afterwards where there was
none (`operation_absent`).
-/

namespace RunControl

namespace Plan

variable {α β σ : Type}

/-- The last state of a batch is that of its last items, begun where the first left off. -/
theorem run_forEach_cons (answer : Answerer σ) (plan : α → Plan β) (a : α) (items : List α) (s : σ) :
    ((forEach (a :: items) plan).run answer s).2 =
      ((forEach items plan).run answer ((plan a).run answer s).2).2 := by
  rw [forEach, run_bind, run_bind]
  rfl

theorem run_forEach_append (answer : Answerer σ) (plan : α → Plan β) (first second : List α)
    (s : σ) : ((forEach (first ++ second) plan).run answer s).2 =
      ((forEach second plan).run answer ((forEach first plan).run answer s).2).2 := by
  induction first generalizing s with
  | nil => rfl
  | cons a first ih =>
      rw [List.cons_append, run_forEach_cons, run_forEach_cons]
      exact ih _

/-- What every item of a batch keeps is kept by the batch. -/
theorem forEach_keeps {answer : Answerer σ} {holds : σ → Prop} {items : List α} {plan : α → Plan β}
    (each : ∀ a ∈ items, ∀ s, holds s → holds ((plan a).run answer s).2) {s : σ} (first : holds s) :
    holds ((forEach items plan).run answer s).2 := by
  induction items generalizing s with
  | nil => exact first
  | cons a items ih =>
      rw [run_forEach_cons]
      exact ih (fun a' member => each a' (.tail _ member)) (each a (.head _) s first)

/-- Whoever answers, the plan asks for nothing but calls about the process of a name. -/
def Concerns (b : Binding) (name : String) (p : Plan α) : Prop :=
  ∀ events a, p.Course events a → ∃ calls : List Call, events = calls.map (Call.event b name)

end Plan

/-- Only an addition registers anything. -/
theorem Operation.Goes.unadded {b : Binding} {o : Operation} {calls : List Call} {reply : o.Reply}
    (goes : Operation.Goes b o calls reply) (other : ∀ name settings, o ≠ .add name settings)
    (settings : Table String) : .add settings (.ok ()) ∉ calls := by
  cases goes with
  | add reply => exact absurd rfl (other _ _)
  | remove removal => cases removal <;> simp
  | _ => simp

namespace Simulation

open HostEnvironment

variable {w w' w'' : World} {b : Binding} {name : String} {α : Type} {p : Plan α}

/-! ### What is left alone -/

/-- From `w` to `w'` nothing has changed on any host but the processes in some places, each given
by a host and an identifier, and the last process ids. -/
structure Confined (places : String → String → Prop) (w w' : World) : Prop where
  plain : ∀ host, w.Unprepared host → w'.Unprepared host
  setup : ∀ host, (w'.hosts host).setup = (w.hosts host).setup
  frame : ∀ host id, ¬ places host id →
    (w'.hosts host).processes.get? id = (w.hosts host).processes.get? id

variable {places places' : String → String → Prop}

theorem Confined.refl (places : String → String → Prop) (w : World) : Confined places w w :=
  ⟨fun _ plain => plain, fun _ => rfl, fun _ _ _ => rfl⟩

theorem Confined.trans (first : Confined places w w') (second : Confined places w' w'') :
    Confined places w w'' where
  plain host plain := second.plain host (first.plain host plain)
  setup host := (second.setup host).trans (first.setup host)
  frame host id away := (second.frame host id away).trans (first.frame host id away)

theorem Confined.mono (confined : Confined places w w')
    (wider : ∀ host id, places host id → places' host id) : Confined places' w w' where
  plain := confined.plain
  setup := confined.setup
  frame host id away := confined.frame host id fun place => away (wider host id place)

/-- A plan that is about one process is answered by the supervisor of its host. -/
theorem served_of_concerns (concerns : p.Concerns b name) (plain : w.Unprepared b.host) :
    ∃ calls, p.Course (calls.map (Call.event b name)) (w.play p).1 ∧
      Served b name calls (w.hosts b.host) ((w.play p).2.hosts b.host) ∧
      ∀ other, other ≠ b.host → (w.play p).2.hosts other = w.hosts other := by
  have course := Plan.play_course World.answer p w
  obtain ⟨calls, trace⟩ := concerns _ _ course
  have answered := Plan.play_answered World.answer p w
  rw [trace] at answered course
  exact ⟨calls, course, served_of_answered plain answered⟩

/-- It changes nothing but that process. -/
theorem confined_of_concerns (concerns : p.Concerns b name) (plain : w.Unprepared b.host) :
    Confined (fun host id => host = b.host ∧ id = b.identifier name) w (w.play p).2 := by
  obtain ⟨calls, -, served, elsewhere⟩ := served_of_concerns concerns plain
  constructor
  case plain => exact fun host plain => plain.play p
  case setup =>
    intro host
    by_cases here : host = b.host
    · rw [here]
      exact served.setup
    · rw [elsewhere host here]
  case frame =>
    intro host id away
    by_cases here : host = b.host
    · subst here
      exact served.frame fun same => away ⟨rfl, same⟩
    · rw [elsewhere host here]

/-- What is done through a binding is about one process. -/
theorem concerns_operation (o : Operation) : (o.plan b).Concerns b (o.name?.getD "") := by
  intro events reply course
  obtain ⟨calls, same, -⟩ := Operation.plan_course course
  exact ⟨calls, same⟩

/-- A resolution is about the helper. -/
theorem concerns_resolve (poll : PollBudget) : (resolve b poll).Concerns b helperName := by
  intro events result course
  obtain ⟨forward, cleared, removed, _, same, -⟩ := resolve_course course
  exact ⟨_, same⟩

/-! ### What is not there -/

/-- What is not there is not there after an operation that is no addition. -/
theorem operation_absent (o : Operation) (other : ∀ name settings, o ≠ .add name settings)
    (plain : w.Unprepared b.host) {host id : String}
    (free : (w.hosts host).processes.get? id = none) :
    ((w.play (o.plan b)).2.hosts host).processes.get? id = none := by
  by_cases here : host = b.host
  · subst here
    have course := Plan.play_course World.answer (o.plan b) w
    obtain ⟨calls, trace, goes⟩ := Operation.plan_course course
    have answered := Plan.play_answered World.answer (o.plan b) w
    rw [trace] at answered
    obtain ⟨served, -⟩ := served_of_answered plain answered
    exact served.absent (goes.unadded other) free
  · obtain ⟨-, -, -, elsewhere⟩ := served_of_concerns (concerns_operation o) plain
    rw [elsewhere host here, free]

/-- Where stops and removals are not made to fail, a resolution leaves no helper that was not
there. -/
theorem resolve_absent (poll : PollBudget) (plain : w.Unprepared b.host)
    (stops : (w.hosts b.host).injected? .stop = none)
    (removes : (w.hosts b.host).injected? .remove = none)
    (free : (w.hosts b.host).processes.get? (b.identifier helperName) = none) :
    ((w.play (resolve b poll)).2.hosts b.host).processes.get? (b.identifier helperName) = none := by
  obtain ⟨forward, cleared, removed, ending, attempt, clearing, removing, served, -, -, -⟩ :=
    resolve_served poll plain
  by_cases late : Stage.registered.rank ≤ ending.stage.rank
  · obtain ⟨mid, before, dropping⟩ := served_append_iff.mp served
    obtain ⟨result, -, removal⟩ := removing.course late
    apply dropping.removed removal
    · rw [Host.injected?_of_setup before.setup, stops]
    · rw [Host.injected?_of_setup before.setup, removes]
  · cases attempt with
    | notAdded absent =>
        obtain rfl := clearing.eq_nil (show Stage.notStarted.rank < Stage.started.rank by decide)
        obtain rfl :=
          removing.eq_nil (show Stage.notStarted.rank < Stage.registered.rank by decide)
        exact served.absent (by simp) free
    | notStopped _ _ _ => exact absurd (Nat.le_refl _) late
    | launched _ launch => exact absurd launch.registered late

end Simulation

end RunControl
