import RunControl.Rpc.Plan

/-!
Courses of a plan: what can happen when it is played, whoever answers.

A course is a row of requests with answers together with the result that a plan comes
to. Playing a plan always gives a course (`play_course`), so what holds of every course
holds against every answerer. `Answered` keeps what a course leaves open: the states of
the one who answers. `Plan.Plays` says of one answerer and one state how a plan goes.
-/

namespace RunControl

variable {α β σ : Type}

namespace Plan

/-- `Course p events a`: the plan `p` may ask for what stands in `events`, get the answers
that stand there, and end with `a`. -/
inductive Course : Plan α → List Event → α → Prop where
  | done (a : α) : Course (.done a) [] a
  | ask {r : Request} {next : r.Answer → Plan α} {events : List Event} {a : α}
      (answer : r.Answer) : Course (next answer) events a →
      Course (.ask r next) (⟨r, answer⟩ :: events) a

theorem course_pure_iff {a b : α} {events : List Event} :
    Course (pure a) events b ↔ events = [] ∧ b = a := by
  constructor
  · intro course
    cases course
    exact ⟨rfl, rfl⟩
  · rintro ⟨rfl, rfl⟩
    exact .done b

theorem course_request_iff {r : Request} {events : List Event} {answer : r.Answer} :
    Course (request r) events answer ↔ events = [⟨r, answer⟩] := by
  constructor
  · intro course
    cases course with
    | ask reply rest =>
        cases rest
        rfl
  · rintro rfl
    exact .ask answer (.done answer)

/-- A course of one plan after another falls into a course of each. -/
theorem course_bind_iff {p : Plan α} {f : α → Plan β} {events : List Event} {b : β} :
    Course (p >>= f) events b ↔
      ∃ first a second, events = first ++ second ∧ Course p first a ∧ Course (f a) second b := by
  constructor
  · intro course
    induction p generalizing events with
    | done a => exact ⟨[], a, events, rfl, .done a, course⟩
    | ask r next ih =>
        cases course with
        | ask answer rest =>
            obtain ⟨first, a, second, rfl, courseP, courseF⟩ := ih answer rest
            exact ⟨⟨r, answer⟩ :: first, a, second, rfl, .ask answer courseP, courseF⟩
  · rintro ⟨first, a, second, rfl, courseP, courseF⟩
    induction courseP with
    | done a => exact courseF
    | ask answer _ ih => exact .ask answer (ih courseF)

theorem course_forEach_nil {plan : α → Plan β} {events : List Event} {results : List β}
    (course : (forEach [] plan).Course events results) : events = [] ∧ results = [] :=
  course_pure_iff.mp course

/-- A course for several items falls into one for the first and one for the others. -/
theorem course_forEach_cons {item : α} {items : List α} {plan : α → Plan β}
    {events : List Event} {results : List β}
    (course : (forEach (item :: items) plan).Course events results) :
    ∃ first b second others, events = first ++ second ∧ results = b :: others ∧
      (plan item).Course first b ∧ (forEach items plan).Course second others := by
  obtain ⟨first, b, second, rfl, head, rest⟩ := course_bind_iff.mp course
  obtain ⟨third, others, fourth, rfl, tail, ended⟩ := course_bind_iff.mp rest
  obtain ⟨rfl, rfl⟩ := course_pure_iff.mp ended
  exact ⟨first, b, third, others, by simp, rfl, head, tail⟩

end Plan

/-! ### Who answers -/

/-- `Answered answer events s t`: the answers in `events` are those that `answer` gives one
after another, beginning in `s`, and they leave it in `t`. -/
inductive Answered (answer : Answerer σ) : List Event → σ → σ → Prop where
  | nil (s : σ) : Answered answer [] s s
  | cons {events : List Event} {s t : σ} (r : Request) :
      Answered answer events (answer r s).2 t →
      Answered answer (⟨r, (answer r s).1⟩ :: events) s t

theorem answered_cons_iff {answer : Answerer σ} {e : Event} {events : List Event} {s t : σ} :
    Answered answer (e :: events) s t ↔
      e.answer = (answer e.request s).1 ∧ Answered answer events (answer e.request s).2 t := by
  constructor
  · intro answered
    cases answered with
    | cons r rest => exact ⟨rfl, rest⟩
  · rintro ⟨same, rest⟩
    obtain ⟨r, reply⟩ := e
    obtain rfl : reply = (answer r s).1 := same
    exact .cons r rest

namespace Plan

/-- Playing a plan gives one of its courses. -/
theorem play_course (answer : Answerer σ) (p : Plan α) (s : σ) :
    Course p (p.trace answer s) (p.run answer s).1 := by
  induction p generalizing s with
  | done a => exact .done a
  | ask r next ih => exact .ask (answer r s).1 (ih (answer r s).1 (answer r s).2)

/-- The answers of a plan that is played are the answerer's. -/
theorem play_answered (answer : Answerer σ) (p : Plan α) (s : σ) :
    Answered answer (p.trace answer s) s (p.run answer s).2 := by
  induction p generalizing s with
  | done a => exact .nil s
  | ask r next ih => exact .cons r (ih (answer r s).1 (answer r s).2)

/-! ### Plans as they are played -/

/-- `p.Plays answer s events a t`: played from the state `s`, the plan asks and is answered what
stands in `events`, ends with `a` and leaves the state `t`. -/
structure Plays (answer : Answerer σ) (p : Plan α) (s : σ) (events : List Event) (a : α) (t : σ) :
    Prop where
  run : p.run answer s = (a, t)
  trace : p.trace answer s = events

variable {answer : Answerer σ} {p : Plan α} {f : α → Plan β} {s t u : σ}
  {events rest : List Event} {a : α} {b : β}

theorem plays_done (answer : Answerer σ) (a : α) (s : σ) : (done a).Plays answer s [] a s :=
  ⟨rfl, rfl⟩

theorem plays_request {r : Request} {reply : r.Answer} (answered : answer r s = (reply, t)) :
    (request r).Plays answer s [⟨r, reply⟩] reply t := by
  constructor
  · simp only [request, run, answered]
  · simp only [request, trace, answered]

theorem Plays.bind (first : p.Plays answer s events a t)
    (second : (f a).Plays answer t rest b u) : (p.bind f).Plays answer s (events ++ rest) b u := by
  constructor
  · rw [run_bind, first.run, second.run]
  · rw [trace_bind, first.run, first.trace, second.trace]

/-- What a plan gives may be changed at its end. -/
theorem Plays.map (plays : p.Plays answer s events a t) (change : α → β) :
    (p.bind fun a => done (change a)).Plays answer s events (change a) t := by
  have whole := plays.bind (f := fun a => done (change a)) (plays_done answer (change a) t)
  rwa [List.append_nil] at whole

end Plan

end RunControl
