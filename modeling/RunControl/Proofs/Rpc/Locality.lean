import RunControl.Proofs.Rpc.Course

/-!
Plans by what they ask for, and answerers that keep hosts apart.

A plan stays at one host if it asks only for what does (`Plan.Only`, `Request.StaysAt`).
`Plan.Reaches` plays a plan a part of the way and tells what is left of it. Where every host
has a part of its own (`Separate`), what is asked at one host is answered from the part of this
host, and nothing is changed in the others.
-/

namespace RunControl

variable {α σ τ : Type}

/-- Whether a request stays at a host: it is an order to the supervisor there, or a pause. -/
def Request.StaysAt (host : String) : Request → Prop
  | .order other _ => other = host
  | .pause _ => True
  | .command .. | .now => False

namespace Plan

variable {β : Type} {allowed : Request → Prop} {answer : Answerer σ} {p rest : Plan α} {s t : σ}
  {past : List Event}

/-! ### Plans by their requests -/

/-- Whoever answers, the plan asks only for what is allowed. -/
def Only (allowed : Request → Prop) (p : Plan α) : Prop :=
  ∀ events a, p.Course events a → ∀ e ∈ events, allowed e.request

theorem only_any (p : Plan α) : p.Only fun _ => True :=
  fun _ _ _ _ _ => trivial

theorem only_done (a : α) : (done a).Only allowed := by
  intro events b course e member
  obtain ⟨rfl, -⟩ := course_pure_iff.mp course
  cases member

theorem only_ask {r : Request} {next : r.Answer → Plan α} (first : allowed r)
    (others : ∀ reply, (next reply).Only allowed) : (ask r next).Only allowed := by
  intro events a course e member
  cases course with
  | ask reply rest =>
      rcases List.mem_cons.mp member with rfl | member
      · exact first
      · exact others reply _ a rest e member

theorem only_request {r : Request} (single : allowed r) : (request r).Only allowed :=
  only_ask single only_done

theorem Only.bind {f : α → Plan β} (first : p.Only allowed) (others : ∀ a, (f a).Only allowed) :
    (p >>= f).Only allowed := by
  intro events b course e member
  obtain ⟨before, a, after, rfl, courseP, courseF⟩ := course_bind_iff.mp course
  rcases List.mem_append.mp member with member | member
  · exact first before a courseP e member
  · exact others a after b courseF e member

theorem only_forEach {plan : α → Plan β} {items : List α}
    (each : ∀ a ∈ items, (plan a).Only allowed) : (forEach items plan).Only allowed := by
  induction items with
  | nil => exact only_done []
  | cons a items ih =>
      refine (each a (.head _)).bind fun b => ?_
      exact (ih fun a' member => each a' (.tail _ member)).bind fun bs => only_done (b :: bs)

/-- The first request of the plan is allowed. -/
theorem Only.first {r : Request} {next : r.Answer → Plan α} (only : (ask r next).Only allowed)
    (answer : Answerer σ) (s : σ) : allowed r :=
  only _ _ (play_course answer (ask r next) s) _ (.head _)

/-- So are those after it, whatever the answer is. -/
theorem Only.next {r : Request} {next : r.Answer → Plan α} (only : (ask r next).Only allowed)
    (reply : r.Answer) : (next reply).Only allowed :=
  fun events a course e member => only (⟨r, reply⟩ :: events) a (.ask reply course) e (.tail _ member)

theorem Only.mono {wider : Request → Prop} (only : p.Only allowed)
    (implies : ∀ r, allowed r → wider r) : p.Only wider :=
  fun events a course e member => implies _ (only events a course e member)

/-- What every request that is allowed keeps, the plan keeps. -/
theorem Only.keeps (only : p.Only allowed) (holds : σ → Prop)
    (step : ∀ r t, allowed r → holds t → holds (answer r t).2) (first : holds s) :
    holds (p.run answer s).2 := by
  induction p generalizing s with
  | done a => exact first
  | ask r next ih => exact ih _ (only.next _) (step r s (only.first answer s) first)

/-! ### A part of the way -/

/-- `Reaches answer p s past rest t`: when `p` is played from `s`, then after what stands in
`past` there is `rest` left to be played from `t`. -/
inductive Reaches (answer : Answerer σ) (p : Plan α) (s : σ) : List Event → Plan α → σ → Prop where
  | start : Reaches answer p s [] p s
  | ask {past : List Event} {r : Request} {next : r.Answer → Plan α} {t : σ} :
      Reaches answer p s past (.ask r next) t →
      Reaches answer p s (past ++ [⟨r, (answer r t).1⟩]) (next (answer r t).1) (answer r t).2

/-- Playing what is left gives the result of the whole plan. -/
theorem Reaches.run (reaches : Reaches answer p s past rest t) :
    p.run answer s = rest.run answer t := by
  induction reaches with
  | start => rfl
  | ask _ ih => exact ih

/-- What is left is asked after what was asked. -/
theorem Reaches.trace (reaches : Reaches answer p s past rest t) :
    p.trace answer s = past ++ rest.trace answer t := by
  induction reaches with
  | start => rfl
  | ask _ ih =>
      rw [ih, List.append_assoc]
      rfl

/-- What is left can be played to its end. -/
theorem Reaches.complete (reaches : Reaches answer p s past rest t) :
    Reaches answer p s (past ++ rest.trace answer t) (.done (rest.run answer t).1)
      (rest.run answer t).2 := by
  induction rest generalizing past t with
  | done a => simpa [Plan.trace, Plan.run] using reaches
  | ask r next ih =>
      have further := ih (answer r t).1 reaches.ask
      rwa [List.append_assoc] at further

/-- A plan that is played reaches its result. -/
theorem reaches_done (answer : Answerer σ) (p : Plan α) (s : σ) :
    Reaches answer p s (p.trace answer s) (.done (p.run answer s).1) (p.run answer s).2 :=
  Reaches.start.complete

/-- A plan that asks only for what is allowed does so to its end. -/
theorem Reaches.only (reaches : Reaches answer p s past rest t) (only : p.Only allowed) :
    rest.Only allowed := by
  induction reaches with
  | start => exact only
  | ask _ ih => exact ih.next _

end Plan

/-- `Separate answer site`: every host has a part of the answerer's state, `site host`, to
itself. -/
structure Separate (answer : Answerer σ) (site : String → σ → τ) : Prop where
  /-- What is asked at a host is answered from its part, and its part changes with itself. -/
  same : ∀ {host : String} {r : Request} {s t : σ}, r.StaysAt host → site host s = site host t →
    (answer r s).1 = (answer r t).1 ∧ site host (answer r s).2 = site host (answer r t).2
  /-- The parts of other hosts stay as they are. -/
  away : ∀ {host other : String} {r : Request} {s : σ}, r.StaysAt host → other ≠ host →
    site other (answer r s).2 = site other s

end RunControl
