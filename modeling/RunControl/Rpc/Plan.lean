import RunControl.Rpc.Request

/-!
Plans: what to ask next, given the answers so far.

A plan is a finite tree of requests. Nothing in it says who answers, so a statement
about a plan can speak of every answerer: of one that fails as it likes as well as of
a supervisor kept in memory. `Plan.run` plays a plan against an answerer with a state,
and `Plan.trace` also gives the requests with their answers in order.
-/

namespace RunControl

/-- A plan with a result in `α`. -/
inductive Plan (α : Type) where
  | done (value : α)
  | ask (request : Request) (next : request.Answer → Plan α)

/-- Answers requests, and may change its state with each. -/
abbrev Answerer (σ : Type) := (request : Request) → σ → request.Answer × σ

/-- A request with the answer it got. -/
structure Event where
  request : Request
  answer : request.Answer

namespace Plan

variable {α β γ σ : Type}

/-- The plan that goes on with the result of another. -/
def bind : Plan α → (α → Plan β) → Plan β
  | done a, f => f a
  | ask r next, f => ask r fun answer => (next answer).bind f

instance : Monad Plan where
  pure := done
  bind := bind

@[simp]
theorem pure_bind (a : α) (f : α → Plan β) : (done a).bind f = f a := rfl

@[simp]
theorem bind_done (p : Plan α) : p.bind done = p := by
  induction p with
  | done => rfl
  | ask r next ih => simp only [bind, ih]

theorem bind_assoc (p : Plan α) (f : α → Plan β) (g : β → Plan γ) :
    (p.bind f).bind g = p.bind fun a => (f a).bind g := by
  induction p with
  | done => rfl
  | ask r next ih => simp only [bind, ih]

instance : LawfulMonad Plan :=
  LawfulMonad.mk' Plan (fun p => bind_done p) (fun _ _ => rfl) bind_assoc

/-- Asks one request. -/
def request (r : Request) : Plan r.Answer :=
  ask r done

/-- The result of a plan, and the answerer's last state. -/
def run (answer : Answerer σ) : Plan α → σ → α × σ
  | done a, s => (a, s)
  | ask r next, s =>
    let (reply, s) := answer r s
    (next reply).run answer s

/-- The requests of a plan with their answers, in order. -/
def trace (answer : Answerer σ) : Plan α → σ → List Event
  | done _, _ => []
  | ask r next, s =>
    let (reply, s) := answer r s
    ⟨r, reply⟩ :: (next reply).trace answer s

theorem run_bind (answer : Answerer σ) (p : Plan α) (f : α → Plan β) (s : σ) :
    (p.bind f).run answer s = (f (p.run answer s).1).run answer (p.run answer s).2 := by
  induction p generalizing s with
  | done => rfl
  | ask r next ih => exact ih _ _

theorem trace_bind (answer : Answerer σ) (p : Plan α) (f : α → Plan β) (s : σ) :
    (p.bind f).trace answer s =
      p.trace answer s ++ (f (p.run answer s).1).trace answer (p.run answer s).2 := by
  induction p generalizing s with
  | done => rfl
  | ask r next ih => exact congrArg _ (ih _ _)

/-- The results of a plan for each item, in order. -/
def forEach (items : List α) (plan : α → Plan β) : Plan (List β) :=
  match items with
  | [] => done []
  | a :: r => (plan a).bind fun b => (forEach r plan).bind fun bs => done (b :: bs)

end Plan

end RunControl
