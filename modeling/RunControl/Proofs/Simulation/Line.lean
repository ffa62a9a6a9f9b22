import RunControl.Proofs.Simulation.Served
import RunControl.Simulation.Line

/-!
Calls on a line that loses replies.

What is seen of a row of calls is the row that the supervisor answered, with the lost replies
masked by their place (`masked`). So a plan about a host that is played over such a line is
served there as it would be on any other (`served_of_line`), and only what is seen differs.
-/

namespace RunControl.Simulation

variable {b : Binding} {name : String} {c : Call} {calls seen : List Call} {losses : Losses}
  {n : Nat} {s t : Line}

/-- What is seen of a call whose reply may be lost. -/
def maskCall (loss : Option Loss) : Call → Call
  | .list reply => .list (Loss.mask loss reply)
  | .add settings reply => .add settings (Loss.mask loss reply)
  | .remove reply => .remove (Loss.mask loss reply)
  | .start reply => .start (Loss.mask loss reply)
  | .stop reply => .stop (Loss.mask loss reply)
  | .info reply => .info (Loss.mask loss reply)
  | .read log reply => .read log (Loss.mask loss reply)
  | .clear reply => .clear (Loss.mask loss reply)
  | .pause milliseconds => .pause milliseconds

/-- What is seen of calls on a line on which `n` requests were sent before. -/
def masked (losses : Losses) : Nat → List Call → List Call
  | _, [] => []
  | n, c :: calls => maskCall (losses n) c :: masked losses (n + 1) calls

/-- A reply that is seen was not lost. -/
theorem of_mask_ok {α : Type} {loss : Option Loss} {reply : Except RpcError α} {a : α}
    (seen : Loss.mask loss reply = .ok a) : loss = none ∧ reply = .ok a := by
  cases loss with
  | none => exact ⟨rfl, seen⟩
  | some l => cases seen

@[simp]
theorem maskCall_none (c : Call) : maskCall none c = c := by
  cases c <;> rfl

/-- Where no reply is lost any more, calls are seen as they are. -/
theorem masked_eq_self (arrive : ∀ i, n ≤ i → losses i = none) (calls : List Call) :
    masked losses n calls = calls := by
  induction calls generalizing n with
  | nil => rfl
  | cons c calls ih =>
      rw [masked, arrive n (Nat.le_refl n), maskCall_none,
        ih fun i later => arrive i (Nat.le_of_succ_le later)]

/-- What is asked on a line takes its effect in the world. -/
theorem line_answer_snd (r : Request) (s : Line) :
    (Line.answer losses r s).2 = ⟨(World.answer r s.world).2, s.sent + 1⟩ := by
  cases r <;> rfl

/-- What is seen of a call is masked from what the world answered. -/
theorem exists_maskCall
    (same : (c.event b name).answer = (Line.answer losses (c.event b name).request s).1) :
    ∃ sent : Call, c = maskCall (losses s.sent) sent ∧ sent.event b name =
      ⟨(c.event b name).request, (World.answer (c.event b name).request s.world).1⟩ := by
  cases c with
  | list reply => exact ⟨.list _, congrArg Call.list same, rfl⟩
  | add settings reply => exact ⟨.add settings _, congrArg (Call.add settings) same, rfl⟩
  | remove reply => exact ⟨.remove _, congrArg Call.remove same, rfl⟩
  | start reply => exact ⟨.start _, congrArg Call.start same, rfl⟩
  | stop reply => exact ⟨.stop _, congrArg Call.stop same, rfl⟩
  | info reply => exact ⟨.info _, congrArg Call.info same, rfl⟩
  | read log reply => exact ⟨.read log _, congrArg (Call.read log) same, rfl⟩
  | clear reply => exact ⟨.clear _, congrArg Call.clear same, rfl⟩
  | pause milliseconds => exact ⟨.pause milliseconds, rfl, rfl⟩

/-- Calls that are seen on a line were served by the supervisor of their host, up to what was
lost of the replies. -/
theorem served_of_line (plain : s.world.Unprepared b.host)
    (answered : Answered (Line.answer losses) (seen.map (Call.event b name)) s t) :
    ∃ sent, seen = masked losses s.sent sent ∧
      Served b name sent (s.world.hosts b.host) (t.world.hosts b.host) ∧
      t.world.Unprepared b.host ∧ t.sent = s.sent + seen.length := by
  induction seen generalizing s with
  | nil =>
      cases answered
      exact ⟨[], rfl, rfl, plain, rfl⟩
  | cons c seen ih =>
      obtain ⟨same, rest⟩ := answered_cons_iff.mp answered
      obtain ⟨sent, masks, event⟩ := exists_maskCall same
      have given : (sent.event b name).answer =
          (World.answer (sent.event b name).request s.world).1 := by
        rw [event]
      obtain ⟨step, still, -⟩ := step_of_answer plain given
      rw [event] at step still
      rw [line_answer_snd] at rest
      obtain ⟨more, sees, served, unprepared, count⟩ := ih still rest
      refine ⟨sent :: more, ?_, ⟨_, step, served⟩, unprepared, ?_⟩
      · rw [masked, masks, sees]
      · show t.sent = s.sent + (seen.length + 1)
        rw [count]
        exact Nat.add_right_comm s.sent 1 seen.length

end RunControl.Simulation
