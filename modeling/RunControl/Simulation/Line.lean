import RunControl.Simulation.World

/-!
A line to a world on which replies are lost.

A call whose reply is lost takes its effect in the world like any other, but who called
only sees that the time for the call ran out. Which replies are lost is given by the
places of their requests.
-/

namespace RunControl.Simulation

open Utf8 (Bytes)

/-- What is seen of a reply that was lost: the status of a call whose time ran out. -/
structure Loss where
  endpoint : String
  message : String
  deriving DecidableEq, Repr

/-- The failure that a loss is seen as. -/
def Loss.error (l : Loss) : RpcError :=
  .ofStatus l.endpoint .deadlineExceeded l.message

/-- The replies that are lost, by the places of their requests. -/
abbrev Losses := Nat → Option Loss

/-- What is seen of a reply on a line that may lose it. -/
def Loss.mask {α : Type} (loss : Option Loss) (reply : Except RpcError α) : Except RpcError α :=
  match loss with
  | none => reply
  | some l => .error l.error

/-- A world at the end of a line, and the number of requests that were sent on it. -/
structure Line where
  world : World
  sent : Nat

namespace Line

/-- A line to a world on which nothing was sent yet. -/
def opened (w : World) : Line :=
  ⟨w, 0⟩

/-- Answers requests, but for the replies that are lost. The local time and pauses are
not asked for on the line, and only count as requests. -/
def answer (losses : Losses) : Answerer Line
  | .order host o, s =>
    let (reply, w) := s.world.answerOrder host o
    (Loss.mask (losses s.sent) reply, ⟨w, s.sent + 1⟩)
  | .command host port command args, s =>
    let (reply, w) := s.world.answerCommand host port command args
    (Loss.mask (losses s.sent) reply, ⟨w, s.sent + 1⟩)
  | .now, s => (s.world.now, ⟨s.world, s.sent + 1⟩)
  | .pause milliseconds, s => ((), ⟨(World.answer (.pause milliseconds) s.world).2, s.sent + 1⟩)

end Line

end RunControl.Simulation
