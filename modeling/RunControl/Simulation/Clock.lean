import RunControl.Simulation.World

/-!
A world with a clock that goes on.

What the clock shows is given by how often it was read before, so two worlds with one clock get
the same readings in the same order.
-/

namespace RunControl.Simulation

/-- The readings of a clock in order, each as fourteen digits. -/
abbrev Clock := Nat → String

/-- A world, and how often its clock was read. -/
structure Timed where
  world : World
  readings : Nat

namespace Timed

/-- A world whose clock was not read yet. -/
def started (w : World) : Timed :=
  ⟨w, 0⟩

/-- Answers requests; the local time is the next reading of the clock. -/
def answer (clock : Clock) : Answerer Timed
  | .order host o, s =>
    let (reply, w) := s.world.answerOrder host o
    (reply, ⟨w, s.readings⟩)
  | .command host port command args, s =>
    let (reply, w) := s.world.answerCommand host port command args
    (reply, ⟨w, s.readings⟩)
  | .now, s => (clock s.readings, ⟨s.world, s.readings + 1⟩)
  | .pause milliseconds, s => ((), ⟨(World.answer (.pause milliseconds) s.world).2, s.readings⟩)

end Timed

end RunControl.Simulation
