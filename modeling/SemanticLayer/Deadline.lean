import SemanticLayer.Failure
/-!
Statements under a limit of time. One that runs out of it is given up before the database is told to stop
it, so that its connection is free for that.
-/
namespace SemanticLayer.Deadline

/-- What is seen of a statement under a limit of time. -/
inductive Event where
  | finished
  /-- The statement is let go of, and with it its connection. -/
  | dropped
  | cancelStarted
  | cancelFinished
  deriving DecidableEq, Repr

structure Timed (α : Type) where
  outcome : Except Failure α
  events : List (Nat × Event)

/-- A statement that takes `duration` to its outcome, with a limit on its time, and a cancellation that
takes `cancel`. A statement that ends at its limit is in time. -/
def run {α : Type} (limit duration cancel : Nat) (outcome : Except Failure α) : Timed α :=
  if duration ≤ limit then ⟨outcome, [(duration, .finished), (duration, .dropped)]⟩
  else
    ⟨.error (.timeout limit),
      [(limit, .dropped), (limit, .cancelStarted), (limit + cancel, .cancelFinished)]⟩

end SemanticLayer.Deadline
