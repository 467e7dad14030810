/-!
The connections of a MySQL pool, shared by statements that run side by side. A statement that runs out of
its time is stopped over another connection of the same pool, while it still holds its own.
-/
namespace SemanticLayer.Wire.MySql

/-- How far the call for a statement has come. -/
inductive Call where
  /-- Waiting for a connection, though not without end. -/
  | waiting
  | running
  /-- Out of time: waiting for a connection over which to stop the statement. -/
  | overdue
  | stopping
  /-- At its end; `late` says that the statement ran out of its time. -/
  | ended (late : Bool)
  deriving DecidableEq, Repr

def Call.held : Call → Nat
  | waiting => 0
  | running => 1
  | overdue => 1
  | stopping => 2
  | ended _ => 0

/-- The calls that share a pool of `size` connections. -/
structure SharedPool where
  size : Nat
  calls : List Call
  deriving DecidableEq, Repr

namespace SharedPool

def inUse (p : SharedPool) : Nat :=
  p.calls.foldr (fun call others => call.held + others) 0

inductive Move where
  | get
  /-- There is room for the connection it waits for, but none can be made. -/
  | miss
  /-- It has waited too long for its first connection. -/
  | giveUp
  | answer
  | expire
  deriving DecidableEq, Repr

/-- The call behind a move, if it can make it; `free` says that the pool has a connection to give. -/
def moved (free : Bool) : Call → Move → Option Call
  | .waiting, .get => if free then some .running else none
  | .waiting, .miss => if free then some (.ended false) else none
  | .waiting, .giveUp => some (.ended false)
  | .running, .answer => some (.ended false)
  | .running, .expire => some .overdue
  | .overdue, .get => if free then some .stopping else none
  | .overdue, .miss => if free then some (.ended true) else none
  | .stopping, .answer => some (.ended true)
  | _, _ => none

def step (p : SharedPool) (number : Nat) (move : Move) : Option SharedPool := do
  let call ← p.calls[number]?
  let next ← moved (decide (p.inUse < p.size)) call move
  pure { p with calls := p.calls.set number next }

/-- The calls behind a list of moves; a move that cannot be made changes nothing. -/
def run (p : SharedPool) (moves : List (Nat × Move)) : SharedPool :=
  moves.foldl (fun p m => (p.step m.1 m.2).getD p) p

/-- A pool whose calls have all yet to get a connection. -/
def fresh (size calls : Nat) : SharedPool :=
  ⟨size, List.replicate calls .waiting⟩

end SharedPool

end SemanticLayer.Wire.MySql
