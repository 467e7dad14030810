import SemanticLayer.Engine.Step
/-!
Operations carried out to their end, when all that the outside answers is known: of the tasks that can move,
the first one does.
-/
namespace SemanticLayer

structure World where
  /-- Whether a pool can be made, by how many were asked for before. -/
  creation : Nat → Option Failure
  /-- What a statement gives on a pool. -/
  execution : Nat → String → Except Failure ResultSet

namespace EngineState

def outside (w : World) (s : EngineState) (stage : Stage) : Outside where
  creation := w.creation s.attempts
  execution := match stage with
    | .running backend _ statement _ _ => w.execution backend statement
    | _ => .ok .empty

/-- The step of the first task that can make one; the tasks before `number` cannot. -/
def firstStep (e : Engine) (w : World) (s : EngineState) (number : Nat) :
    List Stage → Option EngineState
  | [] => none
  | stage :: rest =>
    match s.step e (.task number (s.outside w stage)) with
    | some next => some next
    | none => s.firstStep e w (number + 1) rest

/-- The next step: of a task if one can move, or else a discarded pool is closed. -/
def nextStep (e : Engine) (w : World) (s : EngineState) : Option EngineState :=
  match s.firstStep e w 0 s.tasks with
  | some next => some next
  | none => s.discarded.head?.bind fun backend => s.step e (.close backend)

def settle (e : Engine) (w : World) : Nat → EngineState → EngineState
  | 0, s => s
  | steps + 1, s =>
    match s.nextStep e w with
    | some next => settle e w steps next
    | none => s

/-- As many steps as new tasks can make. A task makes at most twenty, not counting the pools it closes, and
each task adds at most one pool. -/
def enough (s : EngineState) (operations : List Operation) : Nat :=
  (operations.length + 1) * (20 + s.pools.length + s.discarded.length + operations.length)

def outcome : Stage → Except Failure Reply
  | .done outcome => outcome
  | _ => .error (.other "unfinished")

def perform (e : Engine) (w : World) (s : EngineState) (operations : List Operation) :
    EngineState × List (Except Failure Reply) :=
  let started := { s with tasks := operations.map .start }
  let ended := settle e w (s.enough operations) started
  ({ ended with tasks := [] }, ended.tasks.map outcome)

end EngineState

end SemanticLayer
