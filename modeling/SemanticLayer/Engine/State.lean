import SemanticLayer.Engine.Errand
import SemanticLayer.Engine.Lock
import SemanticLayer.Schema.Cache
/-!
The state that the tasks of an engine share, and how far each task has come. A task goes from one stage to
the next in steps that no other task sees the inside of; between any two of them other tasks may move.
-/
namespace SemanticLayer

inductive Operation where
  | acquire (target : Target)
  | evict (key : PoolKey)
  | query (request : Request)
  | values (source field : String) (id : Option String)
  | raw (request : RawRequest)
  /-- Describing a database, afresh or from the cache. -/
  | describe (id : Option String) (afresh : Bool)
  /-- Testing a connection that is not saved. -/
  | test (connection : Connection)
  | testSaved (id : String)
  /-- Dropping what is kept about a saved connection that was edited or removed. -/
  | changed (id : String)
  | shutdown
  | save (connection : Connection)
  | remove (id : String)

/-- How far a task has come with getting a pool. The pools and the table of turns are locked only while they
are looked at or changed. Pools of one key are made one at a time, by the task that has the turn of the key. -/
inductive Acquisition where
  /-- Waiting to read the pools, at first or in the turn of the key. -/
  | waiting (inTurn : Bool)
  | looking (inTurn : Bool)
  /-- Waiting for the table of turns. -/
  | enrolling
  /-- Looking the key up in the table of turns. -/
  | enrolled
  | queueing
  | creating
  | placing (backend : Nat)
  | inserting (backend : Nat)
  /-- Giving up the turn, with a pool or a failure. -/
  | releasing (result : Except Failure Nat)

/-- Whether an operation takes pools out of their places at once. -/
def Operation.discards : Operation → Bool
  | evict _ | changed _ | shutdown => true
  | _ => false

inductive Stage where
  | start (operation : Operation)
  /-- Looking a description up in the cache. -/
  | consulting (target : Target)
  | acquiring (progress : Acquisition) (target : Target) (errand : Errand)
  /-- Waiting for the first of the remaining statements, after the results so far. -/
  | running (backend : Nat) (errand : Errand) (statement : String) (rest : List String)
      (results : List ResultSet)
  | storing (key : PoolKey) (schema : DatabaseSchema)
  /-- Waiting for a pool of its own to test a connection with. -/
  | opening (connection : Connection) (id : Option String)
  | closing (backend : Nat) (id : Option String) (outcome : Except Failure Reply)
  | recording (id : String) (outcome : Except Failure Reply)
  /-- Dropping a description from the cache. -/
  | invalidating (key : PoolKey)
  /-- Closing pools one after another. -/
  | shutting (backends : List Nat)
  | clearing
  | done (outcome : Except Failure Reply)

def Stage.isDone : Stage → Bool
  | done _ => true
  | _ => false

/-- A pool that was made, for which connection and with which settings. Pools are numbered in the order in
which they are made. -/
structure Backend where
  connection : Connection
  settings : PoolSettings
  deriving DecidableEq

/-- A pool in its place, and the connection it was made for. -/
structure PoolEntry where
  connection : Connection
  backend : Nat
  deriving DecidableEq

/-- What happened outside, in order. -/
inductive Event where
  | created (backend : Nat)
  | executed (backend : Nat) (sql : String) (timeout : Nat)
  | closed (backend : Nat)
  deriving DecidableEq

structure EngineState where
  catalog : Catalog
  /-- The pools by the keys of their places. -/
  pools : List (PoolKey × PoolEntry)
  poolLock : SharedLock
  /-- The tasks that have the turn of a key. -/
  turns : List (PoolKey × Nat)
  /-- The task that looks at the table of turns. -/
  tableLock : Option Nat
  cache : Cache PoolKey DatabaseSchema
  /-- Nanoseconds from the midnight at which 1 January of year 1 begins. -/
  clock : Nat
  backends : List Backend
  /-- How often a pool was asked for. -/
  attempts : Nat
  /-- Pools that were put out of their places and are yet to be closed. -/
  discarded : List Nat
  history : List Event
  tasks : List Stage

namespace EngineState

def initial (settings : Settings) (catalog : Catalog) : EngineState where
  catalog := catalog
  pools := []
  poolLock := .free
  turns := []
  tableLock := none
  cache := .empty settings.defaults.cache.capacity
    (settings.defaults.cache.lifetime * Calendar.second)
  clock := 0
  backends := []
  attempts := 0
  discarded := []
  history := []
  tasks := []

def pool? (s : EngineState) (key : PoolKey) : Option PoolEntry :=
  s.pools.lookup key

/-- The pool of a target, if it was made for the same endpoint. -/
def current? (s : EngineState) (target : Target) : Option Nat :=
  ((s.pool? target.key).filter fun p => p.connection.sameEndpoint target.connection).map
    PoolEntry.backend

/-- Puts a pool in the place of a key; one that was there is discarded. -/
def insertPool (s : EngineState) (key : PoolKey) (entry : PoolEntry) : EngineState :=
  { s with
    pools := (key, entry) :: s.pools.filter fun p => p.1 ≠ key
    discarded := s.discarded ++ ((s.pool? key).map PoolEntry.backend).toList }

def evict (s : EngineState) (key : PoolKey) : EngineState :=
  { s with
    pools := s.pools.filter fun p => p.1 ≠ key
    discarded := s.discarded ++ ((s.pool? key).map PoolEntry.backend).toList }

def placed (s : EngineState) : List Nat :=
  s.pools.map fun p => p.2.backend

def withoutPools (s : EngineState) : EngineState :=
  { s with pools := [] }

def happened (s : EngineState) (event : Event) : EngineState :=
  { s with history := s.history ++ [event] }

def create (s : EngineState) (backend : Backend) : EngineState :=
  { s with backends := s.backends ++ [backend] }.happened (.created s.backends.length)

def database (s : EngineState) (backend : Nat) : Database :=
  match s.backends[backend]? with
  | some b => b.connection.database
  | none => default

def takeTurn (s : EngineState) (key : PoolKey) (task : Nat) : EngineState :=
  { s with turns := (key, task) :: s.turns }

def endTurn (s : EngineState) (key : PoolKey) : EngineState :=
  { s with turns := s.turns.filter fun t => t.1 ≠ key }

/-- The tasks that hold what a task at a stage waits for. -/
def holders (s : EngineState) : Stage → List Nat
  | .start operation => if operation.discards then s.poolLock.holders else []
  | .acquiring (.waiting _) _ _ => s.poolLock.writer.toList
  | .acquiring .enrolling _ _ => s.tableLock.toList
  | .acquiring .queueing target _ => (s.turns.lookup target.key).toList
  | .acquiring (.placing _) _ _ => s.poolLock.holders
  | _ => []

def moveTo (s : EngineState) (task : Nat) (stage : Stage) : EngineState :=
  { s with tasks := s.tasks.set task stage }

def now (s : EngineState) : Calendar.Stamp :=
  ⟨s.clock / Calendar.second, s.clock % Calendar.second⟩

end EngineState

end SemanticLayer
