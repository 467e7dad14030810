import SemanticLayer.Engine.State
/-!
The steps of an engine. What the outside answers is part of a turn, so that a run is determined by its
turns and every run can be spoken about.
-/
namespace SemanticLayer

/-- What the outside answers, should the task that has the turn wait for it. -/
structure Outside where
  /-- Why a pool cannot be made, if it cannot. -/
  creation : Option Failure
  execution : Except Failure ResultSet

inductive Turn where
  | task (number : Nat) (outside : Outside)
  /-- A discarded pool is closed. -/
  | close (backend : Nat)
  /-- Time passes. -/
  | wait (nanoseconds : Nat)

namespace EngineState

def arrived (s : EngineState) (backend : Nat) (errand : Errand) : Stage :=
  match errand.statements (s.database backend) with
  | .error f => .done (.error f)
  | .ok [] => .done (.ok (errand.reply (s.database backend) backend []))
  | .ok (statement :: rest) => .running backend errand statement rest []

/-- A test is over and its pool closed: the outcome is recorded for a saved connection. -/
def concluded (id : Option String) (outcome : Except Failure Reply) : Stage :=
  match id with
  | some id => .recording id outcome
  | none => .done outcome

/-- The stage behind the last statement. -/
def finished (backend : Nat) (errand : Errand) (outcome : Except Failure Reply) : Stage :=
  match errand, outcome with
  | .probe id _, outcome => .closing backend id outcome
  | .describe key _ _, .ok (.schema schema) => .storing key schema
  | _, outcome => .done outcome

/-- What the catalog is told about a test. -/
def testOutcome (s : EngineState) (outcome : Except Failure Reply) : TestOutcome :=
  match outcome with
  | .ok _ => ⟨.connected, s.now, none⟩
  | .error f => ⟨.failed, s.now, some f.message⟩

/-- A task that starts with a target goes on to get its pool. -/
def begun : Except Failure (Target × Errand) → Stage
  | .error f => .done (.error f)
  | .ok (target, errand) => .acquiring (.waiting false) target errand

def describeErrand (e : Engine) (target : Target) : Errand :=
  .describe target.key target.connection.catalogName (e.settingsOf target.key).query.timeout

/-- The first step of an operation: what it changes, and the stage it leads to. -/
def startStep (e : Engine) (s : EngineState) : Operation → EngineState × Stage
  | .acquire target => (s, begun (.ok (target, .hold)))
  | .evict key => (s.evict key, .done (.ok (.evicted (s.pool? key).isSome)))
  | .query request =>
    (s, begun ((e.prepare s.catalog request).map fun prepared =>
      let timeout := (e.settingsOf prepared.target.key).query.timeout
      (prepared.target, .query prepared.compiled timeout)))
  | .values source field id =>
    (s, begun ((e.prepareValues s.catalog source field id).map fun (target, sql) =>
      (target, .values sql (e.settingsOf target.key).query.timeout)))
  | .raw request =>
    (s, begun ((e.prepareRaw s.catalog request).map fun target =>
      (target, .raw request.sql (e.settingsOf target.key).sandbox)))
  | .describe id afresh =>
    match e.resolve s.catalog id with
    | .error f => (s, .done (.error f))
    | .ok target =>
      if afresh then (s, begun (.ok (target, describeErrand e target))) else (s, .consulting target)
  | .test connection => (s, .opening connection none)
  | .testSaved id =>
    match e.saved s.catalog id with
    | .error f => (s, .done (.error f))
    | .ok none => (s, .done (.error (Engine.missing id)))
    | .ok (some connection) => (s, .opening connection (some id))
  | .changed id => (s.evict (.connection id), .invalidating (.connection id))
  | .shutdown => (s.withoutPools, .shutting s.placed)
  | .save connection => ({ s with catalog := s.catalog.upsert connection }, .done (.ok .nothing))
  | .remove id => ({ s with catalog := s.catalog.remove id }, .done (.ok .nothing))

def acquireStep (e : Engine) (s : EngineState) (task : Nat) (creation : Option Failure)
    (target : Target) (errand : Errand) : Acquisition → EngineState × Stage
  | .waiting inTurn =>
    ({ s with poolLock := s.poolLock.read task }, .acquiring (.looking inTurn) target errand)
  | .looking inTurn =>
    let left := { s with poolLock := s.poolLock.endRead task }
    match s.current? target, inTurn with
    | some backend, false => (left, s.arrived backend errand)
    | none, false => (left, .acquiring .enrolling target errand)
    | some backend, true => (left, .acquiring (.releasing (.ok backend)) target errand)
    | none, true => (left, .acquiring .creating target errand)
  | .enrolling => ({ s with tableLock := some task }, .acquiring .enrolled target errand)
  | .enrolled => ({ s with tableLock := none }, .acquiring .queueing target errand)
  -- behind the turn the pool is looked for again: the one who had it may have made it
  | .queueing => (s.takeTurn target.key task, .acquiring (.waiting true) target errand)
  | .creating =>
    let asked := { s with attempts := s.attempts + 1 }
    match creation with
    | some f => (asked, .acquiring (.releasing (.error f)) target errand)
    | none =>
      (asked.create ⟨target.connection, (e.settingsOf target.key).pool⟩,
        .acquiring (.placing s.backends.length) target errand)
  | .placing backend =>
    ({ s with poolLock := s.poolLock.write task }, .acquiring (.inserting backend) target errand)
  -- the turn is kept until the pool can be found, and given up behind it
  | .inserting backend =>
    ({ s.insertPool target.key ⟨target.connection, backend⟩ with poolLock := s.poolLock.endWrite },
      .acquiring (.releasing (.ok backend)) target errand)
  | .releasing (.ok backend) => (s.endTurn target.key, s.arrived backend errand)
  | .releasing (.error f) => (s.endTurn target.key, .done (.error f))

def runStep (s : EngineState) (execution : Except Failure ResultSet) (backend : Nat)
    (errand : Errand) (statement : String) (rest : List String) (results : List ResultSet) :
    EngineState × Stage :=
  let db := s.database backend
  (s.happened (.executed backend statement errand.timeout),
    match execution, rest with
    | .error f, _ => finished backend errand (.error (errand.explain db f))
    | .ok result, [] => finished backend errand (.ok (errand.reply db backend (results ++ [result])))
    | .ok result, next :: rest => .running backend errand next rest (results ++ [result]))

/-- A step of a task that need not wait: what it changes, and the stage it leads to. -/
def move (e : Engine) (s : EngineState) (task : Nat) (outside : Outside) :
    Stage → EngineState × Stage
  | .start operation => s.startStep e operation
  | .consulting target =>
    match s.cache.get? s.clock target.key with
    | some schema => (s, .done (.ok (.schema schema)))
    | none => (s, begun (.ok (target, describeErrand e target)))
  | .acquiring progress target errand => s.acquireStep e task outside.creation target errand progress
  | .running backend errand statement rest results =>
    s.runStep outside.execution backend errand statement rest results
  | .storing key schema =>
    ({ s with cache := s.cache.insert s.clock key schema }, .done (.ok (.schema schema)))
  | .opening connection id =>
    let asked := { s with attempts := s.attempts + 1 }
    match outside.creation with
    | some f => (asked, concluded id (.error f))
    | none =>
      -- a test has a pool of its own, which no table knows
      let settings := { (e.settingsOf (.connection connection.id)).pool with size := 1 }
      let made := asked.create ⟨connection, settings⟩
      (made, made.arrived s.backends.length (.probe id e.settings.defaults.query.timeout))
  | .closing backend id outcome => (s.happened (.closed backend), concluded id outcome)
  | .recording id outcome =>
    let catalog :=
      if e.access.records then s.catalog.record id (s.testOutcome outcome) else s.catalog
    ({ s with catalog := catalog }, .done outcome)
  | .invalidating key => ({ s with cache := s.cache.erase key }, .done (.ok .nothing))
  | .shutting [] => (s, .clearing)
  | .shutting (backend :: rest) => (s.happened (.closed backend), .shutting rest)
  | .clearing => ({ s with cache := s.cache.clear }, .done (.ok .nothing))
  | .done outcome => (s, .done outcome)

/-- A task goes on from a stage. -/
def advance (e : Engine) (s : EngineState) (task : Nat) (outside : Outside) (stage : Stage) :
    EngineState :=
  let (moved, next) := s.move e task outside stage
  moved.moveTo task next

/-- A step of a task, if it can make one: it waits for those that hold what it needs. -/
def taskStep (e : Engine) (s : EngineState) (task : Nat) (outside : Outside) (stage : Stage) :
    Option EngineState :=
  if stage.isDone || !(s.holders stage).isEmpty then none else some (s.advance e task outside stage)

/-- A step of the engine. Every step takes a nanosecond. -/
def step (e : Engine) (s : EngineState) (turn : Turn) : Option EngineState :=
  let later := { s with clock := s.clock + 1 }
  match turn with
  | .task number outside => (s.tasks[number]?).bind (later.taskStep e number outside)
  | .close backend =>
    if s.discarded.contains backend then
      some ({ later with discarded := s.discarded.erase backend }.happened (.closed backend))
    else none
  | .wait nanoseconds => some { s with clock := s.clock + nanoseconds }

/-- The state at the end of a run; a turn in which nobody can move changes nothing. -/
def run (e : Engine) (s : EngineState) (turns : List Turn) : EngineState :=
  turns.foldl (fun s turn => (s.step e turn).getD s) s

end EngineState

end SemanticLayer
