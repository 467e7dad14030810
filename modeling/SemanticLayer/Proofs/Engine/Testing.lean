import SemanticLayer.Proofs.Connection.Default
import SemanticLayer.Proofs.Engine.Places
/-!
A test of a saved connection. It runs on a pool of its own, which is closed before the catalog is told the outcome; of
all else that tasks share nothing changes.
-/
namespace SemanticLayer

/-- What the outside answers to a test of a connection: whether a pool can be made, and what the two statements give. -/
structure ProbeAnswers where
  creation : Option Failure
  version : Except Failure ResultSet
  tables : Except Failure ResultSet

namespace ProbeAnswers

/-- What the test finds: a report, or the first failure. -/
def outcome (a : ProbeAnswers) (db : Database) : Except Failure TestReport :=
  match a.creation with
  | some f => .error f
  | none => do
    let version ← a.version
    let tables ← a.tables
    pure (Errand.report db [version, tables])

/-- The statements that are run: none behind one that fails. -/
def statements (a : ProbeAnswers) (db : Database) : List String :=
  match a.version with
  | .error _ => [db.versionQuery]
  | .ok _ => [db.versionQuery, db.tableCountQuery]

def made (a : ProbeAnswers) (backend : Backend) : List Backend :=
  match a.creation with
  | some _ => []
  | none => [backend]

def events (a : ProbeAnswers) (db : Database) (timeout backend : Nat) : List Event :=
  match a.creation with
  | some _ => []
  | none => .created backend :: (a.statements db).map (fun sql => .executed backend sql timeout) ++ [.closed backend]

/-- As many turns of a task as a test takes at most, with the answers that it waits for at each. -/
def turns (a : ProbeAnswers) (i : Nat) : List Turn :=
  let early : Outside := ⟨a.creation, a.version⟩
  let late : Outside := ⟨a.creation, a.tables⟩
  [early, early, early, late, late, late].map (.task i)

end ProbeAnswers

/-- A task tests a saved connection, or has come to its end. -/
def Stage.TestsSaved (id : String) : Stage → Prop
  | .start (.testSaved name) => name = id
  | .opening _ (some name) => name = id
  | .running _ (.probe (some name) _) _ _ _ => name = id
  | .closing _ (some name) _ => name = id
  | .recording name _ => name = id
  | .done _ => True
  | _ => False

/-- A saved connection with what a test of it found. -/
def Connection.tested (c : Connection) (time : Calendar.Stamp) : Except Failure TestReport → Connection
  | .ok _ => { c with status := .connected, testedAt := some time, lastError := none }
  | .error f => { c with status := .failed, testedAt := some time, lastError := some f.message }

namespace EngineState

variable {e : Engine} {s : EngineState} {i b timeout : Nat} {o : Outside} {stage : Stage} {id statement : String}
  {c : Connection} {outcome : Except Failure Reply} {rest : List String} {results : List ResultSet} {f : Failure}

/-! ## One step after another -/

theorem run_own (hat : s.At i stage) (hdone : stage.isDone = false) (hready : s.holders stage = []) (o : Outside)
    (os : List Outside) :
    s.run e ((o :: os).map (.task i)) = ((s.after 1).advance e i o stage).run e (os.map (.task i)) :=
  run_of_step (step_eq hat hdone hready) _

theorem run_of_done (hat : s.At i (.done outcome)) (os : List Outside) : s.run e (os.map (.task i)) = s := by
  induction os with
  | nil => rfl
  | cons o os ih =>
      have hstep : s.step e (.task i o) = none := by
        rw [Option.eq_none_iff_forall_ne_some]
        intro s' hstep
        obtain ⟨stage, hstage, hdone, -⟩ := step_task_iff.1 hstep
        rw [← hat.unique hstage] at hdone
        cases hdone
      rw [List.map_cons, run, List.foldl_cons, hstep]
      exact ih

/-- Time passes and something happens outside. -/
def passed (s : EngineState) (steps : Nat) (events : List Event) : EngineState :=
  { s with clock := s.clock + steps, history := s.history ++ events }

def concluding (e : Engine) (s : EngineState) (i : Nat) (id : String) (outcome : Except Failure Reply) : EngineState :=
  { s.after 1 with
    catalog := if e.access.records then s.catalog.record id ((s.after 1).testOutcome outcome) else s.catalog
    tasks := s.tasks.set i (.done outcome) }

theorem At.moveTo_passed (hat : s.At i stage) (steps : Nat) (events : List Event) (next : Stage) :
    ((s.passed steps events).moveTo i next).At i next :=
  List.getElem?_set_self (List.getElem?_eq_some_iff.1 hat).1

theorem concluding_passed (s : EngineState) (i : Nat) (next : Stage) (steps more : Nat) (events behind : List Event) :
    (((s.passed steps events).moveTo i next).passed more behind).concluding e i id outcome =
      (s.passed (steps + more) (events ++ behind)).concluding e i id outcome := by
  simp only [concluding, passed, moveTo, after, List.set_set, Nat.add_assoc, List.append_assoc]
  rfl

theorem run_recording (hat : s.At i (.recording id outcome)) (o : Outside) (os : List Outside) :
    s.run e ((o :: os).map (.task i)) = (s.passed 0 []).concluding e i id outcome := by
  rw [run_own hat rfl rfl, run_of_done (at_advance_after hat)]
  simp only [passed, List.append_nil]
  rfl

theorem run_closing (hat : s.At i (.closing b (some id) outcome)) (o o' : Outside) (os : List Outside) :
    s.run e ((o :: o' :: os).map (.task i)) = (s.passed 1 [.closed b]).concluding e i id outcome := by
  have hadvance : (s.after 1).advance e i o (.closing b (some id) outcome) =
      (s.passed 1 [.closed b]).moveTo i (.recording id outcome) := rfl
  rw [run_own hat rfl rfl, hadvance, run_recording (hat.moveTo_passed ..), concluding_passed, List.append_nil]

/-- A statement of a test fails. -/
theorem run_failing (hat : s.At i (.running b (.probe (some id) timeout) statement rest results))
    (ho : o.execution = .error f) (o' o'' : Outside) (os : List Outside) :
    s.run e ((o :: o' :: o'' :: os).map (.task i)) =
      (s.passed 2 [.executed b statement timeout, .closed b]).concluding e i id (.error f) := by
  have hadvance : (s.after 1).advance e i o (.running b (.probe (some id) timeout) statement rest results) =
      (s.passed 1 [.executed b statement timeout]).moveTo i (.closing b (some id) (.error f)) := by
    simp only [advance, move, runStep, ho]
    rfl
  rw [run_own hat rfl rfl, hadvance, run_closing (hat.moveTo_passed ..), concluding_passed]
  rfl

variable {result : ResultSet} {next : String}

theorem run_last (hat : s.At i (.running b (.probe (some id) timeout) statement [] results))
    (ho : o.execution = .ok result) (o' o'' : Outside) (os : List Outside) :
    s.run e ((o :: o' :: o'' :: os).map (.task i)) =
      (s.passed 2 [.executed b statement timeout, .closed b]).concluding e i id
        (.ok (.report (Errand.report (s.database b) (results ++ [result])))) := by
  have hadvance : (s.after 1).advance e i o (.running b (.probe (some id) timeout) statement [] results) =
      (s.passed 1 [.executed b statement timeout]).moveTo i
        (.closing b (some id) (.ok (.report (Errand.report (s.database b) (results ++ [result]))))) := by
    simp only [advance, move, runStep, ho]
    rfl
  rw [run_own hat rfl rfl, hadvance, run_closing (hat.moveTo_passed ..), concluding_passed]
  rfl

theorem run_next (hat : s.At i (.running b (.probe (some id) timeout) statement (next :: rest) results))
    (ho : o.execution = .ok result) (os : List Outside) :
    s.run e ((o :: os).map (.task i)) =
      ((s.passed 1 [.executed b statement timeout]).moveTo i
        (.running b (.probe (some id) timeout) next rest (results ++ [result]))).run e (os.map (.task i)) := by
  have hadvance : (s.after 1).advance e i o (.running b (.probe (some id) timeout) statement (next :: rest) results) =
      (s.passed 1 [.executed b statement timeout]).moveTo i
        (.running b (.probe (some id) timeout) next rest (results ++ [result])) := by
    simp only [advance, move, runStep, ho]
    rfl
  rw [run_own hat rfl rfl, hadvance]

/-! ## A whole test -/

theorem run_statements (a : ProbeAnswers) (hcreation : a.creation = none) {db : Database}
    (hat : s.At i (.running b (.probe (some id) timeout) db.versionQuery [db.tableCountQuery] []))
    (hdb : s.database b = db) :
    ∃ steps, s.run e (([⟨a.creation, a.version⟩, ⟨a.creation, a.tables⟩, ⟨a.creation, a.tables⟩,
        ⟨a.creation, a.tables⟩] : List Outside).map (.task i)) =
      (s.passed steps ((a.statements db).map (fun sql => .executed b sql timeout) ++ [.closed b])).concluding e i id
        ((a.outcome db).map .report) := by
  obtain ⟨creation, version, tables⟩ := a
  obtain rfl : creation = none := hcreation
  cases version with
  | error f => exact ⟨2, run_failing hat rfl ..⟩
  | ok version =>
      refine ⟨3, (run_next hat rfl _).trans ?_⟩
      cases tables with
      | error f => exact (run_failing (hat.moveTo_passed ..) rfl ..).trans (concluding_passed ..)
      | ok tables =>
          subst hdb
          exact (run_last (hat.moveTo_passed ..) rfl ..).trans (concluding_passed ..)

/-- The pool on which a connection is tested: one of its own, for one connection at a time. -/
def testBackend (e : Engine) (c : Connection) : Backend :=
  ⟨c, { (e.settingsOf (.connection c.id)).pool with size := 1 }⟩

/-- A pool was asked for, and made if it could be. -/
def opened (e : Engine) (s : EngineState) (c : Connection) (a : ProbeAnswers) : EngineState :=
  { s with backends := s.backends ++ a.made (testBackend e c), attempts := s.attempts + 1 }

theorem database_opened {a : ProbeAnswers} (hcreation : a.creation = none) (steps : Nat) (events : List Event) :
    ((s.opened e c a).passed steps events).database s.backends.length = c.database := by
  simp [database, opened, passed, ProbeAnswers.made, hcreation, testBackend]

theorem advance_opening {a : ProbeAnswers} (hcreation : a.creation = none) :
    (s.after 1).advance e i ⟨none, a.version⟩ (.opening c (some id)) =
      ((s.opened e c a).passed 1 [.created s.backends.length]).moveTo i
        (.running s.backends.length (.probe (some id) e.settings.defaults.query.timeout)
          c.database.versionQuery [c.database.tableCountQuery] []) := by
  obtain ⟨made, hmade⟩ : ∃ made, made = (s.opened e c a).passed 1 [.created s.backends.length] := ⟨_, rfl⟩
  have hmove : (s.after 1).move e i ⟨none, a.version⟩ (.opening c (some id)) =
      (made, made.arrived s.backends.length (.probe (some id) e.settings.defaults.query.timeout)) := by
    rw [hmade]
    simp only [move, opened, passed, ProbeAnswers.made, hcreation]
    rfl
  have hdb : made.database s.backends.length = c.database := hmade ▸ database_opened hcreation ..
  rw [← hmade, advance, hmove, ← hdb]
  rfl

theorem run_opening (hat : s.At i (.opening c (some id))) (a : ProbeAnswers) :
    ∃ steps, s.run e (([⟨a.creation, a.version⟩, ⟨a.creation, a.version⟩, ⟨a.creation, a.tables⟩,
        ⟨a.creation, a.tables⟩, ⟨a.creation, a.tables⟩] : List Outside).map (.task i)) =
      ((s.opened e c a).passed steps (a.events c.database e.settings.defaults.query.timeout
        s.backends.length)).concluding e i id ((a.outcome c.database).map .report) := by
  have hopened : (s.opened e c a).At i (.opening c (some id)) := hat
  cases hcreation : a.creation with
  | some f =>
      have hadvance : (s.after 1).advance e i ⟨some f, a.version⟩ (.opening c (some id)) =
          ((s.opened e c a).passed 1 []).moveTo i (.recording id (.error f)) := by
        simp only [advance, move, opened, passed, ProbeAnswers.made, hcreation, List.append_nil]
        rfl
      refine ⟨1, ?_⟩
      rw [run_own hat rfl rfl, hadvance, run_recording (hopened.moveTo_passed ..), concluding_passed]
      simp only [ProbeAnswers.events, ProbeAnswers.outcome, hcreation]
      rfl
  | none =>
      have hdb : ((s.opened e c a).passed 1 [.created s.backends.length]).database s.backends.length = c.database :=
        database_opened hcreation ..
      obtain ⟨steps, hrun⟩ := run_statements (e := e) a hcreation
        (hopened.moveTo_passed 1 [.created s.backends.length] _) hdb
      refine ⟨1 + steps, ?_⟩
      rw [hcreation] at hrun
      rw [run_own hat rfl rfl, advance_opening hcreation, hrun, concluding_passed]
      simp only [ProbeAnswers.events, hcreation]
      rfl

/-- What a test of a saved connection comes to when nothing stands in its way: of the state, nothing changes but what is
listed here and what is recorded. -/
theorem run_turns (hat : s.At i (.start (.testSaved id))) (hc : e.saved s.catalog id = .ok (some c))
    (a : ProbeAnswers) : ∃ steps, s.run e (a.turns i) =
      ((s.opened e c a).passed steps (a.events c.database e.settings.defaults.query.timeout
        s.backends.length)).concluding e i id ((a.outcome c.database).map .report) := by
  have hc' : e.saved (s.after 1).catalog id = .ok (some c) := hc
  have hadvance (o : Outside) : (s.after 1).advance e i o (.start (.testSaved id)) =
      (s.passed 1 []).moveTo i (.opening c (some id)) := by
    simp only [advance, move, startStep, hc', passed, List.append_nil]
    rfl
  obtain ⟨steps, hrun⟩ := run_opening (e := e) (hat.moveTo_passed 1 [] (.opening c (some id))) a
  refine ⟨1 + steps, ?_⟩
  rw [ProbeAnswers.turns, run_own hat rfl rfl, hadvance, hrun]
  exact concluding_passed (s.opened e c a) i (.opening c (some id)) 1 steps [] _

theorem run_refused (hat : s.At i (.start (.testSaved id)))
    (h : (s.after 1).startStep e (.testSaved id) = (s.after 1, .done outcome)) (a : ProbeAnswers) :
    s.run e (a.turns i) = (s.after 1).moveTo i (.done outcome) := by
  have hadvance (o : Outside) : (s.after 1).advance e i o (.start (.testSaved id)) =
      (s.after 1).moveTo i (.done outcome) := by
    rw [advance, move, h]
  have hdone := at_advance_after (e := e) (o := ⟨a.creation, a.version⟩) hat
  rw [move, h] at hdone
  rw [ProbeAnswers.turns, run_own hat rfl rfl, run_of_done hdone, hadvance]

/-- What the catalog has of each connection once a test is over. -/
theorem get?_concluding (e : Engine) (s : EngineState) (i : Nat) (id : String) (hc : s.catalog.get? id = some c)
    (hrecords : e.access.records = true) (found : Except Failure TestReport) (name : String) :
    let s' := s.concluding e i id (found.map .report)
    s'.catalog.get? name = if name = id then some (c.tested s'.now found) else s.catalog.get? name := by
  intro s'
  have hcatalog : s'.catalog = s.catalog.record id ((s.after 1).testOutcome (found.map .report)) := if_pos hrecords
  rw [hcatalog, Catalog.get?_record]
  by_cases hname : name = id
  · rw [if_pos hname, if_pos hname, hname, hc]
    cases found <;> rfl
  · rw [if_neg hname, if_neg hname]

/-! ## Others may move in between -/

theorem Leads.keepsTesting {next : Stage} (h : s.Leads e stage next) (hstage : stage.TestsSaved id) :
    next.TestsSaved id := by
  cases h with
  | asks hasks => cases hasks <;> exact hstage.elim
  | continues b errand =>
      cases errand with
      | probe name timeout => cases name <;> exact hstage
      | _ => exact hstage.elim
  | probed b name timeout => cases name <;> exact hstage
  | opens connection name timeout => cases name <;> exact hstage
  | _ => first | exact trivial | exact hstage | exact hstage.elim

theorem testsSaved_run (hat : s.At i (.start (.testSaved id))) (turns : List Turn)
    (hstage : (s.run e turns).At i stage) : stage.TestsSaved id := by
  refine keeps_of_leads (P := Stage.TestsSaved id) (fun s stage next h => h.keepsTesting) ?_ turns stage hstage
  intro stage hstage
  rw [← hat.unique hstage]
  exact rfl

theorem pools_of_testsSaved (hstage : stage.TestsSaved id) : s.poolsAfter stage = s.pools := by
  unfold poolsAfter
  split
  · exact hstage.elim
  · exact hstage.elim
  · exact hstage.elim
  · exact hstage.elim
  · rfl

theorem cache_of_testsSaved (hstage : stage.TestsSaved id) : s.cacheAfter stage = s.cache := by
  unfold cacheAfter
  split
  · exact hstage.elim
  · exact hstage.elim
  · exact hstage.elim
  · rfl

theorem catalog_of_testsSaved (hstage : stage.TestsSaved id) :
    s.catalogAfter e stage = s.catalog ∨ ∃ outcome, s.catalogAfter e stage = s.catalog.record id outcome := by
  unfold catalogAfter
  split
  · exact hstage.elim
  · exact hstage.elim
  · obtain rfl := hstage
    split
    · exact .inr ⟨_, rfl⟩
    · exact .inl rfl
  · exact .inl rfl

/--
A test of a saved connection, for whatever the outside answers and in whatever state the engine is. It ends with what
its probe found, whether or not the catalog keeps it; a pool that it made is closed once and last, and of all else that
tasks share nothing changes. In the catalog the connection has the status, the error and the time of the test, and is
otherwise what it was, like every other one. For an id that the catalog does not have it is refused, and no pool is
made. Other tasks may move in between: whatever they do, no step of the test touches pools in their places,
descriptions, or other connections.
-/
theorem testSaved_spec (hat : s.At i (.start (.testSaved id))) (a : ProbeAnswers) :
    let s' := s.run e (a.turns i)
    (∀ f, e.saved s.catalog id = .error f → s' = (s.after 1).moveTo i (.done (.error f))) ∧
    (e.saved s.catalog id = .ok none → s' = (s.after 1).moveTo i
      (.done (.error (.validation ("connection '" ++ id ++ "' does not exist"))))) ∧
    (∀ c, e.saved s.catalog id = .ok (some c) →
      let outcome := a.outcome c.database
      s' = { s with
        catalog := s'.catalog
        clock := s'.clock
        backends := s.backends ++ a.made (testBackend e c)
        attempts := s.attempts + 1
        history := s.history ++ a.events c.database e.settings.defaults.query.timeout s.backends.length
        tasks := s.tasks.set i (.done (outcome.map .report)) } ∧
      (e.access.records = false → s'.catalog = s.catalog) ∧
      (e.access.records = true → ∀ name,
        s'.catalog.get? name = if name = id then some (c.tested s'.now outcome) else s.catalog.get? name)) ∧
    ∀ turns o s'', (s.run e turns).step e (.task i o) = some s'' →
      s''.pools = (s.run e turns).pools ∧ s''.cache = (s.run e turns).cache ∧
        (s''.catalog = (s.run e turns).catalog ∨
          ∃ outcome, s''.catalog = (s.run e turns).catalog.record id outcome) := by
  intro s'
  refine ⟨fun f hf => ?_, fun hnone => ?_, fun c hc => ?_, fun turns o s'' hstep => ?_⟩
  · have hf' : e.saved (s.after 1).catalog id = .error f := hf
    refine run_refused hat ?_ a
    simp only [startStep, hf']
  · have hnone' : e.saved (s.after 1).catalog id = .ok none := hnone
    refine run_refused hat ?_ a
    simp only [startStep, hnone']
    rfl
  · intro outcome
    obtain ⟨steps, hrun⟩ : ∃ steps, s' = _ := run_turns hat hc a
    have hget : s.catalog.get? id = some c := by
      unfold Engine.saved Engine.unlessFailing at hc
      split at hc
      · cases hc
      · exact Except.ok.inj hc
    rw [hrun]
    refine ⟨rfl, fun hrecords => ?_, fun hrecords => ?_⟩
    · exact if_neg (by simp [hrecords])
    · exact get?_concluding e ((s.opened e c a).passed steps _) i id hget hrecords outcome
  · obtain ⟨stage, hstage, -, -, rfl⟩ := step_task_iff.1 hstep
    have htests := testsSaved_run hat turns hstage
    rw [advance_eq]
    refine ⟨pools_move.trans (pools_of_testsSaved htests), cache_move.trans (cache_of_testsSaved htests), ?_⟩
    have hcatalog := catalog_of_testsSaved (e := e) (s := (s.run e turns).after 1) htests
    rw [← catalog_move (i := i) (o := o)] at hcatalog
    exact hcatalog

section Orders

def untested : EngineState :=
  started .usual (.ofConnections [(asked "orders").connection]) [.testSaved "orders"]

/-- The version is told, but the tables are not counted in time. -/
def uncounted : ProbeAnswers :=
  ⟨none, .ok .empty, .error (.timeout 30000)⟩

theorem testSaved_spec_uncounted :
    let c := (asked "orders").connection
    let s' := untested.run ⟨.empty, .usual, none, .open⟩ (uncounted.turns 0)
    untested.At 0 (.start (.testSaved "orders")) ∧ s'.At 0 (.done (.error (.timeout 30000))) ∧
      s'.history = [.created 0, .executed 0 c.database.versionQuery 30000,
        .executed 0 c.database.tableCountQuery 30000, .closed 0] ∧
      s'.catalog.get? "orders" = some (c.tested s'.now (.error (.timeout 30000))) := by
  intro c s'
  have hat : untested.At 0 (.start (.testSaved "orders")) := rfl
  obtain ⟨hstate, -, hcatalog⟩ := (testSaved_spec (e := ⟨.empty, .usual, none, .open⟩) hat uncounted).2.2.1 c rfl
  refine ⟨hat, ?_, ?_, hcatalog rfl "orders"⟩
  · exact congrArg (fun s : EngineState => s.tasks[0]?) hstate
  · exact congrArg EngineState.history hstate

/-- A test leaves the time at which it was made. -/
theorem testSaved_leaves_time :
    let c := (asked "orders").connection
    let s' := untested.run ⟨.empty, .usual, none, .open⟩ (ProbeAnswers.turns ⟨none, .ok .empty, .ok .empty⟩ 0)
    untested.catalog.get? "orders" = some c ∧
      s'.catalog.get? "orders" ≠ some { c with status := .connected, lastError := none } := by
  decide +kernel

end Orders

end EngineState

end SemanticLayer
