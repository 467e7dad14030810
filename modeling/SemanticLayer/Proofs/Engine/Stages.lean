import SemanticLayer.Proofs.Checks
import SemanticLayer.Proofs.Engine.Steps
/-!
The stages through which tasks go. A relation says to which stages a step can lead, and what is known then, so that
it can be read backwards: what a task carries with it was settled at an earlier stage.
-/
namespace SemanticLayer

def Errand.isProbe : Errand → Bool
  | probe _ _ => true
  | _ => false

/-- The target that an operation asks a pool for, and what for. -/
inductive Asks (e : Engine) (catalog : Catalog) : Operation → Target → Errand → Prop
  | acquire (target : Target) : Asks e catalog (.acquire target) target .hold
  | query {request : Request} {prepared : PreparedQuery} (timeout : Nat)
      (h : e.prepare catalog request = .ok prepared) :
      Asks e catalog (.query request) prepared.target (.query prepared.compiled timeout)
  | values {source field : String} {id : Option String} {target : Target} {sql : String} (timeout : Nat)
      (h : e.prepareValues catalog source field id = .ok (target, sql)) :
      Asks e catalog (.values source field id) target (.values sql timeout)
  | raw {request : RawRequest} {target : Target} (settings : SandboxSettings)
      (h : e.prepareRaw catalog request = .ok target) :
      Asks e catalog (.raw request) target (.raw request.sql settings)
  | describe {id : Option String} {target : Target} (h : e.resolve catalog id = .ok target) :
      Asks e catalog (.describe id true) target (EngineState.describeErrand e target)

theorem Asks.isProbe {e : Engine} {catalog : Catalog} {operation : Operation} {target : Target} {errand : Errand}
    (h : Asks e catalog operation target errand) : errand.isProbe = false := by
  cases h <;> rfl

namespace EngineState

/-- How a step of getting a pool goes on. -/
inductive Proceeds (s : EngineState) (target : Target) : Acquisition → Acquisition → Prop
  | reads (inTurn : Bool) : s.Proceeds target (.waiting inTurn) (.looking inTurn)
  | misses (h : s.current? target = none) : s.Proceeds target (.looking false) .enrolling
  | enrols : s.Proceeds target .enrolling .enrolled
  | queues : s.Proceeds target .enrolled .queueing
  | starts : s.Proceeds target .queueing (.waiting true)
  | asks (h : s.current? target = none) : s.Proceeds target (.looking true) .creating
  | finds {backend : Nat} (h : s.current? target = some backend) :
      s.Proceeds target (.looking true) (.releasing (.ok backend))
  | makes : s.Proceeds target .creating (.placing s.backends.length)
  | fails (f : Failure) : s.Proceeds target .creating (.releasing (.error f))
  | writes (backend : Nat) : s.Proceeds target (.placing backend) (.inserting backend)
  | places (backend : Nat) : s.Proceeds target (.inserting backend) (.releasing (.ok backend))

/-- The pool with which a task goes about its errand. -/
inductive Gets (s : EngineState) (target : Target) : Acquisition → Nat → Prop
  | found {backend : Nat} (h : s.current? target = some backend) : s.Gets target (.looking false) backend
  | made (backend : Nat) : s.Gets target (.releasing (.ok backend)) backend

inductive Leads (e : Engine) (s : EngineState) : Stage → Stage → Prop
  | refused (operation : Operation) (f : Failure) : s.Leads e (.start operation) (.done (.error f))
  | asks {operation : Operation} {target : Target} {errand : Errand} (h : Asks e s.catalog operation target errand) :
      s.Leads e (.start operation) (.acquiring (.waiting false) target errand)
  | consults {id : Option String} {target : Target} (h : e.resolve s.catalog id = .ok target) :
      s.Leads e (.start (.describe id false)) (.consulting target)
  | tests (connection : Connection) : s.Leads e (.start (.test connection)) (.opening connection none)
  | testsSaved (id : String) (connection : Connection) :
      s.Leads e (.start (.testSaved id)) (.opening connection (some id))
  | evicts (key : PoolKey) (found : Bool) : s.Leads e (.start (.evict key)) (.done (.ok (.evicted found)))
  | changes (id : String) : s.Leads e (.start (.changed id)) (.invalidating (.connection id))
  | shutsDown : s.Leads e (.start .shutdown) (.shutting s.placed)
  | saves (connection : Connection) : s.Leads e (.start (.save connection)) (.done (.ok .nothing))
  | removes (id : String) : s.Leads e (.start (.remove id)) (.done (.ok .nothing))
  | hits {target : Target} {schema : DatabaseSchema} (h : s.cache.get? s.clock target.key = some schema) :
      s.Leads e (.consulting target) (.done (.ok (.schema schema)))
  | misses {target : Target} (h : s.cache.get? s.clock target.key = none) :
      s.Leads e (.consulting target) (.acquiring (.waiting false) target (describeErrand e target))
  | proceeds {target : Target} {progress next : Acquisition} (errand : Errand) (h : s.Proceeds target progress next) :
      s.Leads e (.acquiring progress target errand) (.acquiring next target errand)
  | arrives {target : Target} {progress : Acquisition} {backend : Nat} (errand : Errand) (statement : String)
      (rest : List String) (h : s.Gets target progress backend) :
      s.Leads e (.acquiring progress target errand) (.running backend errand statement rest [])
  | holds {target : Target} {progress : Acquisition} {backend : Nat} {errand : Errand} {db : Database}
      (h : s.Gets target progress backend) (hnone : errand.statements db = .ok []) {reply : Reply}
      (hreply : reply = errand.reply db backend []) :
      s.Leads e (.acquiring progress target errand) (.done (.ok reply))
  | fails (progress : Acquisition) (target : Target) (errand : Errand) (f : Failure) :
      s.Leads e (.acquiring progress target errand) (.done (.error f))
  | continues (backend : Nat) (errand : Errand) (statement next : String) (rest : List String)
      (results more : List ResultSet) :
      s.Leads e (.running backend errand statement (next :: rest) results) (.running backend errand next rest more)
  | probed (backend : Nat) (id : Option String) (timeout : Nat) (statement : String) (rest : List String)
      (results : List ResultSet) (outcome : Except Failure Reply) :
      s.Leads e (.running backend (.probe id timeout) statement rest results) (.closing backend id outcome)
  | described (backend : Nat) (key : PoolKey) (name : String) (timeout : Nat) (statement : String)
      (results : List ResultSet) (schema : DatabaseSchema) :
      s.Leads e (.running backend (.describe key name timeout) statement [] results) (.storing key schema)
  | answered {backend : Nat} {errand : Errand} {statement : String} {rest : List String} {results : List ResultSet}
      {outcome : Except Failure Reply} (hprobe : errand.isProbe = false)
      (hschema : ∀ schema, outcome ≠ .ok (.schema schema)) :
      s.Leads e (.running backend errand statement rest results) (.done outcome)
  | opens (connection : Connection) (id : Option String) (timeout : Nat) (statement : String) (rest : List String) :
      s.Leads e (.opening connection id) (.running s.backends.length (.probe id timeout) statement rest [])
  | unopened (connection : Connection) (f : Failure) : s.Leads e (.opening connection none) (.done (.error f))
  | unopenedSaved (connection : Connection) (id : String) (f : Failure) :
      s.Leads e (.opening connection (some id)) (.recording id (.error f))
  | closes (backend : Nat) (outcome : Except Failure Reply) :
      s.Leads e (.closing backend none outcome) (.done outcome)
  | closesSaved (backend : Nat) (id : String) (outcome : Except Failure Reply) :
      s.Leads e (.closing backend (some id) outcome) (.recording id outcome)
  | records (id : String) (outcome : Except Failure Reply) : s.Leads e (.recording id outcome) (.done outcome)
  | stores (key : PoolKey) (schema : DatabaseSchema) :
      s.Leads e (.storing key schema) (.done (.ok (.schema schema)))
  | invalidates (key : PoolKey) : s.Leads e (.invalidating key) (.done (.ok .nothing))
  | shuts (backend : Nat) (rest : List Nat) : s.Leads e (.shutting (backend :: rest)) (.shutting rest)
  | hasShut : s.Leads e (.shutting []) .clearing
  | clears : s.Leads e .clearing (.done (.ok .nothing))
  | rests (outcome : Except Failure Reply) : s.Leads e (.done outcome) (.done outcome)

variable {e : Engine} {s : EngineState} {i b : Nat} {o : Outside} {stage : Stage} {operation : Operation}
  {progress : Acquisition} {target : Target} {errand : Errand}

theorem begun_leads {start : Except Failure (Target × Errand)}
    (h : ∀ target errand, start = .ok (target, errand) → Asks e s.catalog operation target errand) :
    s.Leads e (.start operation) (begun start) := by
  cases start with
  | error f => exact .refused operation f
  | ok order => exact .asks (h order.1 order.2 rfl)

theorem startStep_leads (e : Engine) (s : EngineState) (operation : Operation) :
    s.Leads e (.start operation) (s.startStep e operation).2 := by
  cases operation with
  | acquire target => exact .asks (.acquire target)
  | query request =>
      apply begun_leads
      intro target errand h
      obtain ⟨prepared, hprepared, heq⟩ := map_eq_ok_iff.1 h
      obtain ⟨rfl, rfl⟩ := Prod.mk.inj heq
      exact .query _ hprepared
  | values source field id =>
      apply begun_leads
      intro target errand h
      obtain ⟨prepared, hprepared, heq⟩ := map_eq_ok_iff.1 h
      obtain ⟨rfl, rfl⟩ := Prod.mk.inj heq
      exact .values _ hprepared
  | raw request =>
      apply begun_leads
      intro target errand h
      obtain ⟨prepared, hprepared, heq⟩ := map_eq_ok_iff.1 h
      obtain ⟨rfl, rfl⟩ := Prod.mk.inj heq
      exact .raw _ hprepared
  | describe id afresh =>
      simp only [startStep]
      split
      · exact .refused _ _
      · rename_i target htarget
        cases afresh with
        | true => exact .asks (.describe htarget)
        | false => exact .consults htarget
  | testSaved id =>
      simp only [startStep]
      split
      · exact .refused _ _
      · exact .refused _ _
      · exact .testsSaved _ _
  | evict key => exact .evicts key _
  | test connection => exact .tests connection
  | changed id => exact .changes id
  | shutdown => exact .shutsDown
  | save connection => exact .saves connection
  | remove id => exact .removes id

theorem arrived_leads (h : s.Gets target progress b) :
    s.Leads e (.acquiring progress target errand) (s.arrived b errand) := by
  rcases s.arrived_cases b errand with ⟨f, heq⟩ | ⟨db, hnone, heq⟩ | ⟨statement, rest, heq⟩
  · rw [heq]
    exact .fails _ _ _ f
  · rw [heq]
    exact .holds h hnone rfl
  · rw [heq]
    exact .arrives errand statement rest h

theorem acquireStep_leads (progress : Acquisition) :
    s.Leads e (.acquiring progress target errand) (s.acquireStep e i o.creation target errand progress).2 := by
  cases progress with
  | waiting inTurn => exact .proceeds errand (.reads inTurn)
  | looking inTurn =>
      simp only [acquireStep]
      split
      · rename_i hcurrent
        exact arrived_leads (.found hcurrent)
      · rename_i hcurrent
        exact .proceeds errand (.misses hcurrent)
      · rename_i hcurrent
        exact .proceeds errand (.finds hcurrent)
      · rename_i hcurrent
        exact .proceeds errand (.asks hcurrent)
  | enrolling => exact .proceeds errand .enrols
  | enrolled => exact .proceeds errand .queues
  | queueing => exact .proceeds errand .starts
  | creating =>
      simp only [acquireStep]
      split
      · exact .proceeds errand (.fails _)
      · exact .proceeds errand .makes
  | placing backend => exact .proceeds errand (.writes backend)
  | inserting backend => exact .proceeds errand (.places backend)
  | releasing result =>
      cases result with
      | ok backend => exact arrived_leads (.made backend)
      | error f => exact .fails _ _ _ f

theorem finished_leads {statement : String} {rest : List String} {results : List ResultSet} (f : Failure) :
    s.Leads e (.running b errand statement rest results) (finished b errand (.error f)) := by
  cases errand with
  | probe id timeout => exact .probed b id timeout statement rest results _
  | _ => exact .answered rfl (by simp)

theorem reply_leads {statement : String} {results more : List ResultSet} (db : Database) :
    s.Leads e (.running b errand statement [] results) (finished b errand (.ok (errand.reply db b more))) := by
  cases errand with
  | probe id timeout => exact .probed b id timeout statement [] results _
  | describe key name timeout => exact .described b key name timeout statement results _
  | _ => exact .answered rfl (by simp [Errand.reply])

theorem move_leads (e : Engine) (s : EngineState) (i : Nat) (o : Outside) (stage : Stage) :
    s.Leads e stage (s.move e i o stage).2 := by
  cases stage with
  | start operation => exact startStep_leads e s operation
  | consulting target =>
      simp only [move]
      split
      · rename_i hget
        exact .hits hget
      · rename_i hget
        exact .misses hget
  | acquiring progress target errand => exact acquireStep_leads progress
  | running backend errand statement rest results =>
      simp only [move, runStep]
      split
      · exact finished_leads _
      · exact reply_leads _
      · exact .continues _ _ _ _ _ _ _
  | storing key schema => exact .stores key schema
  | opening connection id =>
      simp only [move]
      split
      · cases id with
        | none => exact .unopened connection _
        | some id => exact .unopenedSaved connection id _
      · exact .opens connection id _ _ _
  | closing backend id outcome =>
      cases id with
      | none => exact .closes backend outcome
      | some id => exact .closesSaved backend id outcome
  | recording id outcome => exact .records id outcome
  | invalidating key => exact .invalidates key
  | shutting backends =>
      cases backends with
      | nil => exact .hasShut
      | cons backend rest => exact .shuts backend rest
  | clearing => exact .clears
  | done outcome => exact .rests outcome

/-- No step leads back to the start. -/
theorem Leads.ne_start {next : Stage} (h : s.Leads e stage next) : next ≠ .start operation := by
  cases h <;> simp

/-- What steps lead on from stage to stage, a task keeps. -/
theorem keeps_of_leads {P : Stage → Prop}
    (hleads : ∀ (s : EngineState) stage next, s.Leads e stage next → P stage → P next)
    (hs : ∀ stage, s.At i stage → P stage) (turns : List Turn) : ∀ stage, (s.run e turns).At i stage → P stage := by
  refine run_induction (P := fun s => ∀ stage, s.At i stage → P stage) hs ?_ turns
  intro s turn s' hs hstep stage' hat'
  by_cases hturn : ∃ j o, turn = .task j o
  · obtain ⟨j, o, rfl⟩ := hturn
    obtain ⟨stage, hat, -, -, rfl⟩ := step_task_iff.1 hstep
    have hlater : (s.after 1).At j stage := hat
    by_cases hj : i = j
    · subst hj
      rw [← (at_advance hlater).unique hat']
      exact hleads _ _ _ (move_leads e _ i o stage) (hs stage hat)
    · exact hs stage' ((at_advance_of_ne (s := s.after 1) hj).1 hat')
  · have htasks := (step_leaves (fun j o heq => hturn ⟨j, o, heq⟩) hstep).1.tasks
    rw [At, htasks] at hat'
    exact hs stage' hat'

/-! ## What is done in a run -/

section Trace

variable {α : Type} {notice : EngineState → Nat → Outside → Stage → Option α} {a : α} {turn : Turn} {turns : List Turn}

def notice? (s : EngineState) (notice : EngineState → Nat → Outside → Stage → Option α) : Turn → Option α
  | .task i o => s.tasks[i]?.bind (notice s i o)
  | _ => none

/-- What is to be noticed about the steps of a run, in order. -/
def trace (e : Engine) (notice : EngineState → Nat → Outside → Stage → Option α) : EngineState → List Turn → List α
  | _, [] => []
  | s, turn :: turns =>
    match s.step e turn with
    | none => trace e notice s turns
    | some s' => (s.notice? notice turn).toList ++ trace e notice s' turns

theorem notice?_eq_some_iff : s.notice? notice turn = some a ↔
    ∃ i o stage, turn = .task i o ∧ s.At i stage ∧ notice s i o stage = some a := by
  cases turn with
  | task i o =>
      simp only [notice?, Option.bind_eq_some_iff]
      constructor
      · rintro ⟨stage, hat, ha⟩
        exact ⟨i, o, stage, rfl, hat, ha⟩
      · rintro ⟨i', o', stage, heq, hat, ha⟩
        obtain ⟨rfl, rfl⟩ := Turn.task.inj heq
        exact ⟨stage, hat, ha⟩
  | _ => simp [notice?]

theorem trace_cons_of_step {s' : EngineState} (h : s.step e turn = some s') :
    trace e notice s (turn :: turns) = (s.notice? notice turn).toList ++ trace e notice s' turns := by
  rw [trace, h]

theorem mem_trace_cons {s' : EngineState} (h : s.step e turn = some s') : a ∈ trace e notice s (turn :: turns) ↔
    s.notice? notice turn = some a ∨ a ∈ trace e notice s' turns := by
  rw [trace_cons_of_step h, List.mem_append, Option.mem_toList]

theorem trace_append (s : EngineState) (turns more : List Turn) :
    trace e notice s (turns ++ more) = trace e notice s turns ++ trace e notice (s.run e turns) more := by
  induction turns generalizing s with
  | nil => rfl
  | cons turn turns ih =>
      cases h : s.step e turn with
      | none =>
          rw [List.cons_append, trace, trace, run, List.foldl_cons, h]
          exact ih s
      | some s' =>
          rw [List.cons_append, trace_cons_of_step h, trace_cons_of_step h, run_of_step h, ih, List.append_assoc]

theorem exists_of_mem_trace (h : a ∈ trace e notice s turns) : ∃ before i o after stage,
    turns = before ++ .task i o :: after ∧ (s.run e before).At i stage ∧
      notice (s.run e before) i o stage = some a := by
  induction turns generalizing s with
  | nil => simp [trace] at h
  | cons turn turns ih =>
      have hlater {s' : EngineState} (hnext : (s.step e turn).getD s = s') (h : a ∈ trace e notice s' turns) :
          ∃ before i o after stage, turn :: turns = before ++ .task i o :: after ∧ (s.run e before).At i stage ∧
            notice (s.run e before) i o stage = some a := by
        obtain ⟨before, i, o, after, stage, rfl, hat, ha⟩ := ih h
        subst hnext
        exact ⟨turn :: before, i, o, after, stage, rfl, hat, ha⟩
      cases hstep : s.step e turn with
      | none =>
          rw [trace, hstep] at h
          exact hlater (by rw [hstep]; rfl) h
      | some s' =>
          rcases (mem_trace_cons hstep).1 h with hfirst | h
          · obtain ⟨i, o, stage, rfl, hat, ha⟩ := notice?_eq_some_iff.1 hfirst
            exact ⟨[], i, o, turns, stage, rfl, hat, ha⟩
          · exact hlater (by rw [hstep]; rfl) h

/-- What holds of a state and of what was noticed before, and is kept by every step, holds after a run. -/
theorem run_trace_induction {P : EngineState → List α → Prop} (done : List α) (hs : P s done)
    (hstep : ∀ s done turn s', P s done → s.step e turn = some s' → P s' (done ++ (s.notice? notice turn).toList))
    (turns : List Turn) : P (s.run e turns) (done ++ trace e notice s turns) := by
  induction turns generalizing s done with
  | nil =>
      rw [trace, List.append_nil]
      exact hs
  | cons turn turns ih =>
      cases h : s.step e turn with
      | none =>
          rw [trace, run, List.foldl_cons, h]
          exact ih done hs
      | some s' =>
          rw [trace_cons_of_step h, run_of_step h, ← List.append_assoc]
          exact ih _ (hstep s done turn s' hs h)

end Trace

end EngineState

end SemanticLayer
