import SemanticLayer.Proofs.Engine.Endpoints
/-!
Which texts come to a database. Whatever tasks do side by side, each text that runs on a pool is one of the engine's
own, or was compiled from a source, or came through the gate, for the database of that very pool. A request that is
refused before leaves everything as it was.
-/
namespace SemanticLayer

/-- Texts that may be run on a database. -/
inductive Vetted (e : Engine) (db : Database) : String → Prop
  | probe {sql : String} (h : sql ∈ [db.versionQuery, db.tableCountQuery]) : Vetted e db sql
  | catalog {sql : String} (h : sql ∈ Errand.catalogStatements db) : Vetted e db sql
  | compiled {source : Source} {request : Request} {compiled : CompiledQuery} (key : PoolKey)
      (hsource : e.registry.get? request.source = some source)
      (h : source.compile (e.settingsOf key).query.limits db request = .ok compiled) : Vetted e db compiled.sql
  | values {name field : String} {source : Source} {select : Select} (key : PoolKey)
      (hsource : e.registry.get? name = some source)
      (h : source.distinctValues (e.settingsOf key).query.limits field = .ok select) : Vetted e db (select.render db)
  | gated {sql own limited : String} (key : PoolKey) (hgate : Sandbox.validate db sql = .ok own)
      (hlimit : db.limitRows own (e.settingsOf key).sandbox.rowLimit = .ok limited) : Vetted e db limited

/-- Errands on which nothing but such texts is run. -/
inductive Permitted (e : Engine) (key : PoolKey) (db : Database) : Errand → Prop
  | hold : Permitted e key db .hold
  | query {source : Source} {request : Request} {compiled : CompiledQuery} (timeout : Nat)
      (hsource : e.registry.get? request.source = some source)
      (h : source.compile (e.settingsOf key).query.limits db request = .ok compiled) :
      Permitted e key db (.query compiled timeout)
  | values {name field : String} {source : Source} {select : Select} (timeout : Nat)
      (hsource : e.registry.get? name = some source)
      (h : source.distinctValues (e.settingsOf key).query.limits field = .ok select) :
      Permitted e key db (.values (select.render db) timeout)
  | raw {sql own : String} (hgate : Sandbox.validate db sql = .ok own) :
      Permitted e key db (.raw sql (e.settingsOf key).sandbox)
  | describe (place : PoolKey) (name : String) (timeout : Nat) : Permitted e key db (.describe place name timeout)
  | probe (id : Option String) (timeout : Nat) : Permitted e key db (.probe id timeout)

variable {e : Engine} {key : PoolKey} {db : Database} {errand : Errand} {catalog : Catalog} {target : Target}

theorem Permitted.vetted (h : Permitted e key db errand) {statements : List String}
    (hstatements : errand.statements db = .ok statements) : ∀ sql ∈ statements, Vetted e db sql := by
  intro sql hsql
  cases h with
  | hold =>
      obtain rfl := Except.ok.inj hstatements
      simp at hsql
  | query timeout hsource h =>
      obtain rfl := Except.ok.inj hstatements
      obtain rfl := List.mem_singleton.1 hsql
      exact .compiled key hsource h
  | values timeout hsource h =>
      obtain rfl := Except.ok.inj hstatements
      obtain rfl := List.mem_singleton.1 hsql
      exact .values key hsource h
  | raw hgate =>
      obtain ⟨prepared, hprepared, rfl⟩ := map_eq_ok_iff.1 hstatements
      obtain rfl := List.mem_singleton.1 hsql
      unfold Raw.prepare at hprepared
      simp only [bind_eq_ok_iff, pure_eq_ok_iff, mapError_eq_ok_iff] at hprepared
      obtain ⟨own, hown, limited, hlimited, rfl⟩ := hprepared
      exact .gated key hown hlimited
  | describe place name timeout =>
      obtain rfl := Except.ok.inj hstatements
      exact .catalog hsql
  | probe id timeout =>
      obtain rfl := Except.ok.inj hstatements
      exact .probe hsql

namespace Engine

theorem source_eq_ok_iff {name : String} {source : Source} :
    e.source name = .ok source ↔ e.registry.get? name = some source := by
  unfold Engine.source
  cases e.registry.get? name <;> simp

theorem permitted_of_prepare {request : Request} {prepared : PreparedQuery} (timeout : Nat)
    (h : e.prepare catalog request = .ok prepared) :
    Permitted e prepared.target.key prepared.target.connection.database (.query prepared.compiled timeout) := by
  unfold prepare at h
  simp only [bind_eq_ok_iff, pure_eq_ok_iff] at h
  obtain ⟨source, hsource, target, -, compiled, hcompiled, rfl⟩ := h
  exact .query timeout (source_eq_ok_iff.1 hsource) hcompiled

theorem permitted_of_prepareValues {source field : String} {id : Option String} {sql : String} (timeout : Nat)
    (h : e.prepareValues catalog source field id = .ok (target, sql)) :
    Permitted e target.key target.connection.database (.values sql timeout) := by
  unfold prepareValues at h
  simp only [bind_eq_ok_iff, pure_eq_ok_iff] at h
  obtain ⟨source, hsource, target, -, select, hselect, heq⟩ := h
  obtain ⟨rfl, rfl⟩ := Prod.mk.inj heq
  exact .values timeout (source_eq_ok_iff.1 hsource) hselect

theorem permitted_of_prepareRaw {request : RawRequest} (h : e.prepareRaw catalog request = .ok target) :
    Permitted e target.key target.connection.database (.raw request.sql (e.settingsOf target.key).sandbox) := by
  unfold prepareRaw at h
  simp only [bind_eq_ok_iff, pure_eq_ok_iff, mapError_eq_ok_iff] at h
  obtain ⟨target, -, own, hgate, rfl⟩ := h
  exact .raw hgate

end Engine

namespace EngineState

variable {s s' : EngineState} {i b : Nat} {o : Outside} {stage : Stage} {turn : Turn} {c : Connection} {sql : String}

/-! ## Texts on their way to a pool -/

/-- A text may be run on a pool that was made. -/
def Vets (e : Engine) (s : EngineState) (b : Nat) (sql : String) : Prop :=
  ∃ made, s.backends[b]? = some made ∧ Vetted e made.connection.database sql

theorem Vets.mono (h : s.Vets e b sql) (hearlier : s.backends <+: s'.backends) : s'.Vets e b sql := by
  obtain ⟨made, hmade, hvetted⟩ := h
  exact ⟨made, made_of_prefix hearlier hmade, hvetted⟩

theorem MadeFor.database (h : s.MadeFor b c) : s.database b = c.database := by
  obtain ⟨made, hmade, hendpoint⟩ := h
  rw [EngineState.database, hmade]
  exact (Connection.endpoint_eq_iff.1 hendpoint).1

theorem vets_of_madeFor (h : s.MadeFor b c) (hvetted : Vetted e c.database sql) : s.Vets e b sql := by
  obtain ⟨made, hmade, hendpoint⟩ := h
  exact ⟨made, hmade, (Connection.endpoint_eq_iff.1 hendpoint).1 ▸ hvetted⟩

/-- What a task is about to run may be run. -/
def Vouched (e : Engine) (s : EngineState) : Stage → Prop
  | .acquiring _ target errand => Permitted e target.key target.connection.database errand
  | .running backend _ statement rest _ => ∀ sql ∈ statement :: rest, s.Vets e backend sql
  | _ => True

theorem Vouched.mono (h : s.Vouched e stage) (hearlier : s.backends <+: s'.backends) : s'.Vouched e stage := by
  cases stage with
  | running backend errand statement rest results => exact fun sql hsql => (h sql hsql).mono hearlier
  | _ => exact h

theorem begun_vouched {α : Type} {x : Except Failure α} {order : α → Target × Errand}
    (h : ∀ a, x = .ok a → Permitted e (order a).1.key (order a).1.connection.database (order a).2) :
    s.Vouched e (begun (x.map order)) := by
  cases x with
  | error f => trivial
  | ok a => exact h a rfl

theorem startStep_vouched (operation : Operation) : s'.Vouched e (s.startStep e operation).2 := by
  cases operation with
  | acquire target => exact .hold
  | query request =>
      apply begun_vouched
      intro prepared hprepared
      exact Engine.permitted_of_prepare _ hprepared
  | values source field id =>
      apply begun_vouched
      rintro ⟨target, sql⟩ hprepared
      exact Engine.permitted_of_prepareValues _ hprepared
  | raw request =>
      apply begun_vouched
      intro target hprepared
      exact Engine.permitted_of_prepareRaw hprepared
  | describe id afresh =>
      simp only [startStep]
      split
      · trivial
      · split
        · exact .describe _ _ _
        · trivial
  | testSaved id =>
      simp only [startStep]
      split <;> trivial
  | _ => trivial

theorem arrived_vouched (c : Connection) (key : PoolKey) (hmade : s.MadeFor b c) (h : Permitted e key c.database errand)
    (hearlier : s.backends <+: s'.backends) : s'.Vouched e (s.arrived b errand) := by
  unfold arrived
  rw [hmade.database]
  split
  · trivial
  · trivial
  · rename_i statement rest hstatements
    intro sql hsql
    exact (vets_of_madeFor hmade (h.vetted hstatements sql hsql)).mono hearlier

theorem acquireStep_vouched (hfitting : s.Fitting) {progress : Acquisition}
    (hat : s.At i (.acquiring progress target errand))
    (h : Permitted e target.key target.connection.database errand) :
    (s.acquireStep e i o.creation target errand progress).1.Vouched e
      (s.acquireStep e i o.creation target errand progress).2 := by
  cases progress with
  | looking inTurn =>
      simp only [acquireStep]
      split
      · rename_i backend hcurrent
        exact arrived_vouched _ _ (hfitting.current hcurrent) h List.prefix_rfl
      · exact h
      · exact h
      · exact h
  | creating =>
      simp only [acquireStep]
      split <;> exact h
  | releasing result =>
      cases result with
      | ok backend => exact arrived_vouched _ _ (hfitting.onTheWay _ _ _ _ hat backend rfl) h List.prefix_rfl
      | error f => trivial
  | _ => exact h

theorem finished_vouched (b : Nat) (errand : Errand) (outcome : Except Failure Reply) :
    s.Vouched e (finished b errand outcome) := by
  unfold finished
  split <;> trivial

theorem concluded_vouched (id : Option String) (outcome : Except Failure Reply) :
    s.Vouched e (concluded id outcome) := by
  cases id <;> trivial

/-- What a task vouches for, it vouches for at its next stage. -/
theorem Vouched.move (h : s.Vouched e stage) (hfitting : s.Fitting) (hat : s.At i stage) :
    (s.move e i o stage).1.Vouched e (s.move e i o stage).2 := by
  cases stage with
  | start operation => exact startStep_vouched operation
  | consulting target =>
      simp only [EngineState.move]
      split
      · trivial
      · exact .describe _ _ _
  | acquiring progress target errand => exact acquireStep_vouched hfitting hat h
  | running backend errand statement rest results =>
      simp only [EngineState.move, runStep]
      split
      · exact finished_vouched _ _ _
      · exact finished_vouched _ _ _
      · exact fun sql hsql => h sql (List.mem_cons_of_mem _ hsql)
  | opening connection id =>
      simp only [EngineState.move]
      split
      · exact concluded_vouched _ _
      · refine arrived_vouched connection (.connection connection.id) ?_ (.probe _ _) List.prefix_rfl
        exact ⟨_, List.getElem?_concat_length, rfl⟩
  | closing backend id outcome => exact concluded_vouched _ _
  | shutting backends => cases backends <;> trivial
  | _ => trivial

/-! ## Texts that have run -/

/-- The later state has a history that goes on, and what was run since then is what a task at this stage is to run. -/
def Runs (s : EngineState) (stage : Stage) (s' : EngineState) : Prop :=
  ∃ more, s'.history = s.history ++ more ∧ ∀ b sql timeout, .executed b sql timeout ∈ more →
    ∃ errand rest results, stage = .running b errand sql rest results

theorem runs_of_eq (h : s'.history = s.history) : s.Runs stage s' :=
  ⟨[], by rw [h, List.append_nil], by simp⟩

theorem runs_of_happened {event : Event} (h : s'.history = s.history ++ [event])
    (hevent : ∀ b sql timeout, event ≠ .executed b sql timeout) : s.Runs stage s' :=
  ⟨[event], h, fun b sql timeout hmem => absurd (List.mem_singleton.1 hmem).symm (hevent b sql timeout)⟩

/-- A task runs the statement at which it stands, and no other. -/
theorem move_runs (e : Engine) (s : EngineState) (i : Nat) (o : Outside) (stage : Stage) :
    s.Runs stage (s.move e i o stage).1 := by
  cases stage with
  | start operation =>
      refine runs_of_eq ?_
      cases operation with
      | describe id afresh =>
          simp only [move, startStep]
          split
          · rfl
          · split <;> rfl
      | testSaved id =>
          simp only [move, startStep]
          split <;> rfl
      | _ => rfl
  | consulting target =>
      refine runs_of_eq ?_
      simp only [move]
      split <;> rfl
  | acquiring progress target errand =>
      cases progress with
      | looking inTurn =>
          refine runs_of_eq ?_
          simp only [move, acquireStep]
          split <;> rfl
      | creating =>
          simp only [move, acquireStep]
          split
          · exact runs_of_eq rfl
          · exact runs_of_happened rfl (by simp)
      | releasing result => cases result <;> exact runs_of_eq rfl
      | _ => exact runs_of_eq rfl
  | running backend errand statement rest results =>
      refine ⟨[.executed backend statement errand.timeout], rfl, ?_⟩
      intro b sql timeout hmem
      obtain ⟨rfl, rfl, -⟩ := Event.executed.inj (List.mem_singleton.1 hmem)
      exact ⟨errand, rest, results, rfl⟩
  | opening connection id =>
      simp only [move]
      split
      · exact runs_of_eq rfl
      · exact runs_of_happened rfl (by simp)
  | closing backend id outcome => exact runs_of_happened rfl (by simp)
  | shutting backends =>
      cases backends with
      | nil => exact runs_of_eq rfl
      | cons backend rest => exact runs_of_happened rfl (by simp)
  | _ => exact runs_of_eq rfl

/-- All that was run behind a history may be run. -/
def HasRun (e : Engine) (before : List Event) (s : EngineState) : Prop :=
  ∃ more, s.history = before ++ more ∧ ∀ b sql timeout, .executed b sql timeout ∈ more → s.Vets e b sql

variable {before : List Event}

theorem HasRun.runs (h : s.HasRun e before) (hbackends : s.backends <+: s'.backends) (hruns : s.Runs stage s')
    (hstage : s.Vouched e stage) : s'.HasRun e before := by
  obtain ⟨earlier, hearlier, hvets⟩ := h
  obtain ⟨later, hlater, hrunning⟩ := hruns
  refine ⟨earlier ++ later, by rw [hlater, hearlier, List.append_assoc], ?_⟩
  intro b sql timeout hmem
  rcases List.mem_append.1 hmem with hmem | hmem
  · exact (hvets b sql timeout hmem).mono hbackends
  · obtain ⟨errand, rest, results, rfl⟩ := hrunning b sql timeout hmem
    exact (hstage sql List.mem_cons_self).mono hbackends

/-- What holds in a run behind a history. -/
structure Guarded (e : Engine) (before : List Event) (s : EngineState) : Prop where
  fitting : s.Fitting
  vouched : ∀ i stage, s.At i stage → s.Vouched e stage
  hasRun : s.HasRun e before

theorem Guarded.of_leaves (h : s.Guarded e before) (hleaves : s.Leaves s')
    (hruns : s.Runs (.done (.ok .nothing)) s') : s'.Guarded e before := by
  refine ⟨h.fitting.of_leaves hleaves, ?_, h.hasRun.runs hleaves.backends hruns trivial⟩
  intro j stage hat
  rw [At, hleaves.tasks] at hat
  exact (h.vouched j stage hat).mono hleaves.backends

theorem Guarded.advance (h : s.Guarded e before) (hat : s.At i stage) : (s.advance e i o stage).Guarded e before := by
  have hbackends : s.backends <+: (s.advance e i o stage).backends := by
    rw [advance_eq]
    exact backends_move
  have hruns : s.Runs stage (s.advance e i o stage) := by
    rw [advance_eq]
    exact move_runs e s i o stage
  refine ⟨h.fitting.advance hat, ?_, h.hasRun.runs hbackends hruns (h.vouched i stage hat)⟩
  intro j stage' hat'
  by_cases hj : j = i
  · subst hj
    rw [← (at_advance (e := e) (o := o) hat).unique hat', advance_eq]
    exact ((h.vouched j stage hat).move h.fitting hat).mono List.prefix_rfl
  · exact (h.vouched j stage' ((at_advance_of_ne hj).1 hat')).mono hbackends

theorem Guarded.step (h : s.Guarded e before) (hstep : s.step e turn = some s') : s'.Guarded e before := by
  cases turn with
  | task i o =>
      obtain ⟨stage, hat, -, -, rfl⟩ := step_task_iff.1 hstep
      have hlater : (s.after 1).Guarded e before := h.of_leaves (leaves_of_eq rfl) (runs_of_eq rfl)
      exact hlater.advance hat
  | close backend =>
      refine h.of_leaves (step_leaves (by simp) hstep).1 ?_
      rw [EngineState.step] at hstep
      dsimp only at hstep
      split at hstep
      · obtain rfl := Option.some.inj hstep
        exact runs_of_happened rfl (by simp)
      · simp at hstep
  | wait nanoseconds =>
      refine h.of_leaves (step_leaves (by simp) hstep).1 ?_
      obtain rfl := Option.some.inj hstep
      exact runs_of_eq rfl

/-! ## Refusals -/

/-- The next step of a task makes a check that fails: its source or its connection is not found, its request does
not compile, or the gate stops it, be it before or behind the way to a pool. -/
inductive Refuses (e : Engine) (s : EngineState) : Stage → Failure → Prop
  | query {request : Request} {f : Failure} (h : e.prepare s.catalog request = .error f) :
      s.Refuses e (.start (.query request)) f
  | values {source field : String} {id : Option String} {f : Failure}
      (h : e.prepareValues s.catalog source field id = .error f) : s.Refuses e (.start (.values source field id)) f
  | raw {request : RawRequest} {f : Failure} (h : e.prepareRaw s.catalog request = .error f) :
      s.Refuses e (.start (.raw request)) f
  | describe {id : Option String} {f : Failure} (afresh : Bool) (h : e.resolve s.catalog id = .error f) :
      s.Refuses e (.start (.describe id afresh)) f
  | unanswered {id : String} {f : Failure} (h : e.saved s.catalog id = .error f) :
      s.Refuses e (.start (.testSaved id)) f
  | missing {id : String} (h : e.saved s.catalog id = .ok none) :
      s.Refuses e (.start (.testSaved id)) (Engine.missing id)
  | gate {progress : Acquisition} {target : Target} {backend : Nat} {sql : String} {settings : SandboxSettings}
      {refusal : Sandbox.Refusal} (hgets : s.Gets target progress backend)
      (hgate : Sandbox.validate (s.database backend) sql = .error refusal) :
      s.Refuses e (.acquiring progress target (.raw sql settings)) refusal.toFailure

variable {f : Failure}

/-- Behind the way to a pool the gate stops nobody: it lets through what it has let through before. -/
theorem Guarded.not_refused (h : s.Guarded e before) {progress : Acquisition}
    (hat : s.At i (.acquiring progress target errand)) : ¬s.Refuses e (.acquiring progress target errand) f := by
  intro hrefuses
  cases hrefuses with
  | gate hgets hgate =>
      cases h.vouched i _ hat with
      | raw hvalid =>
          rw [(hgets.madeFor h.fitting hat).database, hvalid] at hgate
          simp at hgate

theorem Refuses.startStep {operation : Operation} (h : s.Refuses e (.start operation) f) :
    s.startStep e operation = (s, .done (.error f)) := by
  cases h with
  | query h =>
      rw [EngineState.startStep, h]
      rfl
  | values h =>
      rw [EngineState.startStep, h]
      rfl
  | raw h =>
      rw [EngineState.startStep, h]
      rfl
  | describe afresh h => rw [EngineState.startStep, h]
  | unanswered h => rw [EngineState.startStep, h]
  | missing h => rw [EngineState.startStep, h]

theorem Refuses.after {operation : Operation} (h : s.Refuses e (.start operation) f) (nanoseconds : Nat) :
    (s.after nanoseconds).Refuses e (.start operation) f := by
  cases h with
  | query h => exact .query h
  | values h => exact .values h
  | raw h => exact .raw h
  | describe afresh h => exact .describe afresh h
  | unanswered h => exact .unanswered h
  | missing h => exact .missing h

/-- Who is refused at the start is told so at once, and nothing else happens. -/
theorem Refuses.step {operation : Operation} (hat : s.At i (.start operation))
    (h : s.Refuses e (.start operation) f) (o : Outside) :
    s.step e (.task i o) = some { s.after 1 with tasks := s.tasks.set i (.done (.error f)) } := by
  refine step_task_iff.2 ⟨.start operation, hat, rfl, ?_, ?_⟩
  · cases h <;> rfl
  · have hmove : (s.after 1).move e i o (.start operation) = (s.after 1, .done (.error f)) := (h.after 1).startStep
    rw [advance_eq, hmove]
    rfl

/-- A task that has come to its end stays there. -/
theorem at_run_of_done {outcome : Except Failure Reply} (hat : s.At i (.done outcome)) (turns : List Turn) :
    (s.run e turns).At i (.done outcome) := by
  refine run_induction (P := fun s => s.At i (.done outcome)) hat ?_ turns
  intro s turn s' hat hstep
  cases turn with
  | task j o =>
      obtain ⟨stage, hstage, hdone, -, rfl⟩ := step_task_iff.1 hstep
      have hne : i ≠ j := by
        rintro rfl
        rw [← hat.unique hstage] at hdone
        simp [Stage.isDone] at hdone
      exact (at_advance_of_ne (s := s.after 1) hne).2 hat
  | _ =>
      rw [At, (step_leaves (by simp) hstep).1.tasks]
      exact hat

/-! ## Runs -/

def PoolsFit (s : EngineState) : Prop :=
  ∀ key entry, (key, entry) ∈ s.pools → s.MadeFor entry.backend entry.connection

variable {operations : List Operation}

theorem guarded_run (hfit : s.PoolsFit) (operations : List Operation) (turns : List Turn) :
    ((s.given operations).run e turns).Guarded e s.history := by
  refine run_induction ?_ (fun _ _ _ h hstep => h.step hstep) turns
  refine ⟨⟨hfit, ?_⟩, ?_, [], by simp [given], by simp⟩
  · intro j progress target errand hat
    obtain ⟨operation, -, h⟩ := at_given.1 hat
    simp at h
  · intro j stage hat
    obtain ⟨operation, -, rfl⟩ := at_given.1 hat
    trivial

/-- Whoever is at the start still has before him what he was given to do. -/
theorem operation_of_start {turns : List Turn} {operation : Operation}
    (hat : ((s.given operations).run e turns).At i (.start operation)) : operations[i]? = some operation := by
  refine keeps_of_leads (P := fun stage => ∀ operation, stage = .start operation → operations[i]? = some operation)
    (s := s.given operations) ?_ ?_ turns _ hat operation rfl
  · intro s stage next hleads _ operation hnext
    exact absurd hnext hleads.ne_start
  · intro stage hstage operation hstart
    obtain ⟨operation', hoperation, rfl⟩ := at_given.1 hstage
    obtain rfl := Stage.start.inj hstart
    exact hoperation

theorem poolsFit_initial (settings : Settings) (catalog : Catalog) : (initial settings catalog).PoolsFit := by
  intro key entry hmem
  simp [initial] at hmem

/-- Whatever tasks do from a state in which pools stand where they belong, as they do in every state that an engine
comes to: the texts that run on a pool, or are about to, may be run on the database of that pool. A task that is
refused has done nothing yet; it is told so in its next step, once and for all, and nothing but the clock has
changed. -/
theorem vetted_run (e : Engine) (s : EngineState) (hfit : s.PoolsFit) (operations : List Operation)
    (turns : List Turn) :
    let reached := (s.given operations).run e turns
    (∃ more, reached.history = s.history ++ more ∧
      ∀ b sql timeout, .executed b sql timeout ∈ more → reached.Vets e b sql) ∧
    (∀ (i b : Nat) errand sql rest results, reached.At i (.running b errand sql rest results) →
      reached.Vets e b sql) ∧
    (∀ (i : Nat) stage f, reached.At i stage → reached.Refuses e stage f →
      (∃ operation, operations[i]? = some operation ∧ stage = .start operation) ∧
      ∀ o, ∃ next, reached.step e (.task i o) = some next ∧
        next = { reached with clock := reached.clock + 1, tasks := reached.tasks.set i (.done (.error f)) } ∧
        ∀ later, (next.run e later).At i (.done (.error f))) ∧
    (∀ settings catalog, (initial settings catalog).PoolsFit) ∧ reached.PoolsFit := by
  intro reached
  have hguarded : reached.Guarded e s.history := guarded_run hfit operations turns
  refine ⟨hguarded.hasRun, ?_, ?_, poolsFit_initial, hguarded.fitting.placed⟩
  · intro i b errand sql rest results hat
    exact hguarded.vouched i _ hat sql List.mem_cons_self
  · intro i stage f hat hrefuses
    obtain ⟨operation, rfl⟩ : ∃ operation, stage = .start operation := by
      cases stage with
      | start operation => exact ⟨operation, rfl⟩
      | acquiring progress target errand => exact absurd hrefuses (hguarded.not_refused hat)
      | _ => cases hrefuses
    refine ⟨⟨operation, operation_of_start hat, rfl⟩, ?_⟩
    intro o
    refine ⟨_, hrefuses.step hat o, rfl, ?_⟩
    intro later
    refine at_run_of_done ?_ later
    exact List.getElem?_set_self (List.getElem?_eq_some_iff.1 hat).1

section Demands

/-- Two statements of users: one that reads and one that does not. -/
def demands : List Operation :=
  [.raw ⟨"SELECT 1", none⟩, .raw ⟨"DELETE FROM orders", none⟩]

/-- An engine with a database of its own. -/
def keeper : Engine :=
  ⟨.empty, .usual, some (Connection.new "application" .postgresql "db" "shop" "app"), .open⟩

/-- The turns in which the task that reads gets its pool and runs its statement. -/
def demanding : List Turn :=
  (List.replicate 13 0).map fun i => .task i ⟨none, .ok .empty⟩

/-- The one statement runs with its rows limited, and the other one is refused. -/
theorem vetted_run_demands :
    let reached := ((initial .usual .empty).given demands).run keeper demanding
    reached.Vets keeper 0 "SELECT * FROM (\nSELECT 1\n) AS __result LIMIT 1000" ∧
      ∃ next, reached.step keeper (.task 1 ⟨none, .ok .empty⟩) = some next ∧
        (next.pools, next.attempts, next.history) = (reached.pools, reached.attempts, reached.history) ∧
        next.At 1 (.done (.error (.sandbox "only SELECT or WITH statements are allowed"))) := by
  intro reached
  obtain ⟨⟨more, hmore, hvets⟩, -, hrefused, -⟩ :=
    vetted_run keeper (initial .usual .empty) (poolsFit_initial _ _) demands demanding
  constructor
  · have hhistory : reached.history =
        [.created 0, .executed 0 "SELECT * FROM (\nSELECT 1\n) AS __result LIMIT 1000" 30000] := by decide +kernel
    have hran : reached.history = more := hmore
    rw [hhistory] at hran
    subst hran
    exact hvets _ _ _ (List.mem_cons_of_mem _ List.mem_cons_self)
  · have hat : reached.At 1 (.start (.raw ⟨"DELETE FROM orders", none⟩)) := by
      unfold At
      rfl
    have hrefuses : reached.Refuses keeper (.start (.raw ⟨"DELETE FROM orders", none⟩))
        (.sandbox "only SELECT or WITH statements are allowed") := .raw (by rfl)
    obtain ⟨next, hstep, rfl, hdone⟩ := (hrefused 1 _ _ hat hrefuses).2 ⟨none, .ok .empty⟩
    exact ⟨_, hstep, rfl, hdone []⟩

end Demands

end EngineState

end SemanticLayer
