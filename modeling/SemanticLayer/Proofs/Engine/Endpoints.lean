import SemanticLayer.Proofs.Engine.Locks
import SemanticLayer.Proofs.Engine.Stages
/-!
Which pools tasks are given. A pool that a task has got for a connection was made for the same server, account and
secret, whatever other tasks did with the pools, the catalog and each other's places in the meantime.
-/
namespace SemanticLayer

namespace Connection

variable {a b : Connection}

theorem sameEndpoint_iff : a.sameEndpoint b = true ↔ a.endpoint = b.endpoint := by
  simp [sameEndpoint]

theorem endpoint_eq_iff : a.endpoint = b.endpoint ↔ a.database = b.database ∧ a.host = b.host ∧
    a.effectivePort = b.effectivePort ∧ a.catalogName = b.catalogName ∧ a.username = b.username ∧
    a.secret = b.secret ∧ a.encrypted = b.encrypted := by
  simp [endpoint]

theorem sameEndpoint_equivalence : Equivalence fun a b : Connection => a.sameEndpoint b = true where
  refl _ := sameEndpoint_iff.2 rfl
  symm h := sameEndpoint_iff.2 (sameEndpoint_iff.1 h).symm
  trans h h' := sameEndpoint_iff.2 ((sameEndpoint_iff.1 h).trans (sameEndpoint_iff.1 h'))

/-- A connection without a port of its own goes to the usual port of its engine. -/
theorem endpoint_defaultPort (c : Connection) :
    endpoint { c with port := some c.database.defaultPort } = endpoint { c with port := none } := rfl

end Connection

/-- The pool that a task has made, or is about to be given. -/
def Acquisition.backend? : Acquisition → Option Nat
  | placing backend | inserting backend | releasing (.ok backend) => some backend
  | _ => none

namespace EngineState

variable {e : Engine} {s s' : EngineState} {i j b : Nat} {o : Outside} {stage : Stage} {turn : Turn}
  {c c' : Connection} {target : Target} {operations : List Operation}

/-- Whether a pool was made for the endpoint of a connection. -/
def MadeFor (s : EngineState) (b : Nat) (c : Connection) : Prop :=
  ∃ made, s.backends[b]? = some made ∧ made.connection.endpoint = c.endpoint

/-- A pool keeps its number. -/
theorem made_of_prefix {made : Backend} (hearlier : s.backends <+: s'.backends) (h : s.backends[b]? = some made) :
    s'.backends[b]? = some made := by
  obtain ⟨more, hmore⟩ := hearlier
  rw [← hmore, List.getElem?_append_left (List.getElem?_eq_some_iff.1 h).1, h]

theorem MadeFor.mono (h : s.MadeFor b c) (hearlier : s.backends <+: s'.backends) : s'.MadeFor b c := by
  obtain ⟨made, hmade, hendpoint⟩ := h
  exact ⟨made, made_of_prefix hearlier hmade, hendpoint⟩

theorem MadeFor.congr (h : s.MadeFor b c) (hendpoint : c.endpoint = c'.endpoint) : s.MadeFor b c' := by
  obtain ⟨made, hmade, heq⟩ := h
  exact ⟨made, hmade, heq.trans hendpoint⟩

theorem current?_eq_some_iff : s.current? target = some b ↔
    ∃ entry, s.pool? target.key = some entry ∧
      entry.connection.endpoint = target.connection.endpoint ∧ entry.backend = b := by
  simp [current?, Option.filter_eq_some_iff, Connection.sameEndpoint_iff, and_assoc]

/-! ## Pools in their places -/

/-- Pools stand in their places for the endpoints that they were made for, and so do those on the way. -/
structure Fitting (s : EngineState) : Prop where
  placed : ∀ key entry, (key, entry) ∈ s.pools → s.MadeFor entry.backend entry.connection
  onTheWay : ∀ i progress target errand, s.At i (.acquiring progress target errand) →
    ∀ b ∈ progress.backend?, s.MadeFor b target.connection

theorem Fitting.current (h : s.Fitting) (hb : s.current? target = some b) :
    s.MadeFor b target.connection := by
  obtain ⟨entry, hentry, hendpoint, rfl⟩ := current?_eq_some_iff.1 hb
  exact (h.placed _ _ (mem_of_lookup hentry)).congr hendpoint

theorem Gets.madeFor {progress : Acquisition} {errand : Errand} (h : s.Gets target progress b) (hfitting : s.Fitting)
    (hat : s.At i (.acquiring progress target errand)) : s.MadeFor b target.connection := by
  cases h with
  | found hcurrent => exact hfitting.current hcurrent
  | made => exact hfitting.onTheWay _ _ _ _ hat _ rfl

theorem backends_acquireStep (progress : Acquisition) (target : Target) (errand : Errand) :
    s.backends <+: (s.acquireStep e i o.creation target errand progress).1.backends := by
  cases progress with
  | looking inTurn =>
      simp only [acquireStep]
      split <;> exact List.prefix_rfl
  | creating =>
      simp only [acquireStep]
      split
      · exact List.prefix_rfl
      · exact List.prefix_append _ _
  | releasing result => cases result <;> exact List.prefix_rfl
  | _ => exact List.prefix_rfl

theorem backends_move : s.backends <+: (s.move e i o stage).1.backends := by
  by_cases hstage : ∃ progress target errand, stage = .acquiring progress target errand
  · obtain ⟨progress, target, errand, rfl⟩ := hstage
    exact backends_acquireStep progress target errand
  · exact (move_leaves fun progress target errand h => hstage ⟨progress, target, errand, h⟩).backends

/-- A pool comes into its place from the task that made it, for the connection it was made for. -/
theorem mem_pools_move {key : PoolKey} {entry : PoolEntry}
    (hmem : (key, entry) ∈ (s.move e i o stage).1.pools) : (key, entry) ∈ s.pools ∨
      ∃ target errand, stage = .acquiring (.inserting entry.backend) target errand ∧
        target.key = key ∧ entry.connection = target.connection := by
  rw [pools_move] at hmem
  unfold poolsAfter at hmem
  split at hmem
  · exact .inl (List.mem_of_mem_filter hmem)
  · exact .inl (List.mem_of_mem_filter hmem)
  · simp at hmem
  · rename_i backend target errand
    rcases List.mem_cons.1 hmem with heq | hmem
    · obtain ⟨rfl, rfl⟩ := Prod.mk.inj heq
      exact .inr ⟨target, errand, rfl, rfl, rfl⟩
    · exact .inl (List.mem_of_mem_filter hmem)
  · exact .inl hmem

theorem backend?_of_held {progress : Acquisition} {target : Target} {errand : Errand}
    (h : stage.held = []) (hstage : stage = .acquiring progress target errand) :
    progress.backend? = none := by
  rw [hstage] at h
  cases progress <;> first | rfl | simp [Stage.held, Acquisition.held] at h

/-- What a task is given while it gets a pool was made for its target. -/
theorem Fitting.acquireStep (h : s.Fitting) {progress progress' : Acquisition} {target target' : Target}
    {errand errand' : Errand} (hat : s.At i (.acquiring progress target errand))
    (hnext : (s.acquireStep e i o.creation target errand progress).2 =
      .acquiring progress' target' errand') (hb : b ∈ progress'.backend?) :
    (s.acquireStep e i o.creation target errand progress).1.MadeFor b target'.connection := by
  -- only a task that stays with its target is given something
  have harrived {backend : Nat} (hnext : s.arrived backend errand = .acquiring progress' target' errand') :
      False := by
    rw [backend?_of_held (held_arrived _ _ _) hnext] at hb
    simp at hb
  have hheld := h.onTheWay _ _ _ _ hat
  cases progress with
  | looking inTurn =>
      simp only [EngineState.acquireStep] at hnext ⊢
      split at hnext
      · exact (harrived hnext).elim
      · obtain ⟨rfl, rfl, rfl⟩ := Stage.acquiring.inj hnext
        simp [Acquisition.backend?] at hb
      · rename_i backend hcurrent
        obtain ⟨rfl, rfl, rfl⟩ := Stage.acquiring.inj hnext
        obtain rfl := Option.some.inj hb
        exact h.current hcurrent
      · obtain ⟨rfl, rfl, rfl⟩ := Stage.acquiring.inj hnext
        simp [Acquisition.backend?] at hb
  | creating =>
      simp only [EngineState.acquireStep] at hnext ⊢
      split at hnext
      · obtain ⟨rfl, rfl, rfl⟩ := Stage.acquiring.inj hnext
        simp [Acquisition.backend?] at hb
      · obtain ⟨rfl, rfl, rfl⟩ := Stage.acquiring.inj hnext
        obtain rfl := Option.some.inj hb
        exact ⟨_, List.getElem?_concat_length, rfl⟩
  | placing backend =>
      obtain ⟨rfl, rfl, rfl⟩ := Stage.acquiring.inj hnext
      exact hheld b hb
  | inserting backend =>
      obtain ⟨rfl, rfl, rfl⟩ := Stage.acquiring.inj hnext
      exact hheld b hb
  | releasing result =>
      cases result with
      | ok backend => exact (harrived hnext).elim
      | error f => simp [EngineState.acquireStep] at hnext
  | _ =>
      obtain ⟨rfl, rfl, rfl⟩ := Stage.acquiring.inj hnext
      simp [Acquisition.backend?] at hb

theorem Fitting.of_leaves (h : s.Fitting) (hleaves : s.Leaves s') : s'.Fitting where
  placed key entry hmem := (h.placed key entry (hleaves.pools hmem)).mono hleaves.backends
  onTheWay j progress target errand hat b hb := by
    rw [At, hleaves.tasks] at hat
    exact (h.onTheWay j progress target errand hat b hb).mono hleaves.backends

theorem Fitting.advance (h : s.Fitting) (hat : s.At i stage) : (s.advance e i o stage).Fitting := by
  have hbackends : s.backends <+: (s.advance e i o stage).backends := by
    rw [advance_eq]
    exact backends_move
  refine ⟨fun key entry hmem => ?_, fun j progress target errand hat' b hb => ?_⟩
  · rw [advance_eq] at hmem
    rcases mem_pools_move hmem with hmem | ⟨target, errand, rfl, -, hconnection⟩
    · exact (h.placed key entry hmem).mono hbackends
    · rw [hconnection]
      exact (h.onTheWay _ _ _ _ hat _ rfl).mono hbackends
  · by_cases hj : j = i
    · subst hj
      have hnext := (at_advance (e := e) (o := o) hat).unique hat'
      rw [advance_eq]
      by_cases hstage : ∃ progress target errand, stage = .acquiring progress target errand
      · obtain ⟨progress, target, errand, rfl⟩ := hstage
        exact h.acquireStep hat hnext hb
      · have hheld := held_move (e := e) (s := s) (i := j) (o := o)
          fun progress target errand h => hstage ⟨progress, target, errand, h⟩
        rw [backend?_of_held hheld hnext] at hb
        simp at hb
    · exact (h.onTheWay j _ _ _ ((at_advance_of_ne hj).1 hat') b hb).mono hbackends

/-! ## Pools that are asked for -/

/-- The stages of a task that gets the pool of a target and no more. -/
inductive Obtains (s : EngineState) (target : Target) : Stage → Prop
  | start : s.Obtains target (.start (.acquire target))
  | acquiring (progress : Acquisition) : s.Obtains target (.acquiring progress target .hold)
  | failed (f : Failure) : s.Obtains target (.done (.error f))
  | obtained {b : Nat} (h : s.MadeFor b target.connection) : s.Obtains target (.done (.ok (.pool b)))

theorem Obtains.mono (h : s.Obtains target stage) (hearlier : s.backends <+: s'.backends) :
    s'.Obtains target stage := by
  cases h with
  | start => exact .start
  | acquiring progress => exact .acquiring progress
  | failed f => exact .failed f
  | obtained h => exact .obtained (h.mono hearlier)

theorem Obtains.move (h : s.Obtains target stage) (hfitting : s.Fitting) (hat : s.At i stage) :
    (s.move e i o stage).1.Obtains target (s.move e i o stage).2 := by
  cases h with
  | start => exact .acquiring _
  | failed f => exact .failed f
  | obtained h => exact .obtained h
  | acquiring progress =>
      have hheld := hfitting.onTheWay _ _ _ _ hat
      cases progress with
      | looking inTurn =>
          simp only [EngineState.move, EngineState.acquireStep]
          split
          · rename_i backend hcurrent
            exact .obtained (hfitting.current hcurrent)
          · exact .acquiring _
          · exact .acquiring _
          · exact .acquiring _
      | creating =>
          simp only [EngineState.move, EngineState.acquireStep]
          split <;> exact .acquiring _
      | releasing result =>
          cases result with
          | ok backend => exact .obtained (hheld backend rfl)
          | error f => exact .failed f
      | _ => exact .acquiring _

/-- What holds in a run of the tasks of an operation each. -/
structure Serving (operations : List Operation) (s : EngineState) : Prop where
  fitting : s.Fitting
  obtains : ∀ (i : Nat) (target : Target), operations[i]? = some (.acquire target) →
    ∀ stage, s.At i stage → s.Obtains target stage

theorem serving_started (settings : Settings) (catalog : Catalog) (operations : List Operation) :
    (started settings catalog operations).Serving operations := by
  refine ⟨⟨fun key entry hmem => ?_, fun j progress target errand hat => ?_⟩, fun j target hj stage hat => ?_⟩
  · simp [started, initial] at hmem
  · obtain ⟨operation, -, h⟩ := at_started.1 hat
    simp at h
  · obtain ⟨operation, hoperation, rfl⟩ := at_started.1 hat
    obtain rfl := Option.some.inj (hoperation.symm.trans hj)
    exact .start

theorem Serving.of_leaves (h : s.Serving operations) (hleaves : s.Leaves s') : s'.Serving operations where
  fitting := h.fitting.of_leaves hleaves
  obtains j target hj stage hat := by
    rw [At, hleaves.tasks] at hat
    exact (h.obtains j target hj stage hat).mono hleaves.backends

theorem Serving.advance (h : s.Serving operations) (hat : s.At i stage) :
    (s.advance e i o stage).Serving operations := by
  refine ⟨h.fitting.advance hat, fun j target hj stage' hat' => ?_⟩
  by_cases hji : j = i
  · subst hji
    rw [← (at_advance (e := e) (o := o) hat).unique hat', advance_eq]
    have hmove := (h.obtains j target hj stage hat).move (e := e) (o := o) h.fitting hat
    exact hmove.mono List.prefix_rfl
  · have hearlier : s.backends <+: (s.advance e i o stage).backends := by
      rw [advance_eq]
      exact backends_move
    exact (h.obtains j target hj stage' ((at_advance_of_ne hji).1 hat')).mono hearlier

theorem Serving.step (h : s.Serving operations) (hstep : s.step e turn = some s') : s'.Serving operations := by
  by_cases hturn : ∃ i o, turn = .task i o
  · obtain ⟨i, o, rfl⟩ := hturn
    obtain ⟨stage, hat, -, -, rfl⟩ := step_task_iff.1 hstep
    have hlater : (s.after 1).Serving operations := h.of_leaves (leaves_of_eq rfl)
    exact hlater.advance hat
  · exact h.of_leaves (step_leaves (fun i o heq => hturn ⟨i, o, heq⟩) hstep).1

theorem serving_run (e : Engine) (settings : Settings) (catalog : Catalog) (operations : List Operation)
    (turns : List Turn) : ((started settings catalog operations).run e turns).Serving operations :=
  run_induction (serving_started settings catalog operations) (fun _ _ _ h hstep => h.step hstep) turns

/-- A pool that a task is given was made for the endpoint of its target; being for the same endpoint is an
equivalence, for which no port is the usual port of the engine. -/
theorem acquired_endpoint :
    (Equivalence fun a b : Connection => a.sameEndpoint b = true) ∧
      (∀ a b : Connection, a.sameEndpoint b = true ↔ a.database = b.database ∧ a.host = b.host ∧
        a.effectivePort = b.effectivePort ∧ a.catalogName = b.catalogName ∧ a.username = b.username ∧
        a.secret = b.secret ∧ a.encrypted = b.encrypted) ∧
      (∀ c : Connection, Connection.sameEndpoint { c with port := none }
        { c with port := some c.database.defaultPort } = true) ∧
      ∀ (e : Engine) (settings : Settings) (catalog : Catalog) (operations : List Operation)
        (turns : List Turn) (i : Nat) (target : Target) (b : Nat),
        operations[i]? = some (.acquire target) →
        ((started settings catalog operations).run e turns).At i (.done (.ok (.pool b))) →
        ∃ made, ((started settings catalog operations).run e turns).backends[b]? = some made ∧
          made.connection.sameEndpoint target.connection = true := by
  refine ⟨Connection.sameEndpoint_equivalence, fun a b => ?_, fun c => ?_, ?_⟩
  · rw [Connection.sameEndpoint_iff, Connection.endpoint_eq_iff]
  · exact Connection.sameEndpoint_iff.2 (Connection.endpoint_defaultPort c).symm
  · intro e settings catalog operations turns i target b hoperation hdone
    have hserving := serving_run e settings catalog operations turns
    cases hserving.obtains i target hoperation _ hdone with
    | obtained h =>
        obtain ⟨made, hmade, hendpoint⟩ := h
        exact ⟨made, hmade, Connection.sameEndpoint_iff.2 hendpoint⟩

section Rotation

/-- A connection whose secret changes. -/
def rotated (secret : String) : Target :=
  .ofConnection { Connection.new "orders" .postgresql "db" "shop" "app" with secret := some secret }

/-- One task makes a pool with the old secret while another one waits with the new one. That one replaces the pool,
and before it has its own in hands, this is dropped too. -/
def rotation : EngineState :=
  (started .usual .empty
      [.acquire (rotated "old"), .acquire (rotated "new"), .evict (.connection "orders")]).run
    ⟨.empty, .usual, none, .open⟩
    ((List.replicate 6 0 ++ List.replicate 5 1 ++ List.replicate 6 0 ++ List.replicate 6 1 ++ [2, 1]).map
      fun i => .task i ⟨none, .ok .empty⟩)

theorem acquired_endpoint_rotated : rotation.At 1 (.done (.ok (.pool 1))) ∧ rotation.pools = [] ∧
    ∃ made, rotation.backends[1]? = some made ∧
      made.connection.sameEndpoint (rotated "new").connection = true := by
  have hdone : rotation.At 1 (.done (.ok (.pool 1))) := by
    unfold At
    rfl
  exact ⟨hdone, rfl, acquired_endpoint.2.2.2 _ _ _ _ _ 1 (rotated "new") 1 rfl hdone⟩

end Rotation

end EngineState

end SemanticLayer
