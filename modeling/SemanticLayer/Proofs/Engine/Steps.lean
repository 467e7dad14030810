import Mathlib.Data.List.Basic
import SemanticLayer.Engine.Step
import SemanticLayer.Proofs.Lookup
/-!
What a step of an engine changes. A turn of a task moves that task alone; the pools, their lock and the turns
change at few stages only.
-/
namespace SemanticLayer

namespace SharedLock

variable {l : SharedLock} {i : Nat}

theorem mem_holders : i ∈ l.holders ↔ l.writer = some i ∨ i ∈ l.readers := by
  simp [holders]

end SharedLock

namespace EngineState

variable {e : Engine} {s s' : EngineState} {i j : Nat} {o : Outside} {stage stage' : Stage}
  {turn : Turn} {turns : List Turn}

/-- A task is at a stage. -/
def At (s : EngineState) (i : Nat) (stage : Stage) : Prop :=
  s.tasks[i]? = some stage

theorem At.unique (h : s.At i stage) (h' : s.At i stage') : stage = stage' :=
  Option.some.inj (h.symm.trans h')

/-! ## Pools by their keys -/

theorem pool?_insertPool (s : EngineState) (key : PoolKey) (entry : PoolEntry) :
    (s.insertPool key entry).pool? key = some entry := by
  simp [pool?, insertPool]

theorem pool?_insertPool_of_ne (s : EngineState) {key other : PoolKey} (entry : PoolEntry)
    (hne : other ≠ key) : (s.insertPool key entry).pool? other = s.pool? other := by
  have hother : (other == key) = false := by simpa using hne
  rw [pool?, insertPool, List.lookup_cons, hother]
  exact (lookup_filter_ne s.pools key other).trans (if_neg hne)

/-! ## Stages to which a step leads -/

theorem arrived_cases (s : EngineState) (backend : Nat) (errand : Errand) :
    (∃ f, s.arrived backend errand = .done (.error f)) ∨
      (∃ db, errand.statements db = .ok [] ∧
        s.arrived backend errand = .done (.ok (errand.reply db backend []))) ∨
      ∃ statement rest, s.arrived backend errand = .running backend errand statement rest [] := by
  unfold arrived
  split
  · exact .inl ⟨_, rfl⟩
  · rename_i hstatements
    exact .inr (.inl ⟨_, hstatements, rfl⟩)
  · exact .inr (.inr ⟨_, _, rfl⟩)

theorem arrived_hold (s : EngineState) (backend : Nat) :
    s.arrived backend .hold = .done (.ok (.pool backend)) := rfl

/-! ## What a task moves -/

/-- What steps other than those of getting a pool do to pools and locks: they may take pools out of their
places, and make new ones. -/
structure Leaves (s s' : EngineState) : Prop where
  poolLock : s'.poolLock = s.poolLock
  turns : s'.turns = s.turns
  tableLock : s'.tableLock = s.tableLock
  tasks : s'.tasks = s.tasks
  pools : s'.pools ⊆ s.pools
  backends : s.backends <+: s'.backends

theorem leaves_of_eq (h : (s'.poolLock, s'.turns, s'.tableLock, s'.tasks, s'.pools, s'.backends) =
    (s.poolLock, s.turns, s.tableLock, s.tasks, s.pools, s.backends)) : s.Leaves s' := by
  simp only [Prod.mk.injEq] at h
  obtain ⟨hlock, hturns, htable, htasks, hpools, hbackends⟩ := h
  exact ⟨hlock, hturns, htable, htasks, fun _ hmem => hpools ▸ hmem, hbackends ▸ List.prefix_rfl⟩

theorem leaves_evict (s : EngineState) (key : PoolKey) : s.Leaves (s.evict key) :=
  ⟨rfl, rfl, rfl, rfl, fun _ h => List.mem_of_mem_filter h, List.prefix_rfl⟩

theorem leaves_withoutPools (s : EngineState) : s.Leaves s.withoutPools :=
  ⟨rfl, rfl, rfl, rfl, List.nil_subset _, List.prefix_rfl⟩

theorem startStep_leaves (e : Engine) (s : EngineState) (operation : Operation) :
    s.Leaves (s.startStep e operation).1 := by
  cases operation with
  | evict key => exact s.leaves_evict key
  | changed id => exact s.leaves_evict _
  | shutdown => exact s.leaves_withoutPools
  | describe id afresh =>
      rw [startStep]
      split
      · exact leaves_of_eq rfl
      · split <;> exact leaves_of_eq rfl
  | testSaved id =>
      rw [startStep]
      split <;> exact leaves_of_eq rfl
  | _ => exact leaves_of_eq rfl

/-- A task that does not get a pool leaves the locks to others. -/
theorem move_leaves (hstage : ∀ progress target errand, stage ≠ .acquiring progress target errand) :
    s.Leaves (s.move e i o stage).1 := by
  cases stage with
  | start operation => exact startStep_leaves e s operation
  | acquiring progress target errand => exact absurd rfl (hstage progress target errand)
  | consulting target =>
      rw [move]
      split <;> exact leaves_of_eq rfl
  | opening connection id =>
      rw [move]
      split
      · exact leaves_of_eq rfl
      · exact ⟨rfl, rfl, rfl, rfl, List.Subset.refl _, List.prefix_append _ _⟩
  | shutting backends => cases backends <;> exact leaves_of_eq rfl
  | _ => exact leaves_of_eq rfl

theorem acquireStep_tasks (progress : Acquisition) (target : Target) (errand : Errand) :
    (s.acquireStep e i o.creation target errand progress).1.tasks = s.tasks := by
  cases progress with
  | looking inTurn =>
      simp only [acquireStep]
      split <;> rfl
  | creating =>
      simp only [acquireStep]
      split <;> rfl
  | releasing result => cases result <;> rfl
  | _ => rfl

theorem move_tasks : (s.move e i o stage).1.tasks = s.tasks := by
  by_cases hstage : ∃ progress target errand, stage = .acquiring progress target errand
  · obtain ⟨progress, target, errand, rfl⟩ := hstage
    exact acquireStep_tasks progress target errand
  · exact (move_leaves fun progress target errand h => hstage ⟨progress, target, errand, h⟩).tasks

theorem advance_eq : s.advance e i o stage =
    { (s.move e i o stage).1 with tasks := s.tasks.set i (s.move e i o stage).2 } := by
  have htasks : (s.move e i o stage).1.tasks = s.tasks := move_tasks
  rw [← htasks]
  rfl

theorem at_advance (h : s.At i stage) :
    (s.advance e i o stage).At i (s.move e i o stage).2 := by
  have hlength : i < s.tasks.length := (List.getElem?_eq_some_iff.1 h).1
  rw [At, advance_eq, List.getElem?_set_self hlength]

theorem at_advance_of_ne (hne : j ≠ i) : (s.advance e i o stage).At j stage' ↔ s.At j stage' := by
  rw [At, advance_eq, List.getElem?_set_ne hne.symm]
  rfl

/-! ## Pools in their places, connections and descriptions -/

def poolsAfter (s : EngineState) : Stage → List (PoolKey × PoolEntry)
  | .start (.evict key) => (s.evict key).pools
  | .start (.changed id) => (s.evict (.connection id)).pools
  | .start .shutdown => []
  | .acquiring (.inserting backend) target _ => (s.insertPool target.key ⟨target.connection, backend⟩).pools
  | _ => s.pools

def catalogAfter (e : Engine) (s : EngineState) : Stage → Catalog
  | .start (.save connection) => s.catalog.upsert connection
  | .start (.remove id) => s.catalog.remove id
  | .recording id outcome =>
    if e.access.records then s.catalog.record id (s.testOutcome outcome) else s.catalog
  | _ => s.catalog

def cacheAfter (s : EngineState) : Stage → Cache PoolKey DatabaseSchema
  | .storing key schema => s.cache.insert s.clock key schema
  | .invalidating key => s.cache.erase key
  | .clearing => s.cache.clear
  | _ => s.cache

theorem move_keeps : ((s.move e i o stage).1.pools, (s.move e i o stage).1.catalog, (s.move e i o stage).1.cache) =
    (s.poolsAfter stage, s.catalogAfter e stage, s.cacheAfter stage) := by
  cases stage with
  | start operation =>
      cases operation with
      | describe id afresh =>
          simp only [move, startStep]
          split
          · rfl
          · split <;> rfl
      | testSaved id =>
          simp only [move, startStep]
          split <;> rfl
      | _ => rfl
  | consulting target =>
      simp only [move]
      split <;> rfl
  | acquiring progress target errand =>
      cases progress with
      | looking inTurn =>
          simp only [move, acquireStep]
          split <;> rfl
      | creating =>
          simp only [move, acquireStep]
          split <;> rfl
      | releasing result => cases result <;> rfl
      | _ => rfl
  | opening connection id =>
      simp only [move]
      split <;> rfl
  | shutting backends => cases backends <;> rfl
  | _ => rfl

theorem pools_move : (s.move e i o stage).1.pools = s.poolsAfter stage :=
  congrArg Prod.fst move_keeps

theorem catalog_move : (s.move e i o stage).1.catalog = s.catalogAfter e stage :=
  congrArg (fun kept => kept.2.1) move_keeps

theorem cache_move : (s.move e i o stage).1.cache = s.cacheAfter stage :=
  congrArg (fun kept => kept.2.2) move_keeps

/-! ## Turns -/

def after (s : EngineState) (nanoseconds : Nat) : EngineState :=
  { s with clock := s.clock + nanoseconds }

theorem holders_after (s : EngineState) (nanoseconds : Nat) (stage : Stage) :
    (s.after nanoseconds).holders stage = s.holders stage := by
  cases stage with
  | acquiring progress target errand => cases progress <;> rfl
  | _ => rfl

theorem step_task_iff : s.step e (.task i o) = some s' ↔
    ∃ stage, s.At i stage ∧ stage.isDone = false ∧ s.holders stage = [] ∧
      s' = (s.after 1).advance e i o stage := by
  constructor
  · intro h
    obtain ⟨stage, hstage, h⟩ := Option.bind_eq_some_iff.1 h
    change (s.after 1).taskStep e i o stage = some s' at h
    unfold taskStep at h
    rw [holders_after] at h
    split at h
    · simp at h
    · rename_i hready
      rw [Bool.or_eq_true, not_or] at hready
      exact ⟨stage, hstage, by simpa using hready.1, by simpa using hready.2, (Option.some.inj h).symm⟩
  · rintro ⟨stage, hstage, hdone, hnone, rfl⟩
    refine Option.bind_eq_some_iff.2 ⟨stage, hstage, ?_⟩
    change (s.after 1).taskStep e i o stage = _
    unfold taskStep
    rw [holders_after, hdone, hnone]
    rfl

/-- A turn that moves no task leaves everything that tasks share to them. -/
theorem step_leaves (hturn : ∀ i o, turn ≠ .task i o) (h : s.step e turn = some s') :
    s.Leaves s' ∧ s'.pools = s.pools ∧ s'.backends = s.backends := by
  cases turn with
  | task i o => exact absurd rfl (hturn i o)
  | close backend =>
      rw [step] at h
      dsimp only at h
      split at h
      · obtain rfl := Option.some.inj h
        exact ⟨leaves_of_eq rfl, rfl, rfl⟩
      · simp at h
  | wait nanoseconds =>
      obtain rfl := Option.some.inj h
      exact ⟨leaves_of_eq rfl, rfl, rfl⟩

theorem run_append (e : Engine) (s : EngineState) (turns more : List Turn) :
    s.run e (turns ++ more) = (s.run e turns).run e more := List.foldl_append

theorem run_of_step (h : s.step e turn = some s') (turns : List Turn) :
    s.run e (turn :: turns) = s'.run e turns := by
  rw [run, List.foldl_cons, h]
  rfl

theorem run_induction {P : EngineState → Prop} (hs : P s)
    (hstep : ∀ s turn s', P s → s.step e turn = some s' → P s') (turns : List Turn) :
    P (s.run e turns) := by
  induction turns generalizing s with
  | nil => exact hs
  | cons turn turns ih =>
      refine ih (s := (s.step e turn).getD s) ?_
      cases h : s.step e turn with
      | none => exact hs
      | some s' => exact hstep s turn s' hs h

/-- A task stays where it is while others move. -/
theorem at_run_of_others (hturns : ∀ turn ∈ turns, ∀ o, turn ≠ .task i o) :
    (s.run e turns).At i stage ↔ s.At i stage := by
  induction turns generalizing s with
  | nil => exact Iff.rfl
  | cons turn turns ih =>
      refine (ih (s := (s.step e turn).getD s) fun turn hmem => hturns turn (List.mem_cons_of_mem _ hmem)).trans ?_
      cases h : s.step e turn with
      | none => exact Iff.rfl
      | some s' =>
          cases turn with
          | task j o =>
              obtain ⟨stage', -, -, -, rfl⟩ := step_task_iff.1 h
              have hne : i ≠ j := by
                rintro rfl
                exact hturns _ List.mem_cons_self o rfl
              exact at_advance_of_ne (s := s.after 1) hne
          | _ =>
              have htasks := (step_leaves (by simp) h).1.tasks
              rw [Option.getD_some, At, htasks]
              rfl

end EngineState

end SemanticLayer
