import Mathlib.Data.List.Count
import Mathlib.Data.List.Perm.Basic
import SemanticLayer.Proofs.Engine.OnePool
import SemanticLayer.Proofs.Engine.Stages
/-!
Where the pools are that were made. A pool is in the hands of the task that made it, or in a place, or given to be
closed, and a step moves it from one to the next: none gets lost, and none is closed twice.
-/
namespace SemanticLayer

/-- The pools in the hands of a task: it has made them, and has neither put them in their places nor closed them. -/
def Stage.inHand : Stage → List Nat
  | acquiring (.placing backend) _ _ | acquiring (.inserting backend) _ _ => [backend]
  | running backend errand _ _ _ => if errand.isProbe then [backend] else []
  | closing backend _ _ => [backend]
  | _ => []

def Stage.toClose : Stage → List Nat
  | shutting backends => backends
  | _ => []

def Operation.isTest : Operation → Bool
  | test _ | testSaved _ => true
  | _ => false

def Stage.isTest : Stage → Bool
  | start operation => operation.isTest
  | running _ errand _ _ _ => errand.isProbe
  | opening _ _ | closing _ _ _ | recording _ _ | done _ => true
  | _ => false

def Event.closed? : Event → Option Nat
  | closed backend => some backend
  | _ => none

namespace EngineState

variable {e : Engine} {s s' : EngineState} {i j b : Nat} {o : Outside} {stage stage' next : Stage} {turn : Turn}
  {key : PoolKey} {entry : PoolEntry}

def inHand (s : EngineState) : List Nat :=
  s.tasks.flatMap Stage.inHand

def closed (s : EngineState) : List Nat :=
  s.history.filterMap Event.closed?

/-- The pools that were closed or given to be closed, once for each time. -/
def retired (s : EngineState) : List Nat :=
  s.closed ++ s.discarded ++ s.tasks.flatMap Stage.toClose

def keys (s : EngineState) : List PoolKey :=
  s.pools.map Prod.fst

/-! ## What tasks carry with them -/

theorem count_flatMap_set {tasks : List Stage} (f : Stage → List Nat) (h : tasks[i]? = some stage) (next : Stage)
    (b : Nat) :
    ((tasks.set i next).flatMap f).count b + (f stage).count b =
      (tasks.flatMap f).count b + (f next).count b := by
  obtain ⟨hi, hstage⟩ := List.getElem?_eq_some_iff.1 h
  have htasks : tasks = tasks.take i ++ stage :: tasks.drop (i + 1) := by
    rw [← hstage, List.getElem_cons_drop, List.take_append_drop]
  have hset : tasks.set i next = tasks.take i ++ next :: tasks.drop (i + 1) :=
    List.set_eq_take_append_cons_drop.trans (if_pos hi)
  rw [hset]
  conv_rhs => rw [htasks]
  simp only [List.flatMap_append, List.flatMap_cons, List.count_append]
  omega

/-! ## Places -/

theorem count_placed_filter {pools : List (PoolKey × PoolEntry)} (hkeys : (pools.map Prod.fst).Nodup)
    (key : PoolKey) (b : Nat) :
    ((pools.filter fun p => p.1 ≠ key).map fun p => p.2.backend).count b +
        ((pools.lookup key).map PoolEntry.backend).toList.count b =
      (pools.map fun p => p.2.backend).count b := by
  induction pools with
  | nil => rfl
  | cons p pools ih =>
      obtain ⟨k, entry⟩ := p
      obtain ⟨hfirst, hkeys⟩ := List.nodup_cons.1 hkeys
      by_cases hk : k = key
      · subst hk
        have hrest : pools.filter (fun p => p.1 ≠ k) = pools := by
          rw [List.filter_eq_self]
          intro p hp
          have hne : p.1 ≠ k := by
            rintro rfl
            exact hfirst (List.mem_map.2 ⟨p, hp, rfl⟩)
          simpa using hne
        rw [List.filter_cons_of_neg (by simp), hrest, List.lookup_cons_self]
        simp only [Option.map_some, Option.toList_some, List.map_cons, List.count_cons, List.count_nil]
        omega
      · have hlookup : ((k, entry) :: pools).lookup key = pools.lookup key := by
          rw [List.lookup_cons, beq_false_of_ne (Ne.symm hk)]
        rw [List.filter_cons_of_pos (by simpa using hk), hlookup]
        simp only [List.map_cons, List.count_cons]
        have hih := ih hkeys
        omega

theorem keys_nodup_filter (h : s.keys.Nodup) (key : PoolKey) :
    ((s.pools.filter fun p => p.1 ≠ key).map Prod.fst).Nodup :=
  h.sublist (List.filter_sublist.map Prod.fst)

theorem keys_nodup_insertPool (h : s.keys.Nodup) (key : PoolKey) (entry : PoolEntry) :
    (s.insertPool key entry).keys.Nodup := by
  refine List.nodup_cons.2 ⟨?_, keys_nodup_filter h key⟩
  intro hmem
  obtain ⟨p, hp, hkey⟩ := List.mem_map.1 hmem
  have hne : p.1 ≠ key := of_decide_eq_true (List.mem_filter.1 hp).2
  exact hne hkey

theorem keys_nodup_move (h : s.keys.Nodup) : (s.move e i o stage).1.keys.Nodup := by
  rw [keys, pools_move]
  unfold poolsAfter
  split
  · exact keys_nodup_filter h _
  · exact keys_nodup_filter h _
  · exact List.nodup_nil
  · exact keys_nodup_insertPool h _ _
  · exact h

/-! ## A step moves pools from one place to the next -/

@[simp] theorem closed_happened (s : EngineState) (event : Event) :
    (s.happened event).closed = s.closed ++ event.closed?.toList := by
  cases event <;> simp [closed, happened, Event.closed?]

/-- Pools that come into being, or go from one place to another, are the only ones whose place changes. -/
def Balances (s : EngineState) (stage : Stage) (s' : EngineState) (next : Stage) : Prop :=
  ∀ b, (next.inHand ++ next.toClose ++ s'.placed ++ s'.discarded ++ s'.closed).count b +
      (List.range s.backends.length).count b =
    (stage.inHand ++ stage.toClose ++ s.placed ++ s.discarded ++ s.closed).count b +
      (List.range s'.backends.length).count b

theorem balances_of_eq (hcarried : (next.inHand, next.toClose) = (stage.inHand, stage.toClose))
    (h : (s'.pools, s'.discarded, s'.history, s'.backends) = (s.pools, s.discarded, s.history, s.backends)) :
    s.Balances stage s' next := by
  simp only [Prod.mk.injEq] at h hcarried
  obtain ⟨hpools, hdiscarded, hhistory, hbackends⟩ := h
  intro b
  simp only [placed, closed, hpools, hdiscarded, hhistory, hbackends, hcarried.1, hcarried.2]

theorem happened_balances {event : Event}
    (h : ∀ b, (next.inHand ++ next.toClose ++ event.closed?.toList).count b =
      (stage.inHand ++ stage.toClose).count b) : s.Balances stage (s.happened event) next := by
  intro b
  have hcarried := h b
  simp only [closed_happened, List.count_append] at hcarried ⊢
  simp only [happened, placed]
  omega

theorem create_balances (backend : Backend) (hcarried : (stage.inHand, stage.toClose) = ([], []))
    (hnext : (next.inHand, next.toClose) = ([s.backends.length], [])) :
    s.Balances stage (s.create backend) next := by
  intro b
  simp only [Prod.mk.injEq] at hcarried hnext
  simp only [create, closed_happened, Event.closed?, hcarried.1, hcarried.2, hnext.1, hnext.2, List.count_append]
  simp only [happened, placed, closed, List.length_append, List.length_singleton, List.range_succ, List.count_append,
    Option.toList_none, List.count_nil]
  omega

theorem Leads.carried_start {operation : Operation} (h : s.Leads e (.start operation) next)
    (hoperation : operation ≠ .shutdown) : (next.inHand, next.toClose) = ([], []) := by
  cases h with
  | shutsDown => exact absurd rfl hoperation
  | _ => rfl

theorem carried_arrived (b : Nat) {errand : Errand} (herrand : errand.isProbe = false) :
    ((s.arrived b errand).inHand, (s.arrived b errand).toClose) = ([], []) := by
  rcases s.arrived_cases b errand with ⟨f, h⟩ | ⟨db, -, h⟩ | ⟨statement, rest, h⟩
  · rw [h]
    rfl
  · rw [h]
    rfl
  · simp [h, Stage.inHand, Stage.toClose, herrand]

theorem carried_concluded (id : Option String) (outcome : Except Failure Reply) :
    ((concluded id outcome).inHand, (concluded id outcome).toClose) = ([], []) := by
  cases id <;> rfl

theorem inHand_finished (b : Nat) (errand : Errand) (outcome : Except Failure Reply) :
    (finished b errand outcome).inHand = if errand.isProbe then [b] else [] := by
  unfold finished
  split
  · rfl
  · rfl
  · rename_i hprobe _
    cases errand with
    | probe id timeout => exact absurd rfl (hprobe id timeout)
    | _ => rfl

theorem toClose_finished (b : Nat) (errand : Errand) (outcome : Except Failure Reply) :
    (finished b errand outcome).toClose = [] := by
  unfold finished
  split <;> rfl

theorem evict_balances (hkeys : s.keys.Nodup) (key : PoolKey) (hcarried : (stage.inHand, stage.toClose) = ([], []))
    (hnext : (next.inHand, next.toClose) = ([], [])) : s.Balances stage (s.evict key) next := by
  intro b
  have hcount := count_placed_filter hkeys key b
  simp only [Prod.mk.injEq] at hcarried hnext
  simp only [evict, placed, closed, pool?, hcarried.1, hcarried.2, hnext.1, hnext.2, List.count_append,
    List.nil_append]
  simp only [ne_eq] at hcount ⊢
  omega

theorem startStep_balances (hkeys : s.keys.Nodup) (operation : Operation) :
    s.Balances (.start operation) (s.startStep e operation).1 (s.startStep e operation).2 := by
  have hcarried (hoperation : operation ≠ .shutdown) := (startStep_leads e s operation).carried_start hoperation
  cases operation with
  | evict key => exact evict_balances hkeys key rfl rfl
  | changed id => exact evict_balances hkeys _ rfl rfl
  | shutdown =>
      intro b
      simp [startStep, withoutPools, Stage.inHand, Stage.toClose, placed, closed]
  | describe id afresh =>
      refine balances_of_eq (hcarried (by simp)) ?_
      simp only [startStep]
      split
      · rfl
      · split <;> rfl
  | testSaved id =>
      refine balances_of_eq (hcarried (by simp)) ?_
      simp only [startStep]
      split <;> rfl
  | _ => exact balances_of_eq (hcarried (by simp)) rfl

theorem acquireStep_balances (hkeys : s.keys.Nodup) {target : Target} {errand : Errand}
    (herrand : errand.isProbe = false) (progress : Acquisition) :
    s.Balances (.acquiring progress target errand) (s.acquireStep e i o.creation target errand progress).1
      (s.acquireStep e i o.creation target errand progress).2 := by
  cases progress with
  | looking inTurn =>
      simp only [acquireStep]
      split
      · exact balances_of_eq (carried_arrived _ herrand) rfl
      all_goals exact balances_of_eq rfl rfl
  | creating =>
      simp only [acquireStep]
      split
      · exact balances_of_eq rfl rfl
      · exact create_balances (s := { s with attempts := s.attempts + 1 }) _ rfl rfl
  | inserting backend =>
      intro b
      have hcount := count_placed_filter hkeys target.key b
      simp only [acquireStep, insertPool, placed, closed, pool?, Stage.inHand, Stage.toClose, List.count_append,
        List.map_cons, List.count_cons, List.count_nil, List.append_nil, ne_eq] at hcount ⊢
      omega
  | releasing result =>
      cases result with
      | ok backend => exact balances_of_eq (carried_arrived _ herrand) rfl
      | error f => exact balances_of_eq rfl rfl
  | _ => exact balances_of_eq rfl rfl

/-- Tests are made on pools that are made for them, so that pools in their places are in nobody's hands. -/
theorem move_balances (hkeys : s.keys.Nodup)
    (hprobe : ∀ progress target errand, stage = .acquiring progress target errand → errand.isProbe = false) :
    s.Balances stage (s.move e i o stage).1 (s.move e i o stage).2 := by
  cases stage with
  | start operation => exact startStep_balances hkeys operation
  | consulting target =>
      simp only [move]
      split
      · exact balances_of_eq rfl rfl
      · exact balances_of_eq rfl rfl
  | acquiring progress target errand => exact acquireStep_balances hkeys (hprobe progress target errand rfl) progress
  | running backend errand statement rest results =>
      have hfinished (outcome : Except Failure Reply) : s.Balances (.running backend errand statement rest results)
          (s.happened (.executed backend statement errand.timeout)) (finished backend errand outcome) := by
        apply happened_balances
        intro b
        rw [inHand_finished, toClose_finished]
        simp [Stage.inHand, Stage.toClose, Event.closed?]
      simp only [move, runStep]
      split
      · exact hfinished _
      · exact hfinished _
      · apply happened_balances
        intro b
        simp only [Event.closed?, Option.toList_none, Stage.inHand, Stage.toClose, List.append_nil]
  | opening connection id =>
      simp only [move]
      split
      · exact balances_of_eq (carried_concluded _ _) rfl
      · exact create_balances (s := { s with attempts := s.attempts + 1 }) _ rfl rfl
  | closing backend id outcome =>
      obtain ⟨hinHand, htoClose⟩ := Prod.mk.inj (carried_concluded id outcome)
      apply happened_balances
      intro b
      simp only [move]
      rw [hinHand, htoClose]
      rfl
  | shutting backends =>
      cases backends with
      | nil => exact balances_of_eq rfl rfl
      | cons backend rest =>
          apply happened_balances
          intro b
          simp only [move, Event.closed?, Option.toList_some, Stage.inHand, Stage.toClose, List.nil_append,
            List.count_append, List.count_cons, List.count_nil]
          omega
  | _ => exact balances_of_eq rfl rfl

/-! ## Every pool in one place -/

structure Accounted (s : EngineState) : Prop where
  keys : s.keys.Nodup
  probes : ∀ i progress target errand, s.At i (.acquiring progress target errand) → errand.isProbe = false
  once : ∀ b, (s.inHand ++ s.placed ++ s.retired).count b = (List.range s.backends.length).count b

theorem Leads.isProbe {progress : Acquisition} {target : Target} {errand : Errand}
    (h : s.Leads e stage (.acquiring progress target errand))
    (hstage : ∀ progress target errand, stage = .acquiring progress target errand → errand.isProbe = false) :
    errand.isProbe = false := by
  cases h with
  | asks hasks => exact hasks.isProbe
  | misses => rfl
  | proceeds _ _ => exact hstage _ _ _ rfl

theorem Accounted.congr (h : s.Accounted)
    (heq : (s'.pools, s'.discarded, s'.history, s'.backends, s'.tasks) =
      (s.pools, s.discarded, s.history, s.backends, s.tasks)) : s'.Accounted := by
  simp only [Prod.mk.injEq] at heq
  obtain ⟨hpools, hdiscarded, hhistory, hbackends, htasks⟩ := heq
  constructor
  · rw [EngineState.keys, hpools]
    exact h.keys
  · intro j progress target errand hat
    rw [At, htasks] at hat
    exact h.probes j progress target errand hat
  · intro b
    have honce := h.once b
    simpa only [inHand, placed, retired, closed, hpools, hdiscarded, hhistory, hbackends, htasks] using honce

theorem Accounted.advance (h : s.Accounted) (hat : s.At i stage) : (s.advance e i o stage).Accounted := by
  have hprobe : ∀ progress target errand, stage = .acquiring progress target errand → errand.isProbe = false := by
    rintro progress target errand rfl
    exact h.probes i progress target errand hat
  constructor
  · rw [advance_eq]
    exact keys_nodup_move h.keys
  · intro j progress target errand hat'
    by_cases hj : j = i
    · subst hj
      have hleads := move_leads e s j o stage
      rw [(at_advance (e := e) (o := o) hat).unique hat'] at hleads
      exact hleads.isProbe hprobe
    · exact h.probes j progress target errand ((at_advance_of_ne hj).1 hat')
  · intro b
    -- the task moves its pools from its old stage to its new one, all others keep theirs
    have honce := h.once b
    have hbalance := move_balances (e := e) (i := i) (o := o) h.keys hprobe b
    have hinHand := count_flatMap_set Stage.inHand hat (s.move e i o stage).2 b
    have htoClose := count_flatMap_set Stage.toClose hat (s.move e i o stage).2 b
    rw [advance_eq]
    simp only [inHand, retired, List.count_append] at honce hbalance hinHand htoClose ⊢
    simp only [placed, closed] at honce hbalance ⊢
    omega

theorem Accounted.close (h : s.Accounted) (hmem : b ∈ s.discarded) :
    ({ s with discarded := s.discarded.erase b }.happened (.closed b)).Accounted := by
  constructor
  · exact h.keys
  · exact h.probes
  · intro c
    have honce := h.once c
    have herase : (s.discarded.erase b).count c = _ := List.count_erase
    have hpos : 0 < s.discarded.count b := List.count_pos_iff.2 hmem
    simp only [retired, closed_happened, Event.closed?, Option.toList_some, List.count_append, List.count_cons,
      List.count_nil] at honce ⊢
    simp only [happened, inHand, placed, closed] at honce ⊢
    by_cases hc : c = b
    · subst hc
      simp only [beq_self_eq_true, ↓reduceIte] at herase ⊢
      omega
    · have hbeq : (b == c) = false := beq_false_of_ne (Ne.symm hc)
      simp only [hbeq, Bool.false_eq_true, ↓reduceIte] at herase ⊢
      omega

theorem Accounted.step (h : s.Accounted) (hstep : s.step e turn = some s') : s'.Accounted := by
  cases turn with
  | task i o =>
      obtain ⟨stage, hat, -, -, rfl⟩ := step_task_iff.1 hstep
      have hlater : (s.after 1).Accounted := h.congr rfl
      exact hlater.advance hat
  | close backend =>
      rw [EngineState.step] at hstep
      dsimp only at hstep
      split at hstep
      · rename_i hmem
        obtain rfl := Option.some.inj hstep
        have hlater : (s.after 1).Accounted := h.congr rfl
        exact hlater.close (List.contains_iff_mem.1 hmem)
      · simp at hstep
  | wait nanoseconds =>
      obtain rfl := Option.some.inj hstep
      exact h.congr rfl

theorem accounted_started (settings : Settings) (catalog : Catalog) (operations : List Operation) :
    (started settings catalog operations).Accounted := by
  constructor
  · exact List.nodup_nil
  · intro j progress target errand hat
    obtain ⟨operation, -, h⟩ := at_started.1 hat
    simp at h
  · intro b
    have hnone {f : Stage → List Nat} (hf : ∀ operation, f (.start operation) = []) :
        (operations.map Stage.start).flatMap f = [] := by
      rw [List.flatMap_eq_nil_iff]
      intro stage hmem
      obtain ⟨operation, -, rfl⟩ := List.mem_map.1 hmem
      exact hf operation
    simp only [started, initial, inHand, placed, retired, closed]
    rw [hnone fun _ => rfl, hnone fun _ => rfl]
    rfl

theorem accounted_run (e : Engine) (settings : Settings) (catalog : Catalog) (operations : List Operation)
    (turns : List Turn) : ((started settings catalog operations).run e turns).Accounted :=
  run_induction (accounted_started settings catalog operations) (fun _ _ _ h hstep => h.step hstep) turns

theorem Accounted.perm (h : s.Accounted) :
    (s.inHand ++ s.placed ++ s.retired).Perm (List.range s.backends.length) :=
  List.perm_iff_count.2 h.once

theorem Accounted.not_retired (h : s.Accounted) (hb : b ∈ s.placed) : b ∉ s.retired := by
  have hnodup := h.perm.nodup_iff.2 List.nodup_range
  intro hretired
  exact (List.nodup_append.1 hnodup).2.2 b (List.mem_append_right _ hb) b hretired rfl

/-! ## Tests -/

theorem Leads.isTest (h : s.Leads e stage next) (hstage : stage.isTest = true) : next.isTest = true := by
  cases h with
  | asks hasks => cases hasks <;> simp [Stage.isTest, Operation.isTest] at hstage
  | arrives => simp [Stage.isTest] at hstage
  | _ => first | rfl | exact hstage

theorem pools_move_of_isTest (hstage : stage.isTest = true) : (s.move e i o stage).1.pools = s.pools := by
  rw [pools_move]
  unfold poolsAfter
  split
  · simp [Stage.isTest, Operation.isTest] at hstage
  · simp [Stage.isTest, Operation.isTest] at hstage
  · simp [Stage.isTest, Operation.isTest] at hstage
  · simp [Stage.isTest] at hstage
  · rfl

theorem pools_step_of_isTest {settings : Settings} {catalog : Catalog} {operations : List Operation}
    {turns : List Turn} {operation : Operation} (hoperation : operations[i]? = some operation)
    (htest : operation.isTest = true)
    (hstep : ((started settings catalog operations).run e turns).step e (.task i o) = some s') :
    s'.pools = ((started settings catalog operations).run e turns).pools := by
  obtain ⟨stage, hat, -, -, rfl⟩ := step_task_iff.1 hstep
  have hstage : stage.isTest = true := by
    refine keeps_of_leads (P := fun stage => stage.isTest = true) (fun s stage next h => h.isTest) ?_ turns stage hat
    intro stage hat
    obtain ⟨operation', hoperation', rfl⟩ := at_started.1 hat
    obtain rfl := Option.some.inj (hoperation'.symm.trans hoperation)
    exact htest
  rw [advance_eq]
  exact pools_move_of_isTest hstage

/-- However tasks move, each pool that was made is in one place: in the hands of the task that made it, in the place
of one key, or closed or given to be closed once. Tests leave the places alone. -/
theorem pools_accounted (e : Engine) (settings : Settings) (catalog : Catalog) (operations : List Operation)
    (turns : List Turn) :
    let s := (started settings catalog operations).run e turns
    (s.inHand ++ s.placed ++ s.retired).Perm (List.range s.backends.length) ∧ s.keys.Nodup ∧
      (∀ b ∈ s.placed, b ∉ s.retired) ∧
      ∀ i operation o s', operations[i]? = some operation → operation.isTest = true →
        s.step e (.task i o) = some s' → s'.pools = s.pools := by
  intro s
  have haccounted := accounted_run e settings catalog operations turns
  refine ⟨haccounted.perm, haccounted.keys, fun b hb => haccounted.not_retired hb, ?_⟩
  intro i operation o s' hoperation htest hstep
  exact pools_step_of_isTest hoperation htest hstep

section Bustle

/-- A pool is made and dropped, one is being put in its place, one stands in its place, and one is made for a test. -/
def bustle : List Turn :=
  goes 0 12 ++ goes 1 12 ++ goes 2 1 ++ goes 3 9 ++ goes 4 3

theorem pools_accounted_bustle :
    let operations : List Operation := [.acquire (asked "orders"), .acquire (asked "bills"),
      .evict (.connection "orders"), .acquire (asked "stock"), .test (asked "orders").connection]
    let e : Engine := ⟨.empty, .usual, none, .open⟩
    let s := (started .usual .empty operations).run e bustle
    (s.inHand, s.placed, s.retired) = ([2, 3], [1], [0]) ∧
      (s.inHand ++ s.placed ++ s.retired).Perm (List.range s.backends.length) ∧
      ∃ s', s.step e (.task 4 ⟨none, .error (.connection "refused")⟩) = some s' ∧ s'.pools = s.pools := by
  intro operations e s
  refine ⟨by decide +kernel, (pools_accounted e .usual .empty operations bustle).1, ?_⟩
  have hsome : (s.step e (.task 4 ⟨none, .error (.connection "refused")⟩)).isSome = true := by decide +kernel
  obtain ⟨s', hstep⟩ := Option.isSome_iff_exists.1 hsome
  exact ⟨s', hstep, (pools_accounted e .usual .empty operations bustle).2.2.2 4 _ _ s' rfl rfl hstep⟩

end Bustle

end EngineState

end SemanticLayer
