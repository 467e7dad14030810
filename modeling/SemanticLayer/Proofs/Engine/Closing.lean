import Mathlib.Data.List.Nodup
import SemanticLayer.Proofs.Engine.Places
import SemanticLayer.Wire.Pool
/-!
What becomes of a pool while a request runs statements on it. As long as the pool stands in its place it is open.
Once it was dropped or replaced it is closed by the way, whether or not the request has come to its end.
-/
namespace SemanticLayer

def Stage.pool? : Stage → Option Nat
  | running backend errand _ _ _ => if errand.isProbe then none else some backend
  | _ => none

def Stage.got? : Stage → Option Nat
  | acquiring (.releasing (.ok backend)) _ _ => some backend
  | stage => stage.pool?

theorem Wire.Pool.execute_of_closed {p : Pool} (h : p.closed = true) (server : Server) (sql : String) (limit : Nat) :
    p.execute server sql limit = (p, some (.error p.closedFailure)) := by
  have hget : p.get server = (p, .error p.closedFailure) := if_pos h
  rw [execute, hget]

theorem Wire.Pool.executeAll_of_closed {p : Pool} (h : p.closed = true) (server : Server) (limit : Nat)
    (statements : List String) : p.executeAll server limit statements =
      (p, List.replicate statements.length (some (.error p.closedFailure))) := by
  induction statements with
  | nil => rfl
  | cons sql rest ih =>
      rw [executeAll, execute_of_closed h]
      dsimp only
      rw [ih]
      rfl

namespace EngineState

variable {e : Engine} {s s' : EngineState} {i j b : Nat} {o : Outside} {stage next : Stage} {turn : Turn}
  {target : Target}

/-! ## Pools that requests have got -/

/-- A pool that was made, and has left the hands of the task that made it. -/
def Settled (s : EngineState) (b : Nat) : Prop :=
  b < s.backends.length ∧ b ∉ s.inHand

theorem Accounted.settled_iff (h : s.Accounted) : s.Settled b ↔ b ∈ s.placed ∨ b ∈ s.retired := by
  have hmem : b ∈ s.inHand ∨ b ∈ s.placed ∨ b ∈ s.retired ↔ b < s.backends.length := by
    rw [← List.mem_range, ← h.perm.mem_iff, List.mem_append, List.mem_append, or_assoc]
  have hnodup := h.perm.nodup_iff.2 List.nodup_range
  rw [List.append_assoc, List.nodup_append] at hnodup
  rw [Settled, ← hmem]
  constructor
  · rintro ⟨hb, hhand⟩
    exact hb.resolve_left hhand
  · intro hb
    refine ⟨.inr hb, ?_⟩
    intro hhand
    exact hnodup.2.2 b hhand b (List.mem_append.2 hb) rfl

theorem Accounted.settled_of_placed (h : s.Accounted) (hb : b ∈ s.placed) : s.Settled b :=
  h.settled_iff.2 (.inl hb)

/-- A task takes only the pools in hand that it makes. -/
theorem Leads.inHand (h : s.Leads e stage next) (hb : b ∈ next.inHand)
    (hprobe : ∀ progress target errand, stage = .acquiring progress target errand → errand.isProbe = false) :
    b ∈ stage.inHand ∨ b = s.backends.length := by
  cases h with
  | proceeds errand hproceeds =>
      cases hproceeds with
      | makes => exact .inr (List.mem_singleton.1 hb)
      | writes => exact .inl hb
      | _ => simp [Stage.inHand] at hb
  | opens => exact .inr (List.mem_singleton.1 hb)
  | continues => exact .inl hb
  | probed => exact .inl hb
  | arrives errand statement rest hgets => simp [Stage.inHand, hprobe _ _ _ rfl] at hb
  | _ => simp [Stage.inHand] at hb

theorem Settled.advance (h : s.Settled b) (haccounted : s.Accounted) (hat : s.At i stage) :
    (s.advance e i o stage).Settled b := by
  obtain ⟨hmade, hhand⟩ := h
  constructor
  · rw [advance_eq]
    exact Nat.lt_of_lt_of_le hmade backends_move.length_le
  · rw [advance_eq]
    intro hmem
    obtain ⟨stage', hstage', hb⟩ := List.mem_flatMap.1 hmem
    have hbefore {stage : Stage} (hstage : stage ∈ s.tasks) : b ∉ stage.inHand := by
      intro hb
      exact hhand (List.mem_flatMap.2 ⟨stage, hstage, hb⟩)
    rcases List.mem_or_eq_of_mem_set hstage' with hold | rfl
    · exact hbefore hold hb
    · have hprobe : ∀ progress target errand, stage = .acquiring progress target errand → errand.isProbe = false := by
        rintro progress target errand rfl
        exact haccounted.probes i progress target errand hat
      rcases (move_leads e s i o stage).inHand hb hprobe with hstage | hlength
      · exact hbefore (List.mem_of_getElem? hat) hstage
      · omega

theorem mem_placed_of_lookup {key : PoolKey} {entry : PoolEntry} (h : s.pool? key = some entry) :
    entry.backend ∈ s.placed :=
  List.mem_map.2 ⟨(key, entry), mem_of_lookup h, rfl⟩

theorem mem_placed_of_current (h : s.current? target = some b) : b ∈ s.placed := by
  obtain ⟨entry, hentry, -, rfl⟩ := current?_eq_some_iff.1 h
  exact mem_placed_of_lookup hentry

/-- A request is given a pool that stands in its place, and keeps it. -/
theorem Leads.got (h : s.Leads e stage next) (hb : next.got? = some b) :
    stage.got? = some b ∨ b ∈ s.placed ∨ ∃ target errand, stage = .acquiring (.inserting b) target errand := by
  cases h with
  | proceeds errand hproceeds =>
      cases hproceeds with
      | finds hcurrent =>
          obtain rfl := Option.some.inj hb
          exact .inr (.inl (mem_placed_of_current hcurrent))
      | places backend =>
          obtain rfl := Option.some.inj hb
          exact .inr (.inr ⟨_, _, rfl⟩)
      | _ => simp [Stage.got?, Stage.pool?] at hb
  | arrives errand statement rest hgets =>
      obtain ⟨-, rfl⟩ := by simpa [Stage.got?, Stage.pool?] using hb
      cases hgets with
      | found hcurrent => exact .inr (.inl (mem_placed_of_current hcurrent))
      | made => exact .inl rfl
  | continues => exact .inl hb
  | opens => simp [Stage.got?, Stage.pool?, Errand.isProbe] at hb
  | _ => simp [Stage.got?, Stage.pool?] at hb

structure Lent (s : EngineState) : Prop where
  accounted : s.Accounted
  settled : ∀ i stage b, s.At i stage → stage.got? = some b → s.Settled b

theorem Lent.advance (h : s.Lent) (hat : s.At i stage) : (s.advance e i o stage).Lent := by
  have haccounted : (s.advance e i o stage).Accounted := h.accounted.advance hat
  refine ⟨haccounted, ?_⟩
  intro j stage' b hat' hb
  by_cases hj : j = i
  · subst hj
    have hnext := (at_advance (e := e) (o := o) hat).unique hat'
    have hleads := move_leads e s j o stage
    rw [hnext] at hleads
    rcases hleads.got hb with hgot | hplaced | ⟨target, errand, rfl⟩
    · exact (h.settled j stage b hat hgot).advance h.accounted hat
    · exact (h.accounted.settled_of_placed hplaced).advance h.accounted hat
    · apply haccounted.settled_of_placed
      exact List.mem_cons_self
  · exact (h.settled j stage' b ((at_advance_of_ne hj).1 hat') hb).advance h.accounted hat

theorem Lent.step (h : s.Lent) (hstep : s.step e turn = some s') : s'.Lent := by
  have haccounted := h.accounted.step hstep
  cases turn with
  | task i o =>
      obtain ⟨stage, hat, -, -, rfl⟩ := step_task_iff.1 hstep
      have hlater : (s.after 1).Lent := ⟨h.accounted.congr rfl, h.settled⟩
      exact hlater.advance hat
  | _ =>
      obtain ⟨hleaves, hpools, hbackends⟩ := step_leaves (by simp) hstep
      refine ⟨haccounted, ?_⟩
      intro j stage b hat hb
      rw [At, hleaves.tasks] at hat
      have hsettled := h.settled j stage b hat hb
      rwa [Settled, inHand, hleaves.tasks, hbackends]

theorem lent_run (e : Engine) (settings : Settings) (catalog : Catalog) (operations : List Operation)
    (turns : List Turn) : ((started settings catalog operations).run e turns).Lent := by
  refine run_induction ⟨accounted_started settings catalog operations, ?_⟩
    (fun _ _ _ h hstep => h.step hstep) turns
  intro i stage b hat hb
  obtain ⟨operation, -, rfl⟩ := at_started.1 hat
  simp [Stage.got?, Stage.pool?] at hb

/-! ## Out of its place -/

def displaced (s : EngineState) : Stage → List Nat
  | .start (.evict key) => ((s.pool? key).map PoolEntry.backend).toList
  | .start (.changed id) => ((s.pool? (.connection id)).map PoolEntry.backend).toList
  | .start .shutdown => s.placed
  | .acquiring (.inserting _) target _ => ((s.pool? target.key).map PoolEntry.backend).toList
  | _ => []

theorem mem_placed_evict_iff (h : s.Accounted) (hb : b ∈ s.placed) (key : PoolKey) :
    b ∉ (s.evict key).placed ↔ b ∈ ((s.pool? key).map PoolEntry.backend).toList := by
  have hcount := count_placed_filter h.keys key b
  have hone : s.placed.count b = 1 := by
    have honce := h.once b
    have hpos : 0 < s.placed.count b := List.count_pos_iff.2 hb
    have hle : (List.range s.backends.length).count b ≤ 1 := List.nodup_iff_count_le_one.1 List.nodup_range b
    simp only [List.count_append] at honce
    omega
  rw [← List.count_eq_zero, ← List.count_pos_iff]
  change _ + List.count b ((s.pool? key).map PoolEntry.backend).toList = s.placed.count b at hcount
  change List.count b ((s.pools.filter fun p => p.1 ≠ key).map fun p => p.2.backend) = 0 ↔ _
  omega

theorem Accounted.ne_of_inserting (h : s.Accounted) {backend : Nat} {errand : Errand}
    (hat : s.At i (.acquiring (.inserting backend) target errand)) (hb : b ∈ s.placed) : b ≠ backend := by
  rintro rfl
  have hhand : b ∈ s.inHand := List.mem_flatMap.2 ⟨_, List.mem_of_getElem? hat, List.mem_singleton_self b⟩
  exact (h.settled_of_placed hb).2 hhand

theorem placed_move_iff (h : s.Accounted) (hat : s.At i stage) (hb : b ∈ s.placed) :
    b ∉ (s.move e i o stage).1.placed ↔ b ∈ s.displaced stage := by
  rw [placed, pools_move]
  unfold poolsAfter
  split
  · exact mem_placed_evict_iff h hb _
  · exact mem_placed_evict_iff h hb _
  · exact iff_of_true List.not_mem_nil hb
  · rename_i backend target errand
    have hne := h.ne_of_inserting hat hb
    refine Iff.trans ?_ (mem_placed_evict_iff h hb target.key)
    exact not_congr (List.mem_cons.trans (or_iff_right hne))
  · rename_i hevict hchanged hshutdown hinserting
    refine iff_of_false (not_not_intro hb) ?_
    unfold displaced
    split
    · exact absurd rfl (hevict _)
    · exact absurd rfl (hchanged _)
    · exact absurd rfl hshutdown
    · exact absurd rfl (hinserting _ _ _)
    · exact List.not_mem_nil

theorem placed_step_iff (h : s.Accounted) (hstep : s.step e turn = some s') (hb : b ∈ s.placed) :
    b ∉ s'.placed ↔ ∃ j o stage, turn = .task j o ∧ s.At j stage ∧ b ∈ s.displaced stage := by
  cases turn with
  | task j o =>
      obtain ⟨stage, hat, -, -, rfl⟩ := step_task_iff.1 hstep
      have hlater : (s.after 1).Accounted := h.congr rfl
      have hmove := placed_move_iff (e := e) (o := o) hlater hat hb
      rw [advance_eq]
      refine hmove.trans ?_
      constructor
      · intro hdisplaced
        refine ⟨j, o, stage, rfl, hat, ?_⟩
        revert hdisplaced
        cases stage <;> exact id
      · rintro ⟨j', o', stage', heq, hat', hdisplaced⟩
        obtain ⟨rfl, rfl⟩ := Turn.task.inj heq
        obtain rfl := hat.unique hat'
        revert hdisplaced
        cases stage <;> exact id
  | _ =>
      have hpools := (step_leaves (by simp) hstep).2.1
      rw [placed, hpools]
      refine iff_of_false (not_not_intro hb) ?_
      simp

/-! ## Closing -/

/-- A task that closes pools one after another comes to each of them, and needs nothing that others hold. -/
theorem run_shutting {backends : List Nat} (hat : s.At j (.shutting backends)) :
    (s.run e (goes j backends.length)).At j (.shutting []) ∧
      (s.run e (goes j backends.length)).closed = s.closed ++ backends ∧
      (s.run e (goes j backends.length)).poolLock = s.poolLock := by
  induction backends generalizing s with
  | nil => exact ⟨hat, (List.append_nil _).symm, rfl⟩
  | cons backend rest ih =>
      obtain ⟨hend, hclosed, hlock⟩ := ih (at_advance_after (e := e) (o := ⟨none, .ok .empty⟩) hat)
      rw [List.length_cons, run_goes hat rfl rfl]
      refine ⟨hend, hclosed.trans ?_, hlock.trans ?_⟩
      · rw [advance_eq]
        simp [move, closed, happened, after, Event.closed?]
      · rw [advance_eq]
        rfl

/-- A pool that was put out of its place is closed, or can be while nobody but those who close it moves. -/
theorem exists_run_closing (hb : b ∈ s.retired) (hat : s.At i stage) (hstage : stage.toClose = []) :
    ∃ turns : List Turn, (∀ turn ∈ turns, ∀ o, turn ≠ .task i o) ∧ b ∈ (s.run e turns).closed := by
  rw [retired, List.mem_append, List.mem_append] at hb
  -- closed already, closed by the one who was given it, or closed by a task that closes all
  rcases hb with (hclosed | hdiscarded) | hshutting
  · exact ⟨[], by simp, hclosed⟩
  · refine ⟨[.close b], by simp, ?_⟩
    have hstep : s.step e (.close b) = some _ := if_pos (List.contains_iff_mem.2 hdiscarded)
    rw [run_of_step hstep]
    simp [run, closed, happened, Event.closed?]
  · obtain ⟨stage', hmem, hb⟩ := List.mem_flatMap.1 hshutting
    obtain ⟨j, hj⟩ := List.mem_iff_getElem?.1 hmem
    have hshut : ∃ backends, stage' = .shutting backends ∧ b ∈ backends := by
      cases stage' with
      | shutting backends => exact ⟨backends, rfl, hb⟩
      | _ => simp [Stage.toClose] at hb
    obtain ⟨backends, rfl, hbackends⟩ := hshut
    refine ⟨goes j backends.length, ?_, ?_⟩
    · intro turn hturn o heq
      obtain ⟨rfl, -⟩ := Turn.task.inj ((List.eq_of_mem_replicate hturn).symm.trans heq)
      rw [At.unique (s := s) hat hj] at hstage
      change backends = [] at hstage
      rw [hstage] at hbackends
      exact absurd hbackends List.not_mem_nil
    · rw [(run_shutting hj).2.1]
      exact List.mem_append_right _ hbackends

theorem toClose_of_pool? (h : stage.pool? = some b) : stage.toClose = [] := by
  cases stage with
  | running => rfl
  | _ => simp [Stage.pool?] at h

/-- The pool of a request is open as long as it stands in its place, and leaves it only when it is dropped or replaced.
From then on it can be closed before the request goes on, and a closed pool gives no connection to a statement. -/
theorem request_pool_closing (e : Engine) (settings : Settings) (catalog : Catalog) (operations : List Operation)
    (turns : List Turn) (i : Nat) (stage : Stage) (b : Nat) :
    let s := (started settings catalog operations).run e turns
    s.At i stage → stage.pool? = some b →
      (b ∈ s.placed → b ∉ s.closed ∧ ∀ turn s', s.step e turn = some s' → (b ∉ s'.placed ↔
        ∃ j o stage', turn = .task j o ∧ s.At j stage' ∧ b ∈ s.displaced stage')) ∧
      (b ∉ s.placed → ∃ more : List Turn, (∀ turn ∈ more, ∀ o, turn ≠ .task i o) ∧ (s.run e more).At i stage ∧
        b ∈ (s.run e more).closed) ∧
      ∀ (p : Wire.Pool) server limit statements, (p.close.executeAll server limit statements).2 =
        List.replicate statements.length (some (.error p.closedFailure)) := by
  intro s hat hpool
  have hlent : s.Lent := lent_run e settings catalog operations turns
  have hgot : stage.got? = some b := by
    cases stage with
    | running => exact hpool
    | _ => simp [Stage.pool?] at hpool
  refine ⟨fun hplaced => ⟨?_, ?_⟩, fun hplaced => ?_, fun p server limit statements => ?_⟩
  · intro hclosed
    apply hlent.accounted.not_retired hplaced
    exact List.mem_append_left _ (List.mem_append_left _ hclosed)
  · intro turn s' hstep
    exact placed_step_iff hlent.accounted hstep hplaced
  · have hsettled := hlent.settled i stage b hat hgot
    have hretired := (hlent.accounted.settled_iff.1 hsettled).resolve_left hplaced
    obtain ⟨more, hmore, hclosed⟩ := exists_run_closing (e := e) hretired hat (toClose_of_pool? hpool)
    exact ⟨more, hmore, (at_run_of_others hmore).2 hat, hclosed⟩
  · rw [Wire.Pool.executeAll_of_closed rfl]
    rfl

section Eviction

/-- A database is to be described, and the pool on which this is done is dropped in the meantime. -/
def dropping : List Operation :=
  [.describe (some "orders") true, .evict (.connection "orders")]

/-- The task has got its pool and is about to run its first statement when the other one drops it. -/
def dropped : EngineState :=
  (started .usual (.ofConnections [(asked "orders").connection]) dropping).run ⟨.empty, .usual, none, .open⟩
    (goes 0 12 ++ goes 1 1)

/-- The pool is closed while the task is to run its statements on it, and the first one comes too late. -/
theorem dropped_closed :
    let s := dropped.run ⟨.empty, .usual, none, .open⟩ [.close 0]
    (∃ stage, s.At 0 stage ∧ stage.pool? = some 0) ∧ s.closed = [0] ∧
      ∃ sql, (s.run ⟨.empty, .usual, none, .open⟩ (goes 0 1)).history =
        [.created 0, .closed 0, .executed 0 sql 30000] := by
  intro s
  have hat : ∃ stage, s.At 0 stage ∧ stage.pool? = some 0 := ⟨_, by unfold At; rfl, rfl⟩
  exact ⟨hat, by decide +kernel, _, rfl⟩

theorem request_pool_closing_dropped : ∃ more : List Turn, (∀ turn ∈ more, ∀ o, turn ≠ .task 0 o) ∧
    0 ∈ (dropped.run ⟨.empty, .usual, none, .open⟩ more).closed := by
  obtain ⟨stage, hat, hpool⟩ : ∃ stage, dropped.At 0 stage ∧ stage.pool? = some 0 := ⟨_, by unfold At; rfl, rfl⟩
  have hplaced : 0 ∉ dropped.placed := by decide +kernel
  obtain ⟨more, hmore, -, hclosed⟩ := (request_pool_closing _ _ _ _ _ 0 stage 0 hat hpool).2.1 hplaced
  exact ⟨more, hmore, hclosed⟩

end Eviction

end EngineState

end SemanticLayer
