import SemanticLayer.Proofs.Engine.Closing
import SemanticLayer.Proofs.Schema.History
/-!
What a removal of pools is good for. It empties places, and a place is filled again only by a task that is after its
pool then, or sets out later. A task that is after the pool can fill the place when the removal is long over, since
nothing tells it that the pool it makes is not wanted any more.
-/
namespace SemanticLayer

def Operation.drops (key : PoolKey) : Operation → Bool
  | changed id => key = .connection id
  | shutdown => true
  | _ => false

/-- Whether a task is after the pool of a key that it is to be given, or to make. -/
def Stage.seeks (key : PoolKey) : Stage → Bool
  | consulting target => target.key = key
  | acquiring (.releasing _) _ _ => false
  | acquiring _ target _ => target.key = key
  | _ => false

def Stage.inserts? (key : PoolKey) : Stage → Option Nat
  | acquiring (.inserting backend) target _ => if target.key = key then some backend else none
  | _ => none

/-- What a task must not find in the hands of others on its way to the pool of a key. -/
def Resource.isFor (key : PoolKey) : Resource → Bool
  | turn other => other = key
  | _ => true

/-- How many steps it takes a task to fill the place of its key if nobody is in the way; none if it is past that. -/
def Acquisition.distance : Acquisition → Nat
  | waiting false => 10
  | looking false => 9
  | enrolling => 8
  | enrolled => 7
  | queueing => 6
  | waiting true => 5
  | looking true => 4
  | creating => 3
  | placing _ => 2
  | inserting _ => 1
  | releasing _ => 0

theorem Acquisition.distance_pos_iff {progress : Acquisition} :
    0 < progress.distance ↔ ∀ result, progress ≠ .releasing result := by
  cases progress with
  | waiting inTurn => cases inTurn <;> simp [distance]
  | looking inTurn => cases inTurn <;> simp [distance]
  | _ => simp [distance]

theorem Acquisition.distance_eq_one_iff {progress : Acquisition} :
    progress.distance = 1 ↔ ∃ backend, progress = .inserting backend := by
  cases progress with
  | waiting inTurn => cases inTurn <;> simp [distance]
  | looking inTurn => cases inTurn <;> simp [distance]
  | _ => simp [distance]

namespace EngineState

variable {e : Engine} {s s' : EngineState} {i j m u b : Nat} {o : Outside} {stage next : Stage} {turn : Turn}
  {turns : List Turn} {key : PoolKey} {entry : PoolEntry} {r : Resource} {target : Target} {errand : Errand}
  {progress : Acquisition}

/-! ## Who fills a place -/

/-- The tasks that fill the place of a key in a run, and the pools, in order. -/
def placings (e : Engine) (key : PoolKey) (s : EngineState) (turns : List Turn) : List (Nat × Nat) :=
  trace e (fun _ i _ stage => (stage.inserts? key).map fun backend => (i, backend)) s turns

theorem inserts?_eq_some_iff : stage.inserts? key = some b ↔
    ∃ target errand, stage = .acquiring (.inserting b) target errand ∧ target.key = key := by
  constructor
  · intro h
    unfold Stage.inserts? at h
    split at h
    · obtain ⟨hkey, hb⟩ := Option.ite_none_right_eq_some.1 h
      obtain rfl := Option.some.inj hb
      exact ⟨_, _, rfl, hkey⟩
    · simp at h
  · rintro ⟨target, errand, rfl, hkey⟩
    exact if_pos hkey

theorem mem_placings_cons (hat : s.At i stage) (hstep : s.step e (.task i o) = some s')
    (hinserts : stage.inserts? key = some b) : (i, b) ∈ placings e key s (.task i o :: turns) := by
  refine (mem_trace_cons hstep).2 (.inl (notice?_eq_some_iff.2 ⟨i, o, stage, rfl, hat, ?_⟩))
  rw [hinserts]
  rfl

theorem exists_of_mem_placings (h : (i, b) ∈ placings e key s turns) : ∃ before after o stage,
    turns = before ++ .task i o :: after ∧ (s.run e before).At i stage ∧ stage.inserts? key = some b := by
  obtain ⟨before, j, o, after, stage, rfl, hat, hinserts⟩ := exists_of_mem_trace h
  obtain ⟨backend, hbackend, heq⟩ := Option.map_eq_some_iff.1 hinserts
  obtain ⟨rfl, rfl⟩ := Prod.mk.inj heq
  exact ⟨before, after, o, stage, rfl, hat, hbackend⟩

theorem mem_pools_step (hstep : s.step e turn = some s') (hmem : (key, entry) ∈ s'.pools) :
    (key, entry) ∈ s.pools ∨
      ∃ i o stage, turn = .task i o ∧ s.At i stage ∧ stage.inserts? key = some entry.backend := by
  cases turn with
  | task i o =>
      obtain ⟨stage, hat, -, -, rfl⟩ := step_task_iff.1 hstep
      rw [advance_eq] at hmem
      rcases mem_pools_move hmem with hbefore | ⟨target, errand, rfl, hkey, -⟩
      · exact .inl hbefore
      · exact .inr ⟨i, o, _, rfl, hat, inserts?_eq_some_iff.2 ⟨target, errand, rfl, hkey⟩⟩
  | _ =>
      rw [(step_leaves (by simp) hstep).2.1] at hmem
      exact .inl hmem

theorem mem_pools_run : (key, entry) ∈ (s.run e turns).pools →
    (key, entry) ∈ s.pools ∨ ∃ i, (i, entry.backend) ∈ placings e key s turns := by
  refine run_trace_induction (P := fun s' done => (key, entry) ∈ s'.pools →
    (key, entry) ∈ s.pools ∨ ∃ i, (i, entry.backend) ∈ done) [] .inl ?_ turns
  intro s₁ done turn s₂ hdone hstep hmem
  rcases mem_pools_step hstep hmem with hbefore | ⟨i, o, stage, rfl, hat, hinserts⟩
  · refine (hdone hbefore).imp_right ?_
    rintro ⟨i, hi⟩
    exact ⟨i, List.mem_append_left _ hi⟩
  · refine .inr ⟨i, List.mem_append_right _ (Option.mem_toList.2 (notice?_eq_some_iff.2 ?_))⟩
    refine ⟨i, o, stage, rfl, hat, ?_⟩
    rw [hinserts]
    rfl

/-! ## Being after a pool -/

theorem seeks_acquiring : (Stage.acquiring progress target errand).seeks key = true ↔
    target.key = key ∧ 0 < progress.distance := by
  rw [Acquisition.distance_pos_iff]
  cases progress <;> simp [Stage.seeks]

theorem seeks_of_inserts? (h : stage.inserts? key = some b) : stage.seeks key = true := by
  obtain ⟨target, errand, rfl, hkey⟩ := inserts?_eq_some_iff.1 h
  exact seeks_acquiring.2 ⟨hkey, Nat.one_pos⟩

/-- A task is after a pool from the moment at which it has its target until it has the pool. -/
theorem Leads.seeks (h : s.Leads e stage next) (hnext : next.seeks key = true) :
    stage.seeks key = true ∨ ∃ operation, stage = .start operation := by
  cases h with
  | asks => exact .inr ⟨_, rfl⟩
  | consults => exact .inr ⟨_, rfl⟩
  | misses => exact .inl hnext
  | proceeds errand hproceeds =>
      obtain ⟨hkey, -⟩ := seeks_acquiring.1 hnext
      refine .inl (seeks_acquiring.2 ⟨hkey, Acquisition.distance_pos_iff.2 ?_⟩)
      rintro result rfl
      cases hproceeds
  | _ => simp [Stage.seeks] at hnext

theorem seeks_of_run (hat : (s.run e turns).At i stage) (hseeks : stage.seeks key = true)
    (hstart : ∀ operation, ¬s.At i (.start operation)) : ∃ before, s.At i before ∧ before.seeks key = true := by
  have hkeeps : ∀ stage, (s.run e turns).At i stage → (∀ operation, stage ≠ .start operation) ∧
      (stage.seeks key = true → ∃ before, s.At i before ∧ before.seeks key = true) := by
    refine keeps_of_leads ?_ ?_ turns
    · rintro s' stage next hleads ⟨hne, hbefore⟩
      refine ⟨fun operation => hleads.ne_start, fun hnext => ?_⟩
      rcases hleads.seeks hnext with hstage | ⟨operation, hstage⟩
      · exact hbefore hstage
      · exact absurd hstage (hne operation)
    · intro stage hat
      refine ⟨?_, fun hstage => ⟨stage, hat, hstage⟩⟩
      rintro operation rfl
      exact hstart operation hat
  exact (hkeeps stage hat).2 hseeks

theorem seeks_of_mem_placings (h : (i, b) ∈ placings e key s turns)
    (hstart : ∀ operation, ¬s.At i (.start operation)) : ∃ stage, s.At i stage ∧ stage.seeks key = true := by
  obtain ⟨before, after, o, stage, rfl, hat, hinserts⟩ := exists_of_mem_placings h
  exact seeks_of_run hat (seeks_of_inserts? hinserts) hstart

/-! ## Filling a place -/

/-- Nothing is in the place of a key, and nobody but one task has in hands what is needed on the way to fill it. -/
structure Alone (s : EngineState) (key : PoolKey) (u : Nat) : Prop where
  orderly : s.Orderly
  others : ∀ r j, r.isFor key = true → s.Holds r j → j = u
  pools : ∀ entry, (key, entry) ∉ s.pools

theorem holds_of_mem_holders (h : j ∈ s.holders (.acquiring progress target errand)) :
    ∃ r, r.isFor target.key = true ∧ s.Holds r j ∧ r ∉ progress.held target.key := by
  cases progress with
  | waiting inTurn => exact ⟨.writing, rfl, Option.mem_toList.1 h, by simp [Acquisition.held]⟩
  | enrolling => exact ⟨.table, rfl, Option.mem_toList.1 h, List.not_mem_nil⟩
  | queueing => exact ⟨.turn target.key, decide_eq_true rfl, Option.mem_toList.1 h, List.not_mem_nil⟩
  | placing backend =>
      rcases SharedLock.mem_holders.1 h with hwriter | hreader
      · exact ⟨.writing, rfl, hwriter, by simp [Acquisition.held]⟩
      · exact ⟨.reading, rfl, hreader, by simp [Acquisition.held]⟩
  | _ => simp [holders] at h

theorem Alone.holders_eq_nil (h : s.Alone key u) (hat : s.At u (.acquiring progress target errand))
    (hkey : target.key = key) : s.holders (.acquiring progress target errand) = [] := by
  rw [List.eq_nil_iff_forall_not_mem]
  intro j hj
  obtain ⟨r, hr, hholds, hheld⟩ := holds_of_mem_holders hj
  rw [hkey] at hr
  obtain rfl := h.others r j hr hholds
  exact hheld ((h.orderly.own hat r).1 hholds)

theorem holds_advance : (s.advance e i o stage).Holds r j ↔ (s.move e i o stage).1.Holds r j := by
  cases r <;> rfl

theorem Alone.advance (h : s.Alone key u) (hat : s.At u stage) (hready : s.holders stage = [])
    (hpools : (s.advance e u o stage).pools = s.pools) : (s.advance e u o stage).Alone key u := by
  refine ⟨h.orderly.advance hat hready, ?_, ?_⟩
  · intro r j hr hholds
    by_contra hne
    rw [holds_advance, (move_passes hready (h.orderly.own hat)).others r j hne] at hholds
    exact hne (h.others r j hr hholds)
  · rw [hpools]
    exact h.pools

theorem Alone.after (h : s.Alone key u) (nanoseconds : Nat) : (s.after nanoseconds).Alone key u := by
  refine ⟨h.orderly.of_leaves (leaves_of_eq rfl), ?_, h.pools⟩
  intro r j hr hholds
  apply h.others r j hr
  cases r <;> exact hholds

theorem Alone.current?_eq_none (h : s.Alone key u) (hkey : target.key = key) : s.current? target = none := by
  rw [Option.eq_none_iff_forall_ne_some]
  intro b hb
  obtain ⟨entry, hentry, -, -⟩ := current?_eq_some_iff.1 hb
  rw [hkey] at hentry
  exact h.pools entry (mem_of_lookup hentry)

theorem Alone.approaches (h : s.Alone key u) (hat : s.At u (.acquiring progress target errand))
    (hkey : target.key = key) (hprogress : 1 < progress.distance) :
    ∃ s' progress', s.step e (.task u ⟨none, .ok .empty⟩) = some s' ∧ s'.Alone key u ∧
      s'.At u (.acquiring progress' target errand) ∧ progress'.distance + 1 = progress.distance := by
  have hready := h.holders_eq_nil hat hkey
  have hlater : (s.after 1).Alone key u := h.after 1
  have hnone : (s.after 1).current? target = none := hlater.current?_eq_none hkey
  have hready' : (s.after 1).holders (.acquiring progress target errand) = [] := (holders_after s 1 _).trans hready
  have hnext := at_advance_after (e := e) (o := ⟨none, .ok .empty⟩) hat
  have hpools : (s.after 1).poolsAfter (.acquiring progress target errand) = s.pools := by
    cases progress with
    | inserting backend => simp [Acquisition.distance] at hprogress
    | _ => rfl
  have goes (progress' : Acquisition) (hmove : ((s.after 1).move e u ⟨none, .ok .empty⟩
      (.acquiring progress target errand)).2 = .acquiring progress' target errand)
      (hdistance : progress'.distance + 1 = progress.distance) :
      ∃ s' progress', s.step e (.task u ⟨none, .ok .empty⟩) = some s' ∧ s'.Alone key u ∧
        s'.At u (.acquiring progress' target errand) ∧ progress'.distance + 1 = progress.distance := by
    have hsame : ((s.after 1).advance e u ⟨none, .ok .empty⟩ (.acquiring progress target errand)).pools = s.pools := by
      rw [advance_eq]
      exact pools_move.trans hpools
    have halone := hlater.advance hat hready' hsame
    exact ⟨_, progress', step_eq hat rfl hready, halone, hmove ▸ hnext, hdistance⟩
  cases progress with
  | waiting inTurn => cases inTurn <;> exact goes _ rfl rfl
  | looking inTurn =>
      cases inTurn with
      | false => exact goes .enrolling (by simp only [move, acquireStep, hnone]) rfl
      | true => exact goes .creating (by simp only [move, acquireStep, hnone]) rfl
  | enrolling => exact goes _ rfl rfl
  | enrolled => exact goes _ rfl rfl
  | queueing => exact goes _ rfl rfl
  | creating => exact goes _ rfl rfl
  | placing backend => exact goes _ rfl rfl
  | _ => simp [Acquisition.distance] at hprogress

theorem Alone.exists_run (h : s.Alone key u) (hat : s.At u (.acquiring progress target errand))
    (hkey : target.key = key) (hprogress : 0 < progress.distance) :
    ∃ turns entry, (key, entry) ∈ (s.run e turns).pools ∧ (u, entry.backend) ∈ placings e key s turns := by
  induction hdistance : progress.distance generalizing s progress with
  | zero => omega
  | succ n ih =>
      by_cases hlast : n = 0
      · subst hlast
        obtain ⟨backend, rfl⟩ := Acquisition.distance_eq_one_iff.1 hdistance
        have hstep := step_eq (e := e) (o := ⟨none, .ok .empty⟩) hat rfl rfl
        have hinserts : Stage.inserts? key (.acquiring (.inserting backend) target errand) = some backend := if_pos hkey
        refine ⟨[.task u ⟨none, .ok .empty⟩], ⟨target.connection, backend⟩, ?_, ?_⟩
        · rw [run_of_step hstep, advance_eq, ← hkey]
          exact List.mem_cons_self
        · exact mem_placings_cons hat hstep hinserts
      · obtain ⟨s', progress', hstep, halone, hat', hnearer⟩ := h.approaches (e := e) hat hkey (by omega)
        obtain ⟨turns, entry, hmem, hplacing⟩ := ih halone hat' (by omega) (by omega)
        refine ⟨.task u ⟨none, .ok .empty⟩ :: turns, entry, ?_, ?_⟩
        · rw [run_of_step hstep]
          exact hmem
        · exact (mem_trace_cons hstep).2 (.inr hplacing)

theorem Alone.exists_run_of_seeks (h : s.Alone key u) (hat : s.At u stage) (hseeks : stage.seeks key = true)
    (hcache : ∀ now, s.cache.get? now key = none) :
    ∃ turns entry, (key, entry) ∈ (s.run e turns).pools ∧ (u, entry.backend) ∈ placings e key s turns := by
  cases stage with
  | acquiring progress target errand =>
      obtain ⟨hkey, hprogress⟩ := seeks_acquiring.1 hseeks
      exact h.exists_run hat hkey hprogress
  | consulting target =>
      have hkey : target.key = key := of_decide_eq_true hseeks
      have hget : (s.after 1).cache.get? (s.after 1).clock target.key = none := by
        rw [hkey]
        exact hcache _
      have hstep := step_eq (e := e) (o := ⟨none, .ok .empty⟩) hat rfl rfl
      have hnext := at_advance_after (e := e) (o := ⟨none, .ok .empty⟩) hat
      simp only [move, hget] at hnext
      have halone : ((s.after 1).advance e u ⟨none, .ok .empty⟩ (.consulting target)).Alone key u := by
        refine (h.after 1).advance hat rfl ?_
        rw [advance_eq]
        exact pools_move
      obtain ⟨turns, entry, hmem, hplacing⟩ := halone.exists_run (e := e) hnext hkey (by simp [Acquisition.distance])
      refine ⟨.task u ⟨none, .ok .empty⟩ :: turns, entry, ?_, ?_⟩
      · rw [run_of_step hstep]
        exact hmem
      · exact (mem_trace_cons hstep).2 (.inr hplacing)
  | _ => simp [Stage.seeks] at hseeks

/-! ## Getting out of the way -/

/-- Whether a task gives up what it has in hands with its next step, and takes nothing else. -/
def Yields (s : EngineState) (j : Nat) : Prop :=
  ∃ progress target errand, s.At j (.acquiring progress target errand) ∧
    (progress = .enrolled ∨ ∃ result, progress = .releasing result)

theorem Orderly.yield (h : s.Orderly) (hm : s.Yields m) : ∃ s', s.step e (.task m ⟨none, .ok .empty⟩) = some s' ∧
    s'.Orderly ∧ (∀ r j, s'.Holds r j ↔ s.Holds r j ∧ j ≠ m) ∧ s'.pools = s.pools ∧ s'.cache = s.cache := by
  obtain ⟨progress, target, errand, hat, hprogress⟩ := hm
  have hlater : (s.after 1).Orderly := h.of_leaves (leaves_of_eq rfl)
  have hready : s.holders (.acquiring progress target errand) = [] := by
    rcases hprogress with rfl | ⟨result, rfl⟩ <;> rfl
  have hready' : (s.after 1).holders (.acquiring progress target errand) = [] := (holders_after s 1 _).trans hready
  refine ⟨_, step_eq hat rfl hready, hlater.advance hat hready', ?_, ?_⟩
  · intro r j
    have hsame : (s.after 1).Holds r j ↔ s.Holds r j := by cases r <;> rfl
    have hpasses := move_passes (e := e) (o := ⟨none, .ok .empty⟩) hready' (hlater.own hat)
    rw [holds_advance]
    by_cases hj : j = m
    · subst hj
      have hnone : ((s.after 1).move e j ⟨none, .ok .empty⟩ (.acquiring progress target errand)).2.held = [] := by
        rcases hprogress with rfl | ⟨result, rfl⟩
        · rfl
        · cases result with
          | ok backend => exact held_arrived _ _ _
          | error f => rfl
      rw [hpasses.own, hnone]
      simp
    · rw [hpasses.others r j hj, hsame]
      simp [hj]
  · rw [advance_eq]
    rcases hprogress with rfl | ⟨result, rfl⟩
    · exact ⟨rfl, rfl⟩
    · cases result <;> exact ⟨rfl, rfl⟩

/-- Whoever has what one task at a time can have, and yields, can be passed. -/
theorem Orderly.exists_run_yield (h : s.Orderly) (r : Resource) (hone : ∀ j j', s.Holds r j → s.Holds r j' → j = j')
    (hyields : ∀ j, s.Holds r j → j = u ∨ s.Yields j) :
    ∃ turns, (∀ turn ∈ turns, ∀ o, turn ≠ .task u o) ∧ (s.run e turns).Orderly ∧
      (∀ j, (s.run e turns).Holds r j → j = u) ∧
      (∀ r j, (s.run e turns).Holds r j → s.Holds r j ∧ ∀ stage, s.At j stage → (s.run e turns).At j stage) ∧
      (s.run e turns).pools = s.pools ∧ (s.run e turns).cache = s.cache := by
  by_cases hnone : ∀ j, s.Holds r j → j = u
  · exact ⟨[], by simp, h, hnone, fun r j hholds => ⟨hholds, fun stage hat => hat⟩, rfl, rfl⟩
  · push Not at hnone
    obtain ⟨m, hm, hne⟩ := hnone
    obtain ⟨s', hstep, horderly, hholds, hpools, hcache⟩ :=
      h.yield (e := e) ((hyields m hm).resolve_left hne)
    have hothers {j : Nat} (hj : j ≠ m) : ∀ turn ∈ [Turn.task m ⟨none, .ok .empty⟩], ∀ o, turn ≠ .task j o := by
      simpa using fun h => hj h.symm
    have hrun : s.run e [.task m ⟨none, .ok .empty⟩] = s' := run_of_step hstep []
    refine ⟨[.task m ⟨none, .ok .empty⟩], hothers (Ne.symm hne), ?_⟩
    rw [hrun]
    refine ⟨horderly, ?_, ?_, hpools, hcache⟩
    · intro j hj
      obtain ⟨hj, hjm⟩ := (hholds r j).1 hj
      exact absurd (hone j m hj hm) hjm
    · intro r' j hj
      obtain ⟨hj, hjm⟩ := (hholds r' j).1 hj
      refine ⟨hj, fun stage hat => ?_⟩
      rw [← hrun]
      exact (at_run_of_others (hothers hjm)).2 hat

theorem Orderly.yields_of_table (h : s.Orderly) (hj : s.Holds .table j) : s.Yields j := by
  obtain ⟨progress, target, errand, hat, hheld⟩ := h.mem_held hj
  refine ⟨progress, target, errand, hat, .inl ?_⟩
  cases progress <;> simp [Acquisition.held] at hheld
  rfl

theorem Orderly.yields_of_turn (h : s.Orderly) (hj : s.Holds (.turn key) j) :
    s.Yields j ∨ ∃ stage, s.At j stage ∧ stage.seeks key = true := by
  obtain ⟨progress, target, errand, hat, hheld⟩ := h.mem_held hj
  by_cases hprogress : 0 < progress.distance
  · exact .inr ⟨_, hat, seeks_acquiring.2 ⟨(key_of_turn_mem hheld).symm, hprogress⟩⟩
  · rw [Acquisition.distance_pos_iff] at hprogress
    push Not at hprogress
    exact .inl ⟨progress, target, errand, hat, .inr hprogress⟩

/-- When nobody looks at the pools, everybody but the one that has the turn of a key gets out of its way. -/
theorem Orderly.exists_run_alone (h : s.Orderly) (hlock : s.poolLock.holders = [])
    (hpools : ∀ entry, (key, entry) ∉ s.pools) (hturn : ∀ j, s.Holds (.turn key) j → j = u ∨ s.Yields j) :
    ∃ turns, (∀ turn ∈ turns, ∀ o, turn ≠ .task u o) ∧ (s.run e turns).Alone key u ∧
      (s.run e turns).cache = s.cache := by
  obtain ⟨before, hbefore, horderly, htable, hmono, hpools₁, hcache₁⟩ := h.exists_run_yield (e := e) (u := u) .table
    (fun j j' hj hj' => Option.some.inj (hj.symm.trans hj')) (fun j hj => .inr (h.yields_of_table hj))
  obtain ⟨after, hafter, horderly', hturn', hmono', hpools₂, hcache₂⟩ :=
    horderly.exists_run_yield (e := e) (u := u) (.turn key)
      (fun j j' hj hj' => Option.some.inj (hj.symm.trans hj')) (by
        intro j hj
        obtain ⟨hj, hat⟩ := hmono _ j hj
        refine (hturn j hj).imp_right ?_
        rintro ⟨progress, target, errand, hat', hprogress⟩
        exact ⟨progress, target, errand, hat _ hat', hprogress⟩)
  -- first the one that has the table goes on, then the one that has the turn
  refine ⟨before ++ after, ?_, ?_⟩
  · intro turn hmem
    rcases List.mem_append.1 hmem with hmem | hmem
    · exact hbefore turn hmem
    · exact hafter turn hmem
  · rw [run_append]
    refine ⟨⟨horderly', ?_, ?_⟩, hcache₂.trans hcache₁⟩
    · intro r j hr hj
      obtain ⟨hj₁, -⟩ := hmono' r j hj
      obtain ⟨hj₀, -⟩ := hmono r j hj₁
      cases r with
      | reading => exact absurd (SharedLock.mem_holders.2 (.inr hj₀)) (by simp [hlock])
      | writing => exact absurd (SharedLock.mem_holders.2 (.inl hj₀)) (by simp [hlock])
      | table => exact htable j hj₁
      | turn other =>
          obtain rfl : other = key := of_decide_eq_true hr
          exact hturn' j hj
    · rw [hpools₂, hpools₁]
      exact hpools

/-! ## Removals -/

/-- The stages of a removal that has emptied the place of a key. -/
inductive Removes (key : PoolKey) : Stage → Prop
  | invalidating : Removes key (.invalidating key)
  | shutting (backends : List Nat) : Removes key (.shutting backends)

theorem Removes.seeks (h : Removes key stage) : stage.seeks key = false := by
  cases h <;> rfl

theorem Removes.ne_start {operation : Operation} (h : Removes key stage) : stage ≠ .start operation := by
  cases h <;> simp

theorem run_invalidating (hat : s.At m (.invalidating key)) :
    (s.run e (goes m 1)).At m (.done (.ok .nothing)) ∧ (s.run e (goes m 1)).poolLock = s.poolLock ∧
      (s.run e (goes m 1)).cache = s.cache.erase key := by
  rw [run_goes hat rfl rfl]
  exact ⟨at_advance_after (e := e) (o := ⟨none, .ok .empty⟩) hat, rfl, rfl⟩

theorem run_clearing (hat : s.At m (.shutting [])) :
    (s.run e (goes m 2)).At m (.done (.ok .nothing)) ∧ (s.run e (goes m 2)).poolLock = s.poolLock ∧
      (s.run e (goes m 2)).cache = s.cache.clear := by
  have hclearing := at_advance_after (e := e) (o := ⟨none, .ok .empty⟩) hat
  rw [run_goes hat rfl rfl, run_goes hclearing rfl rfl]
  exact ⟨at_advance_after (e := e) (o := ⟨none, .ok .empty⟩) hclearing, rfl, rfl⟩

theorem Removes.exists_run (h : Removes key stage) (hat : s.At m stage) : ∃ turns,
    (∀ turn ∈ turns, ∃ o, turn = .task m o) ∧ (s.run e turns).At m (.done (.ok .nothing)) ∧
      (s.run e turns).poolLock = s.poolLock ∧ ∀ now, (s.run e turns).cache.get? now key = none := by
  have hturns {count : Nat} {turn : Turn} (hmem : turn ∈ goes m count) : ∃ o, turn = .task m o :=
    ⟨_, List.eq_of_mem_replicate hmem⟩
  cases h with
  | invalidating =>
      obtain ⟨hdone, hlock, hcache⟩ := run_invalidating (e := e) hat
      refine ⟨goes m 1, fun turn => hturns, hdone, hlock, ?_⟩
      rw [hcache]
      intro now
      exact Cache.get?_erase_self
  | shutting backends =>
      obtain ⟨hend, -, hlock⟩ := run_shutting (e := e) hat
      obtain ⟨hdone, hlock', hcache⟩ := run_clearing (e := e) hend
      refine ⟨goes m backends.length ++ goes m 2, ?_, ?_⟩
      · intro turn hmem
        exact (List.mem_append.1 hmem).elim hturns hturns
      · rw [run_append]
        refine ⟨hdone, hlock'.trans hlock, ?_⟩
        rw [hcache]
        intro now
        rfl

theorem step_of_drops {operation : Operation} (hoperation : operation.drops key = true)
    (hat : s.At m (.start operation)) (hstep : s.step e (.task m o) = some s') :
    (∃ stage, s'.At m stage ∧ Removes key stage) ∧ s'.poolLock.holders = [] ∧ ∀ entry, (key, entry) ∉ s'.pools := by
  obtain ⟨stage, hat', -, hready, rfl⟩ := step_task_iff.1 hstep
  obtain rfl := hat.unique hat'
  have hnext := at_advance_after (e := e) (o := o) hat
  cases operation with
  | changed id =>
      obtain rfl : key = .connection id := of_decide_eq_true hoperation
      refine ⟨⟨_, hnext, .invalidating⟩, hready, ?_⟩
      intro entry hmem
      have hne : PoolKey.connection id ≠ .connection id := of_decide_eq_true (List.mem_filter.1 hmem).2
      exact hne rfl
  | shutdown => exact ⟨⟨_, hnext, .shutting _⟩, hready, fun entry => List.not_mem_nil⟩
  | _ => simp [Operation.drops] at hoperation

theorem Orderly.run (h : s.Orderly) (turns : List Turn) : (s.run e turns).Orderly :=
  run_induction h (fun _ _ _ h hstep => h.step hstep) turns

theorem Removes.ne_of_seeks (hremoves : Removes key next) (hm : s.At m next) (hat : s.At j stage)
    (hseeks : stage.seeks key = true) : j ≠ m := by
  rintro rfl
  rw [hat.unique hm, hremoves.seeks] at hseeks
  exact Bool.false_ne_true hseeks

theorem Removes.not_mem_pools_run {turns : List Turn} (hremoves : Removes key next) (hm : s.At m next)
    (hpools : ∀ entry, (key, entry) ∉ s.pools) (hturns : ∀ turn ∈ turns, ∃ o, turn = .task m o) (entry : PoolEntry) :
    (key, entry) ∉ (s.run e turns).pools := by
  intro hmem
  rcases mem_pools_run hmem with hbefore | ⟨j, hj⟩
  · exact hpools entry hbefore
  · obtain ⟨before, after, o, -, rfl, -, -⟩ := exists_of_mem_placings hj
    obtain ⟨o', heq⟩ := hturns (.task j o) (by simp)
    obtain ⟨rfl, -⟩ := Turn.task.inj heq
    obtain ⟨stage', hat', hseeks'⟩ := seeks_of_mem_placings hj fun operation hstart =>
      hremoves.ne_start (hm.unique hstart)
    exact hremoves.ne_of_seeks hm hat' hseeks' rfl

/-- Whoever has the turn of a key fills its place, if he is not past that. -/
theorem Orderly.exists_seeks (h : s.Orderly) (hat : s.At i stage) (hseeks : stage.seeks key = true) :
    ∃ u stage', s.At u stage' ∧ stage'.seeks key = true ∧ ∀ j, s.Holds (.turn key) j → j = u ∨ s.Yields j := by
  by_cases hnone : ∀ j, s.Holds (.turn key) j → s.Yields j
  · exact ⟨i, stage, hat, hseeks, fun j hj => .inr (hnone j hj)⟩
  · push Not at hnone
    obtain ⟨j, hj, hyields⟩ := hnone
    obtain ⟨stage', hat', hseeks'⟩ := (h.yields_of_turn hj).resolve_left hyields
    exact ⟨j, stage', hat', hseeks', fun j' hj' => .inl (Option.some.inj (hj'.symm.trans hj))⟩

/-- A removal can be undone when it is over by a task that was after the pool when its place was emptied. -/
theorem Removes.exists_run_undone (hremoves : Removes key next) (hm : s.At m next) (h : s.Orderly)
    (hlock : s.poolLock.holders = []) (hpools : ∀ entry, (key, entry) ∉ s.pools) (hat : s.At i stage)
    (hseeks : stage.seeks key = true) :
    ∃ more later u entry, (s.run e more).At m (.done (.ok .nothing)) ∧
      (key, entry) ∈ ((s.run e more).run e later).pools ∧ (u, entry.backend) ∈ placings e key s (more ++ later) ∧
      ∀ operation, ¬s.At u (.start operation) := by
  obtain ⟨more, hmore, hdone, hlock', hcache⟩ := hremoves.exists_run (e := e) hm
  have hstays {j : Nat} (hj : j ≠ m) (stage : Stage) : (s.run e more).At j stage ↔ s.At j stage := by
    apply at_run_of_others
    intro turn hturn o heq
    obtain ⟨o', rfl⟩ := hmore turn hturn
    exact hj (Turn.task.inj heq).1.symm
  obtain ⟨u, stage', hat', hseeks', hturn⟩ :=
    (h.run more).exists_seeks ((hstays (hremoves.ne_of_seeks hm hat hseeks) stage).2 hat) hseeks
  obtain ⟨aside, haside, halone, hkept⟩ := (h.run more).exists_run_alone (e := e) (u := u)
    (by rw [hlock', hlock]) (hremoves.not_mem_pools_run hm hpools hmore) hturn
  obtain ⟨fills, entry, hmem, hplacing⟩ :=
    halone.exists_run_of_seeks (e := e) ((at_run_of_others haside).2 hat') hseeks' (by rw [hkept]; exact hcache)
  refine ⟨more, aside ++ fills, u, entry, hdone, ?_, ?_, ?_⟩
  · rw [run_append]
    exact hmem
  · rw [placings, trace_append, trace_append]
    exact List.mem_append_right _ (List.mem_append_right _ hplacing)
  · intro operation hstart
    have hum : u ≠ m := by
      rintro rfl
      rw [hat'.unique hdone] at hseeks'
      exact Bool.false_ne_true hseeks'
    obtain rfl := ((hstays hum stage').1 hat').unique hstart
    exact Bool.false_ne_true hseeks'

/-- Once a removal has emptied the place of a key, only pools that are put there later stand there. That one of them is
put there, after the removal is over, by a task that had set out before, can come about exactly if a task was after the
pool of the key when its place was emptied. -/
theorem removal_undone_iff (e : Engine) (settings : Settings) (catalog : Catalog) (operations : List Operation)
    (turns : List Turn) (m : Nat) (operation : Operation) (o : Outside) (s' : EngineState) (key : PoolKey)
    (hoperation : operation.drops key = true)
    (hat : ((started settings catalog operations).run e turns).At m (.start operation))
    (hstep : ((started settings catalog operations).run e turns).step e (.task m o) = some s') :
    (∀ more entry, (key, entry) ∈ (s'.run e more).pools → ∃ i, (i, entry.backend) ∈ placings e key s' more) ∧
      ((∃ more later i entry, (s'.run e more).At m (.done (.ok .nothing)) ∧
          (key, entry) ∈ ((s'.run e more).run e later).pools ∧
          (i, entry.backend) ∈ placings e key s' (more ++ later) ∧ ∀ operation, ¬s'.At i (.start operation)) ↔
        ∃ i stage, s'.At i stage ∧ stage.seeks key = true) := by
  obtain ⟨⟨next, hnext, hremoves⟩, hlock, hpools⟩ := step_of_drops hoperation hat hstep
  have horderly : s'.Orderly := (orderly_run e settings catalog operations turns).step hstep
  refine ⟨?_, ?_, ?_⟩
  · intro more entry hmem
    exact (mem_pools_run hmem).resolve_left (hpools entry)
  · rintro ⟨more, later, i, entry, -, -, hplacing, hstart⟩
    obtain ⟨stage, hi, hseeks⟩ := seeks_of_mem_placings hplacing hstart
    exact ⟨i, stage, hi, hseeks⟩
  · rintro ⟨i, stage, hi, hseeks⟩
    exact hremoves.exists_run_undone hnext horderly hlock hpools hi hseeks

section Lateness

/-- A pool is about to be made when its connection is removed. -/
def lateness : EngineState :=
  (started .usual (.ofConnections [(asked "orders").connection])
      [.describe (some "orders") true, .remove "orders", .changed "orders", .shutdown]).run
    ⟨.empty, .usual, none, .open⟩ (goes 0 8 ++ goes 1 1)

/-- It comes into its place when what was kept for the connection has been dropped, or everything has been shut down. -/
theorem lateness_lingers :
    let e : Engine := ⟨.empty, .usual, none, .open⟩
    let changed := lateness.run e (goes 2 2)
    let shut := lateness.run e (goes 3 3)
    lateness.catalog.get? "orders" = none ∧
      changed.At 2 (.done (.ok .nothing)) ∧ placings e (.connection "orders") changed (goes 0 3) = [(0, 0)] ∧
      (changed.run e (goes 0 3)).placed = [0] ∧
      shut.At 3 (.done (.ok .nothing)) ∧ placings e (.connection "orders") shut (goes 0 3) = [(0, 0)] ∧
      (shut.run e (goes 0 3)).placed = [0] ∧ (shut.run e (goes 0 3)).closed = [] := by
  intro e changed shut
  have hchanged : changed.At 2 (.done (.ok .nothing)) := by unfold At; rfl
  have hshut : shut.At 3 (.done (.ok .nothing)) := by unfold At; rfl
  exact ⟨by decide +kernel, hchanged, by decide +kernel, by decide +kernel, hshut, by decide +kernel,
    by decide +kernel, by decide +kernel⟩

theorem removal_undone_iff_lateness :
    let e : Engine := ⟨.empty, .usual, none, .open⟩
    ∃ s', lateness.step e (.task 2 ⟨none, .ok .empty⟩) = some s' ∧
      ∃ more later i entry, (s'.run e more).At 2 (.done (.ok .nothing)) ∧
        (.connection "orders", entry) ∈ ((s'.run e more).run e later).pools ∧
        (i, entry.backend) ∈ placings e (.connection "orders") s' (more ++ later) ∧
        ∀ operation, ¬s'.At i (.start operation) := by
  intro e
  have hat : lateness.At 2 (.start (.changed "orders")) := by unfold At; rfl
  have hstep := step_eq (e := e) (o := ⟨none, .ok .empty⟩) hat rfl rfl
  refine ⟨_, hstep, ?_⟩
  apply (removal_undone_iff e _ _ _ _ 2 _ _ _ (.connection "orders") (by decide) hat hstep).2.2
  exact ⟨0, _, rfl, by decide +kernel⟩

end Lateness

end EngineState

end SemanticLayer
