import SemanticLayer.Proofs.Engine.Endpoints
/-!
One pool for all tasks that ask for pools of a key at once. Whoever has the turn of the key looks once more before
a pool is made, so a pool is made by the first task whose creation does not fail, and all others are given it.
-/
namespace SemanticLayer

/-- Whether a task waits for its pool to be made. -/
def Stage.isCreating : Stage → Bool
  | .acquiring .creating _ _ => true
  | _ => false

/-- Whether a task has made a pool that is not in its place yet. -/
def Stage.isPlacing : Stage → Bool
  | .acquiring (.placing _) _ _ | .acquiring (.inserting _) _ _ => true
  | _ => false

def Stage.backend? : Stage → Option Nat
  | .acquiring progress _ _ => progress.backend?
  | .done (.ok (.pool backend)) => some backend
  | _ => none

namespace EngineState

variable {e : Engine} {s s' : EngineState} {i j b : Nat} {o : Outside} {stage : Stage} {turn : Turn}
  {key : PoolKey} {target : Target} {errand : Errand} {targets : List Target} {done : List Nat}

/-! ## Creations -/

/-- The pool that a task makes for a key. -/
def creation? (s : EngineState) (key : PoolKey) (o : Outside) : Stage → Option Nat
  | .acquiring .creating target _ =>
    if target.key = key ∧ o.creation.isNone then some s.backends.length else none
  | _ => none

/-- The pool that is made for a key in a turn. -/
def makes? (s : EngineState) (key : PoolKey) : Turn → Option Nat
  | .task i o => s.tasks[i]?.bind (s.creation? key o)
  | _ => none

/-- The pools that are made for a key in a run, in order. -/
def made (e : Engine) (key : PoolKey) : EngineState → List Turn → List Nat
  | _, [] => []
  | s, turn :: turns => (s.makes? key turn).toList ++ made e key ((s.step e turn).getD s) turns

/-! ## The pool of a key -/

/-- How a stage fits the pools that were made for a key so far, and the one that is in its place. -/
structure Agrees (done : List Nat) (pool : Option PoolEntry) (stage : Stage) : Prop where
  creating : stage.isCreating = true → done = []
  given : ∀ b ∈ stage.backend?, done = [b]
  placing : stage.isPlacing = true → pool = none

theorem agrees_plain {pool : Option PoolEntry} (hcreating : stage.isCreating = false)
    (hbackend : stage.backend? = none) (hplacing : stage.isPlacing = false) : Agrees done pool stage :=
  ⟨by simp [hcreating], by simp [hbackend], by simp [hplacing]⟩

theorem length_advance : (s.advance e i o stage).tasks.length = s.tasks.length := by
  rw [advance_eq]
  exact List.length_set

/-- What holds of the pools of a key while tasks get pools and do nothing else. -/
structure Shared (targets : List Target) (key : PoolKey) (s : EngineState) (done : List Nat) : Prop where
  length : s.tasks.length = targets.length
  orderly : s.Orderly
  serving : s.Serving (targets.map .acquire)
  agrees : ∀ i target stage, targets[i]? = some target → target.key = key → s.At i stage →
    Agrees done (s.pool? key) stage
  placed : ∀ entry, s.pool? key = some entry → done = [entry.backend] ∧
    ∀ target ∈ targets, target.key = key → entry.connection.endpoint = target.connection.endpoint
  kept : done ≠ [] → s.pool? key = none → ∃ i target stage, targets[i]? = some target ∧
    target.key = key ∧ s.At i stage ∧ stage.isPlacing = true

theorem shared_started (settings : Settings) (catalog : Catalog) (targets : List Target) (key : PoolKey) :
    (started settings catalog (targets.map .acquire)).Shared targets key [] where
  length := by simp [started]
  orderly := orderly_started _ _ _
  serving := serving_started _ _ _
  agrees i target stage _ _ hat := by
    obtain ⟨operation, -, rfl⟩ := at_started.1 hat
    exact agrees_plain rfl rfl rfl
  placed entry hentry := by simp [started, initial, pool?] at hentry
  kept hdone := absurd rfl hdone

/-- A step that makes no pool for the key, and puts none in its place. -/
theorem Shared.quiet (h : s.Shared targets key done) (htarget : targets[i]? = some target)
    (hat : s.At i stage) (hready : s.holders stage = [])
    (hpool : (s.advance e i o stage).pool? key = s.pool? key)
    (hagrees : target.key = key → Agrees done (s.pool? key) (s.move e i o stage).2)
    (hplacing : target.key = key → stage.isPlacing = true → (s.move e i o stage).2.isPlacing = true) :
    (s.advance e i o stage).Shared targets key done where
  length := length_advance.trans h.length
  orderly := h.orderly.advance hat hready
  serving := h.serving.advance hat
  agrees j target' stage' htarget' hkey hat' := by
    rw [hpool]
    by_cases hj : j = i
    · subst hj
      obtain rfl := Option.some.inj (htarget.symm.trans htarget')
      rw [← (at_advance hat).unique hat']
      exact hagrees hkey
    · exact h.agrees j target' stage' htarget' hkey ((at_advance_of_ne hj).1 hat')
  placed entry hentry := h.placed entry (hpool ▸ hentry)
  kept hdone hnone := by
    obtain ⟨j, target', stage', htarget', hkey, hat', hstage'⟩ := h.kept hdone (hpool ▸ hnone)
    by_cases hj : j = i
    · subst hj
      obtain rfl := Option.some.inj (htarget.symm.trans htarget')
      obtain rfl := hat.unique hat'
      exact ⟨j, _, _, htarget, hkey, at_advance hat, hplacing hkey hstage'⟩
    · exact ⟨j, target', stage', htarget', hkey, (at_advance_of_ne hj).2 hat', hstage'⟩

/-- Only the task that puts a pool in its place changes the pools of its key. -/
theorem pool?_acquireStep {progress : Acquisition}
    (hprogress : ∀ b, progress = .inserting b → target.key ≠ key) :
    (s.acquireStep e i o.creation target errand progress).1.pool? key = s.pool? key := by
  cases progress with
  | looking inTurn =>
      simp only [acquireStep]
      split <;> rfl
  | creating =>
      simp only [acquireStep]
      split <;> rfl
  | inserting backend => exact pool?_insertPool_of_ne s _ (hprogress backend rfl).symm
  | releasing result => cases result <;> rfl
  | _ => rfl

/-- Whoever has the turn of the key is the only one to make a pool and put it in its place. -/
theorem Shared.eq_of_turn (h : s.Shared targets key done) {target' : Target}
    (hstage : .turn key ∈ stage.held) (hat : s.At i stage) (htarget' : targets[j]? = some target')
    (hkey' : target'.key = key) {stage' : Stage} (hat' : s.At j stage')
    (hstage' : stage'.isPlacing = true ∨ stage'.isCreating = true) : j = i := by
  have hobtains := h.serving.obtains j target' (by simp [htarget']) stage' hat'
  refine h.orderly.turn_unique hat' hat ?_ hstage
  cases hobtains with
  | acquiring progress =>
      cases progress <;> simp [Stage.isPlacing, Stage.isCreating] at hstage' <;>
        simp [Stage.held, Acquisition.held, hkey']
  | _ => simp [Stage.isPlacing, Stage.isCreating] at hstage'

/-- In its turn, a task finds no pool exactly if none was made. -/
theorem Shared.current?_eq_none_iff (h : s.Shared targets key done) (htarget : targets[i]? = some target)
    (hkey : target.key = key) (hat : s.At i (.acquiring (.looking true) target errand)) :
    s.current? target = none ↔ done = [] := by
  constructor
  · intro hnone
    by_contra hdone
    have hpool : s.pool? key = none := by
      by_contra hsome
      obtain ⟨entry, hentry⟩ := Option.ne_none_iff_exists'.1 hsome
      have hcurrent : s.current? target = some entry.backend :=
        current?_eq_some_iff.2 ⟨entry, by rw [hkey, hentry],
          (h.placed entry hentry).2 target (List.mem_of_getElem? htarget) hkey, rfl⟩
      rw [hnone] at hcurrent
      simp at hcurrent
    -- whoever is about to place a pool has the turn, and is not looking
    obtain ⟨j, target', stage', htarget', hkey', hat', hplacing⟩ := h.kept hdone hpool
    obtain rfl := h.eq_of_turn (by simp [Stage.held, Acquisition.held, hkey]) hat htarget' hkey' hat' (.inl hplacing)
    rw [hat'.unique hat] at hplacing
    simp [Stage.isPlacing] at hplacing
  · intro hdone
    by_contra hsome
    obtain ⟨b, hb⟩ := Option.ne_none_iff_exists'.1 hsome
    obtain ⟨entry, hentry, -, -⟩ := current?_eq_some_iff.1 hb
    have hplaced := (h.placed entry (hkey ▸ hentry)).1
    rw [hdone] at hplaced
    simp at hplaced

theorem Shared.pool_backend (h : s.Shared targets key done) (hkey : target.key = key)
    (hb : s.current? target = some b) : done = [b] := by
  obtain ⟨entry, hentry, -, rfl⟩ := current?_eq_some_iff.1 hb
  exact (h.placed entry (hkey ▸ hentry)).1

theorem Shared.create (h : s.Shared targets key done) (htarget : targets[i]? = some target)
    (hkey : target.key = key) (hat : s.At i (.acquiring .creating target errand))
    (hcreation : o.creation = none) :
    (s.advance e i o (.acquiring .creating target errand)).Shared targets key [s.backends.length] := by
  have hturn : .turn key ∈ Stage.held (.acquiring .creating target errand) := by
    simp [Stage.held, Acquisition.held, hkey]
  have hdone : done = [] := (h.agrees i target _ htarget hkey hat).creating rfl
  have hpool : s.pool? key = none := by
    by_contra hsome
    obtain ⟨entry, hentry⟩ := Option.ne_none_iff_exists'.1 hsome
    rw [hdone] at h
    simpa using (h.placed entry hentry).1
  have hstep : (s.acquireStep e i o.creation target errand .creating).1.pool? key = s.pool? key :=
    pool?_acquireStep (by simp)
  have hpool' : (s.advance e i o (.acquiring .creating target errand)).pool? key = none := hstep.trans hpool
  have hnext : (s.advance e i o (.acquiring .creating target errand)).At i
      (.acquiring (.placing s.backends.length) target errand) := by
    have hmove := at_advance (e := e) (o := o) hat
    simpa only [move, acquireStep, hcreation] using hmove
  exact {
    length := length_advance.trans h.length
    orderly := h.orderly.advance hat rfl
    serving := h.serving.advance hat
    agrees := fun j target' stage' htarget' hkey' hat' => by
      rw [hpool']
      by_cases hj : j = i
      · subst hj
        rw [hat'.unique hnext]
        exact ⟨by simp [Stage.isCreating], by simp [Stage.backend?, Acquisition.backend?], fun _ => rfl⟩
      · have hother := (at_advance_of_ne hj).1 hat'
        have hapart := h.eq_of_turn hturn hat htarget' hkey' hother
        refine ⟨fun hcreating => absurd (hapart (.inr hcreating)) hj, fun b hb => ?_,
          fun hplacing => absurd (hapart (.inl hplacing)) hj⟩
        have hgiven := (h.agrees j target' stage' htarget' hkey' hother).given b hb
        rw [hdone] at hgiven
        simp at hgiven
    placed := fun entry hentry => by
      rw [hpool'] at hentry
      simp at hentry
    kept := fun _ _ => ⟨i, target, _, htarget, hkey, hnext, rfl⟩ }

theorem Shared.insert (h : s.Shared targets key done)
    (hsame : ∀ target ∈ targets, ∀ target' ∈ targets, target.key = key → target'.key = key →
      target.connection.endpoint = target'.connection.endpoint)
    (htarget : targets[i]? = some target) (hkey : target.key = key)
    (hat : s.At i (.acquiring (.inserting b) target errand)) :
    (s.advance e i o (.acquiring (.inserting b) target errand)).Shared targets key done := by
  have hturn : .turn key ∈ Stage.held (.acquiring (.inserting b) target errand) := by
    simp [Stage.held, Acquisition.held, hkey]
  have hdone : done = [b] := (h.agrees i target _ htarget hkey hat).given b rfl
  have hpool : (s.advance e i o (.acquiring (.inserting b) target errand)).pool? key =
      some ⟨target.connection, b⟩ := by
    rw [← hkey]
    exact pool?_insertPool s target.key _
  exact {
    length := length_advance.trans h.length
    orderly := h.orderly.advance hat rfl
    serving := h.serving.advance hat
    agrees := fun j target' stage' htarget' hkey' hat' => by
      by_cases hj : j = i
      · subst hj
        rw [← (at_advance hat).unique hat']
        exact ⟨by simp [move, acquireStep, Stage.isCreating],
          by simp [move, acquireStep, Stage.backend?, Acquisition.backend?, hdone],
          by simp [move, acquireStep, Stage.isPlacing]⟩
      · have hother := (at_advance_of_ne hj).1 hat'
        have hagrees := h.agrees j target' stage' htarget' hkey' hother
        exact ⟨hagrees.creating, hagrees.given, fun hplacing =>
          absurd (h.eq_of_turn hturn hat htarget' hkey' hother (.inl hplacing)) hj⟩
    placed := fun entry hentry => by
      obtain rfl := Option.some.inj (hpool.symm.trans hentry)
      exact ⟨hdone, fun target' htarget' hkey' =>
        hsame target (List.mem_of_getElem? htarget) target' htarget' hkey hkey'⟩
    kept := fun _ hnone => by
      rw [hpool] at hnone
      simp at hnone }

theorem pool?_advance_acquiring {progress : Acquisition}
    (hprogress : ∀ b, progress = .inserting b → target.key ≠ key) :
    (s.advance e i o (.acquiring progress target errand)).pool? key = s.pool? key :=
  pool?_acquireStep hprogress

theorem Shared.advance_quiet (h : s.Shared targets key done) (htarget : targets[i]? = some target)
    (hat : s.At i stage) (hready : s.holders stage = []) (hcreation : s.creation? key o stage = none)
    (hpool : (s.advance e i o stage).pool? key = s.pool? key)
    (hagrees : target.key = key → Agrees done (s.pool? key) (s.move e i o stage).2)
    (hplacing : target.key = key → stage.isPlacing = true → (s.move e i o stage).2.isPlacing = true) :
    (s.advance e i o stage).Shared targets key (done ++ (s.creation? key o stage).toList) := by
  rw [hcreation, Option.toList_none, List.append_nil]
  exact h.quiet htarget hat hready hpool hagrees hplacing

theorem Shared.agrees_look {inTurn : Bool} (h : s.Shared targets key done) (htarget : targets[i]? = some target)
    (hkey : target.key = key) (hat : s.At i (.acquiring (.looking inTurn) target .hold)) :
    Agrees done (s.pool? key) (s.move e i o (.acquiring (.looking inTurn) target .hold)).2 := by
  simp only [move, acquireStep]
  split
  · rename_i backend hcurrent
    rw [arrived_hold]
    exact ⟨by simp [Stage.isCreating], by simp [Stage.backend?, h.pool_backend hkey hcurrent],
      by simp [Stage.isPlacing]⟩
  · exact agrees_plain rfl rfl rfl
  · rename_i backend hcurrent
    exact ⟨by simp [Stage.isCreating],
      by simp [Stage.backend?, Acquisition.backend?, h.pool_backend hkey hcurrent],
      by simp [Stage.isPlacing]⟩
  · rename_i hcurrent
    exact ⟨fun _ => (h.current?_eq_none_iff htarget hkey hat).1 hcurrent,
      by simp [Stage.backend?, Acquisition.backend?], by simp [Stage.isPlacing]⟩

theorem Shared.advance_creating (h : s.Shared targets key done) (htarget : targets[i]? = some target)
    (hat : s.At i (.acquiring .creating target .hold)) :
    (s.advance e i o (.acquiring .creating target .hold)).Shared targets key
      (done ++ (s.creation? key o (.acquiring .creating target .hold)).toList) := by
  have hpool : (s.advance e i o (.acquiring .creating target .hold)).pool? key = s.pool? key :=
    pool?_advance_acquiring (by simp)
  cases hcreation : o.creation with
  | none =>
      by_cases hkey : target.key = key
      · have hempty : done = [] := (h.agrees i target _ htarget hkey hat).creating rfl
        have hmade : s.creation? key o (.acquiring .creating target .hold) = some s.backends.length := by
          simp [creation?, hkey, hcreation]
        rw [hmade, hempty]
        exact h.create htarget hkey hat hcreation
      · exact h.advance_quiet htarget hat rfl (by simp [creation?, hkey]) hpool (fun h => absurd h hkey)
          fun h => absurd h hkey
  | some f =>
      refine h.advance_quiet htarget hat rfl (by simp [creation?, hcreation]) hpool (fun _ => ?_)
        fun _ => by simp [Stage.isPlacing]
      simp only [move, acquireStep, hcreation]
      exact agrees_plain rfl rfl rfl

theorem Shared.advance_inserting (h : s.Shared targets key done)
    (hsame : ∀ target ∈ targets, ∀ target' ∈ targets, target.key = key → target'.key = key →
      target.connection.endpoint = target'.connection.endpoint)
    (htarget : targets[i]? = some target) (hat : s.At i (.acquiring (.inserting b) target .hold)) :
    (s.advance e i o (.acquiring (.inserting b) target .hold)).Shared targets key
      (done ++ (s.creation? key o (.acquiring (.inserting b) target .hold)).toList) := by
  by_cases hkey : target.key = key
  · have hnone : s.creation? key o (.acquiring (.inserting b) target .hold) = none := rfl
    rw [hnone, Option.toList_none, List.append_nil]
    exact h.insert hsame htarget hkey hat
  · exact h.advance_quiet htarget hat rfl rfl (pool?_advance_acquiring fun _ _ => hkey) (fun h => absurd h hkey)
      fun h => absurd h hkey

theorem Shared.advance (h : s.Shared targets key done)
    (hsame : ∀ target ∈ targets, ∀ target' ∈ targets, target.key = key → target'.key = key →
      target.connection.endpoint = target'.connection.endpoint)
    (htarget : targets[i]? = some target) (hat : s.At i stage) (hdone : stage.isDone = false)
    (hready : s.holders stage = []) :
    (s.advance e i o stage).Shared targets key (done ++ (s.creation? key o stage).toList) := by
  cases h.serving.obtains i target (by simp [htarget]) stage hat with
  | failed f => simp [Stage.isDone] at hdone
  | obtained => simp [Stage.isDone] at hdone
  | start =>
      exact h.advance_quiet htarget hat hready rfl rfl (fun _ => agrees_plain rfl rfl rfl)
        fun _ => by simp [Stage.isPlacing]
  | acquiring progress =>
      have hagrees (hkey : target.key = key) := h.agrees i target _ htarget hkey hat
      -- only the step that creates adds to `done`, and only the one that inserts changes the pool of the key
      cases progress with
      | looking inTurn =>
          exact h.advance_quiet htarget hat hready rfl (pool?_advance_acquiring (by simp))
            (fun hkey => h.agrees_look htarget hkey hat) fun _ => by simp [Stage.isPlacing]
      | creating => exact h.advance_creating htarget hat
      | placing backend =>
          exact h.advance_quiet htarget hat hready rfl (pool?_advance_acquiring (by simp))
            (fun hkey => ⟨by simp [move, acquireStep, Stage.isCreating], (hagrees hkey).given,
              fun _ => (hagrees hkey).placing rfl⟩) fun _ _ => rfl
      | inserting backend => exact h.advance_inserting hsame htarget hat
      | releasing result =>
          refine h.advance_quiet htarget hat hready rfl (pool?_advance_acquiring (by simp)) (fun hkey => ?_)
            fun _ => by simp [Stage.isPlacing]
          cases result with
          | ok backend =>
              exact ⟨by simp [move, acquireStep, arrived_hold, Stage.isCreating],
                (hagrees hkey).given, by simp [move, acquireStep, arrived_hold, Stage.isPlacing]⟩
          | error f => exact agrees_plain rfl rfl rfl
      | _ =>
          exact h.advance_quiet htarget hat hready rfl (pool?_advance_acquiring (by simp))
            (fun _ => agrees_plain rfl rfl rfl) fun _ => by simp [Stage.isPlacing]

theorem Shared.of_leaves (h : s.Shared targets key done) (hleaves : s.Leaves s') (hpools : s'.pools = s.pools) :
    s'.Shared targets key done := by
  have hpool : s'.pool? key = s.pool? key := by rw [pool?, pool?, hpools]
  have hat (i : Nat) (stage : Stage) : s'.At i stage ↔ s.At i stage := by rw [At, At, hleaves.tasks]
  refine ⟨by rw [hleaves.tasks, h.length], h.orderly.of_leaves hleaves, h.serving.of_leaves hleaves, ?_, ?_, ?_⟩
  · simpa only [hpool, hat] using h.agrees
  · simpa only [hpool] using h.placed
  · simpa only [hpool, hat] using h.kept

theorem Shared.exists_target (h : s.Shared targets key done) (hat : s.At i stage) :
    ∃ target, targets[i]? = some target := by
  have hlength : i < targets.length := h.length ▸ (List.getElem?_eq_some_iff.1 hat).1
  exact ⟨_, List.getElem?_eq_getElem hlength⟩

theorem Shared.step (h : s.Shared targets key done)
    (hsame : ∀ target ∈ targets, ∀ target' ∈ targets, target.key = key → target'.key = key →
      target.connection.endpoint = target'.connection.endpoint)
    (hstep : s.step e turn = some s') : s'.Shared targets key (done ++ (s.makes? key turn).toList) := by
  cases turn with
  | task i o =>
      obtain ⟨stage, hat, hdone, hready, rfl⟩ := step_task_iff.1 hstep
      have hmakes : s.makes? key (.task i o) = (s.after 1).creation? key o stage := by
        rw [makes?, show s.tasks[i]? = some stage from hat]
        cases stage <;> rfl
      have hlater : (s.after 1).Shared targets key done := h.of_leaves (leaves_of_eq rfl) rfl
      obtain ⟨target, htarget⟩ := h.exists_target hat
      rw [hmakes]
      exact hlater.advance hsame htarget hat hdone ((holders_after s 1 stage).trans hready)
  | _ =>
      obtain ⟨hleaves, hpools, -⟩ := step_leaves (by simp) hstep
      simp only [makes?, Option.toList_none, List.append_nil]
      exact h.of_leaves hleaves hpools

/-- Making a pool waits for nobody. -/
theorem makes?_eq_none (hstep : s.step e turn = none) : s.makes? key turn = none := by
  cases turn with
  | task i o =>
      rw [makes?, Option.bind_eq_none_iff]
      intro stage hat
      by_contra hmakes
      have hcreating : ∃ target errand, stage = .acquiring .creating target errand := by
        unfold creation? at hmakes
        split at hmakes
        · exact ⟨_, _, rfl⟩
        · exact absurd rfl hmakes
      obtain ⟨target, errand, rfl⟩ := hcreating
      have hsome := step_isSome (e := e) hat rfl rfl o
      simp [hstep] at hsome
  | _ => rfl

theorem Shared.run (h : s.Shared targets key done)
    (hsame : ∀ target ∈ targets, ∀ target' ∈ targets, target.key = key → target'.key = key →
      target.connection.endpoint = target'.connection.endpoint) (turns : List Turn) :
    (s.run e turns).Shared targets key (done ++ made e key s turns) := by
  induction turns generalizing s done with
  | nil =>
      rw [made, List.append_nil]
      exact h
  | cons turn turns ih =>
      rw [made, ← List.append_assoc]
      refine ih (s := (s.step e turn).getD s) ?_
      cases hstep : s.step e turn with
      | none =>
          rw [makes?_eq_none hstep]
          simpa using h
      | some s' => exact h.step hsame hstep

end EngineState

end SemanticLayer
