import SemanticLayer.Proofs.Engine.Sharing
/-!
What tasks that ask for pools of a key at once can rely on: they are all given one pool, a failure is left behind for
the next one to try again, and nobody who wants another pool waits until theirs is made.
-/
namespace SemanticLayer

namespace EngineState

variable {e : Engine} {s s' : EngineState} {i j m : Nat} {o : Outside} {f : Failure} {stage : Stage}
  {key other : PoolKey} {target : Target} {errand : Errand} {progress : Acquisition}
  {targets : List Target} {done : List Nat}

/-- How far a task has come that gets a pool of a key. -/
def Getting (s : EngineState) (key : PoolKey) (i : Nat) (progress : Acquisition) : Prop :=
  ∃ target errand, target.key = key ∧ s.At i (.acquiring progress target errand)

/-- What tasks that get pools of a key rely on in a state before which the listed ones were made for it. -/
structure OnePool (e : Engine) (targets : List Target) (key : PoolKey) (s : EngineState) (made : List Nat) :
    Prop where
  inFlight : ∀ i j, s.Getting key i .creating → s.Getting key j .creating → i = j
  once : made.length ≤ 1
  answered : ∀ i target reply, targets[i]? = some target → target.key = key → s.At i (.done (.ok reply)) →
    ∃ b, made = [b] ∧ reply = .pool b
  /-- A creation that fails leaves the pools as they are, -/
  failed : ∀ i o f, s.Getting key i .creating → o.creation = some f →
    ∃ s', s.step e (.task i o) = some s' ∧ s'.pools = s.pools ∧ s'.Getting key i (.releasing (.error f))
  /-- and its task gives up the turn of the key. -/
  released : ∀ i o f, s.Getting key i (.releasing (.error f)) →
    ∃ s', s.step e (.task i o) = some s' ∧ s'.pools = s.pools ∧ s'.turns.lookup key = none ∧
      s'.At i (.done (.error f))
  /-- Whoever is next in turn looks for a pool, and makes one if none was made. -/
  next : ∀ i o, s.Getting key i .queueing → s.turns.lookup key = none →
    ∃ s', s.step e (.task i o) = some s' ∧ s'.Getting key i (.waiting true)
  looking : ∀ i o, s.Getting key i (.waiting true) → s.poolLock.writer = none →
    ∃ s', s.step e (.task i o) = some s' ∧ s'.Getting key i (.looking true)
  retried : ∀ i o, s.Getting key i (.looking true) →
    ∃ s', s.step e (.task i o) = some s' ∧ (s'.Getting key i .creating ↔ made = [])
  /-- Whoever holds the lock of a map while a pool is made is another task, and can go on. -/
  unlocked : ∀ i m, s.Getting key i .creating → m ∈ s.poolLock.holders ∨ s.tableLock = some m →
    m ≠ i ∧ ∀ o, (s.step e (.task m o)).isSome = true
  /-- Whoever gets a pool of another key never waits for one that is being made, and somebody in its way can go on. -/
  others : ∀ i j other progress, s.Getting key i .creating → other ≠ key → s.Getting other j progress →
    ¬Relation.ReflTransGen s.Waits j i ∧
      ∃ m, Relation.ReflTransGen s.Waits j m ∧ ∀ o, (s.step e (.task m o)).isSome = true

/-! ## Steps of getting a pool -/

theorem step_eq (hat : s.At i stage) (hdone : stage.isDone = false) (hready : s.holders stage = []) :
    s.step e (.task i o) = some ((s.after 1).advance e i o stage) :=
  step_task_iff.2 ⟨stage, hat, hdone, hready, rfl⟩

theorem at_advance_after (hat : s.At i stage) :
    ((s.after 1).advance e i o stage).At i ((s.after 1).move e i o stage).2 :=
  at_advance (s := s.after 1) hat

theorem Getting.failed (h : s.Getting key i .creating) (hcreation : o.creation = some f) :
    ∃ s', s.step e (.task i o) = some s' ∧ s'.pools = s.pools ∧ s'.Getting key i (.releasing (.error f)) := by
  obtain ⟨target, errand, hkey, hat⟩ := h
  refine ⟨_, step_eq hat rfl rfl, ?_, target, errand, hkey, ?_⟩
  · simp only [advance_eq, move, acquireStep, hcreation]
    rfl
  · have hnext := at_advance_after (e := e) (o := o) hat
    simpa only [move, acquireStep, hcreation] using hnext

theorem Getting.released (h : s.Getting key i (.releasing (.error f))) :
    ∃ s', s.step e (.task i o) = some s' ∧ s'.pools = s.pools ∧ s'.turns.lookup key = none ∧
      s'.At i (.done (.error f)) := by
  obtain ⟨target, errand, rfl, hat⟩ := h
  refine ⟨_, step_eq hat rfl rfl, ?_, ?_, at_advance_after hat⟩
  · rw [advance_eq]
    rfl
  · rw [advance_eq]
    exact (lookup_filter_ne s.turns target.key target.key).trans (if_pos rfl)

theorem Getting.next (h : s.Getting key i .queueing) (hfree : s.turns.lookup key = none) :
    ∃ s', s.step e (.task i o) = some s' ∧ s'.Getting key i (.waiting true) := by
  obtain ⟨target, errand, rfl, hat⟩ := h
  have hready : s.holders (.acquiring .queueing target errand) = [] := by simp [holders, hfree]
  exact ⟨_, step_eq hat rfl hready, target, errand, rfl, at_advance_after hat⟩

theorem Getting.looking (h : s.Getting key i (.waiting true)) (hfree : s.poolLock.writer = none) :
    ∃ s', s.step e (.task i o) = some s' ∧ s'.Getting key i (.looking true) := by
  obtain ⟨target, errand, hkey, hat⟩ := h
  have hready : s.holders (.acquiring (.waiting true) target errand) = [] := by simp [holders, hfree]
  exact ⟨_, step_eq hat rfl hready, target, errand, hkey, at_advance_after hat⟩

theorem Shared.getting (h : s.Shared targets key done) (hgetting : s.Getting key i progress) :
    ∃ target, targets[i]? = some target ∧ target.key = key ∧ s.At i (.acquiring progress target .hold) := by
  obtain ⟨target, errand, hkey, hat⟩ := hgetting
  obtain ⟨target', htarget'⟩ := h.exists_target hat
  cases h.serving.obtains i target' (by simp [htarget']) _ hat with
  | acquiring => exact ⟨target, htarget', hkey, hat⟩

/-- In its turn, a task has a pool made exactly if none was. -/
theorem Shared.retried (h : s.Shared targets key done) (hgetting : s.Getting key i (.looking true)) :
    ∃ s', s.step e (.task i o) = some s' ∧ (s'.Getting key i .creating ↔ done = []) := by
  obtain ⟨target, htarget, hkey, hat⟩ := h.getting hgetting
  refine ⟨_, step_eq hat rfl rfl, ?_⟩
  have hnext := at_advance_after (e := e) (o := o) hat
  have hlater : (s.after 1).current? target = s.current? target := rfl
  rw [← h.current?_eq_none_iff htarget hkey hat]
  cases hcurrent : s.current? target with
  | none =>
      simp only [move, acquireStep, hlater, hcurrent] at hnext
      exact iff_of_true ⟨target, .hold, hkey, hnext⟩ rfl
  | some b =>
      simp only [move, acquireStep, hlater, hcurrent] at hnext
      refine iff_of_false ?_ (by simp)
      rintro ⟨target', errand', -, hcreating⟩
      simpa using hnext.unique hcreating

/-! ## Making one pool -/

theorem turn_mem_held (hkey : target.key = key) : .turn key ∈ Stage.held (.acquiring .creating target errand) := by
  simp [Stage.held, Acquisition.held, hkey]

theorem Shared.inFlight (h : s.Shared targets key done) (hi : s.Getting key i .creating)
    (hj : s.Getting key j .creating) : i = j := by
  obtain ⟨target, errand, hkey, hat⟩ := hi
  obtain ⟨target', errand', hkey', hat'⟩ := hj
  exact h.orderly.turn_unique hat hat' (turn_mem_held hkey) (turn_mem_held hkey')

/-- A pool that was made is in its place, or about to be put there. -/
theorem Shared.length_le (h : s.Shared targets key done) : done.length ≤ 1 := by
  by_contra hlength
  have hdone : done ≠ [] := by rintro rfl; simp at hlength
  have hsingle : ∃ b, done = [b] := by
    cases hpool : s.pool? key with
    | some entry => exact ⟨entry.backend, (h.placed entry hpool).1⟩
    | none =>
        obtain ⟨i, target, stage, htarget, hkey, hat, hplacing⟩ := h.kept hdone hpool
        have hgiven := (h.agrees i target stage htarget hkey hat).given
        obtain ⟨b, hb⟩ : ∃ b, stage.backend? = some b := by
          unfold Stage.isPlacing at hplacing
          split at hplacing
          · exact ⟨_, rfl⟩
          · exact ⟨_, rfl⟩
          · simp at hplacing
        exact ⟨b, hgiven b hb⟩
  obtain ⟨b, rfl⟩ := hsingle
  simp at hlength

theorem Shared.answered (h : s.Shared targets key done) {reply : Reply} (htarget : targets[i]? = some target)
    (hkey : target.key = key) (hat : s.At i (.done (.ok reply))) : ∃ b, done = [b] ∧ reply = .pool b := by
  cases h.serving.obtains i target (by simp [htarget]) _ hat with
  | obtained => exact ⟨_, (h.agrees i target _ htarget hkey hat).given _ rfl, rfl⟩

/-! ## Waiting while a pool is made -/

theorem Orderly.unlocked (h : s.Orderly) (hi : s.Getting key i .creating)
    (hm : m ∈ s.poolLock.holders ∨ s.tableLock = some m) :
    m ≠ i ∧ ∀ o, (s.step e (.task m o)).isSome = true := by
  have hwork : ∃ progress target errand, s.At m (.acquiring progress target errand) ∧
      progress.isAtWork = true := by
    rcases hm with hm | hm
    · exact h.isAtWork_of_mem_holders hm
    · exact h.isAtWork (r := .table) hm (by simp)
  obtain ⟨progress, target, errand, hat, hwork⟩ := hwork
  refine ⟨?_, step_isSome hat rfl (holders_of_isAtWork hwork)⟩
  rintro rfl
  obtain ⟨target', errand', -, hat'⟩ := hi
  obtain ⟨rfl, -, -⟩ := Stage.acquiring.inj (hat.unique hat')
  simp [Acquisition.isAtWork] at hwork

theorem Orderly.others (h : s.Orderly) (hi : s.Getting key i .creating) (hother : other ≠ key)
    (hj : s.Getting other j progress) : ¬Relation.ReflTransGen s.Waits j i ∧
      ∃ m, Relation.ReflTransGen s.Waits j m ∧ ∀ o, (s.step e (.task m o)).isSome = true := by
  obtain ⟨target, errand, rfl, hat⟩ := hi
  obtain ⟨target', errand', rfl, hat'⟩ := hj
  constructor
  · intro hwaits
    obtain ⟨progress', target'', errand'', hat'', hcase⟩ := h.waits_key hat' hwaits
    obtain ⟨rfl, rfl, -⟩ := Stage.acquiring.inj (hat''.unique hat)
    rcases hcase with hwork | hkey
    · simp [Acquisition.isAtWork] at hwork
    · exact hother hkey.symm
  · obtain ⟨m, hm, hstep⟩ := h.exists_step hat'
    exact ⟨m, hm, hstep e⟩

theorem Shared.onePool (h : s.Shared targets key done) : s.OnePool e targets key done where
  inFlight _ _ := h.inFlight
  once := h.length_le
  answered _ _ _ := h.answered
  failed _ _ _ := Getting.failed
  released _ _ _ := Getting.released
  next _ _ := Getting.next
  looking _ _ := Getting.looking
  retried _ _ := h.retried
  unlocked _ _ := h.orderly.unlocked
  others _ _ _ _ := h.orderly.others

/-- However tasks that get pools move, the ones that ask for pools of a key for the same endpoint share one. -/
theorem onePool_run (e : Engine) (settings : Settings) (catalog : Catalog) (targets : List Target)
    (turns : List Turn) (key : PoolKey)
    (hsame : ∀ target ∈ targets, ∀ target' ∈ targets, target.key = key → target'.key = key →
      target.connection.sameEndpoint target'.connection = true) :
    let s := started settings catalog (targets.map .acquire)
    (s.run e turns).OnePool e targets key (made e key s turns) := by
  intro s
  have hshared := (shared_started settings catalog targets key).run (e := e)
    (fun target h target' h' hkey hkey' =>
      Connection.sameEndpoint_iff.1 (hsame target h target' h' hkey hkey')) turns
  exact hshared.onePool

section Retrial

/-- A connection that is asked for by its name. -/
def asked (id : String) : Target :=
  .ofConnection (Connection.new id .postgresql "db" "shop" "app")

/-- Turns of a task, in which pools can be made. -/
def goes (i count : Nat) : List Turn :=
  List.replicate count (.task i ⟨none, .ok .empty⟩)

theorem run_goes (hat : s.At i stage) (hdone : stage.isDone = false) (hready : s.holders stage = []) (count : Nat) :
    s.run e (goes i (count + 1)) = ((s.after 1).advance e i ⟨none, .ok .empty⟩ stage).run e (goes i count) :=
  run_of_step (step_eq hat hdone hready) _

theorem step_goes (hat : s.At i stage) (hdone : stage.isDone = false) (hready : s.holders stage = []) :
    s.step e (.task i ⟨none, .ok .empty⟩) = some (s.run e (goes i 1)) := by
  rw [run_goes hat hdone hready]
  exact step_eq hat hdone hready

/-- While the pool of one task is being made, another one gets a different pool and a third one waits for its turn.
The creation fails, and the third one goes on. -/
def retrial : List Turn :=
  goes 0 8 ++ goes 2 12 ++ goes 1 6 ++ [.task 0 ⟨some (.connection "refused"), .ok .empty⟩] ++ goes 0 1 ++ goes 1 7

theorem onePool_run_retrial :
    let targets := [asked "orders", asked "orders", asked "bills"]
    let e : Engine := ⟨.empty, .usual, none, .open⟩
    let s := started .usual .empty (targets.map .acquire)
    (s.run e retrial).OnePool e targets (.connection "orders") [1] ∧
      (s.run e retrial).tasks.map (fun stage => (stage.isDone, stage.backend?)) =
        [(true, none), (true, some 1), (true, some 0)] := by
  intro targets e s
  have hmade : made e (.connection "orders") s retrial = [1] := by decide +kernel
  refine ⟨?_, by decide +kernel⟩
  rw [← hmade]
  exact onePool_run e .usual .empty targets retrial (.connection "orders") (by decide)

end Retrial

end EngineState

end SemanticLayer
