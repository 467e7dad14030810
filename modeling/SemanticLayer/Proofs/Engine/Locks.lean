import Mathlib.Logic.Relation
import SemanticLayer.Proofs.Engine.Steps
/-!
Who holds the locks of an engine. A lock is held by the tasks at the stages that need it and by nobody else, so a
task that waits can tell for whom: for the task that has its turn, or for one that looks at the pools or the table
of turns and can go on.
-/
namespace SemanticLayer

/-- What a task can hold while it gets a pool. -/
inductive Resource where
  /-- The pools, to read them. -/
  | reading
  /-- The pools, to write to them. -/
  | writing
  | table
  | turn (key : PoolKey)

/-- What a task holds while it gets a pool of a key. -/
def Acquisition.held (key : PoolKey) : Acquisition → List Resource
  | waiting inTurn => if inTurn then [.turn key] else []
  | looking inTurn => .reading :: if inTurn then [.turn key] else []
  | enrolling | queueing => []
  | enrolled => [.table]
  | creating | placing _ | releasing _ => [.turn key]
  | inserting _ => [.writing, .turn key]

/-- Whether a task that gets a pool has the pools or the table of turns in its hands. -/
def Acquisition.isAtWork : Acquisition → Bool
  | looking _ | enrolled | inserting _ => true
  | _ => false

/-- What a task holds at a stage. -/
def Stage.held : Stage → List Resource
  | acquiring progress target _ => progress.held target.key
  | _ => []

namespace EngineState

variable {e : Engine} {s s' : EngineState} {i j : Nat} {o : Outside} {stage : Stage}
  {turn : Turn} {key : PoolKey} {r : Resource}

/-- Whether a lock is in the hands of a task. -/
def Holds (s : EngineState) : Resource → Nat → Prop
  | .reading, i => i ∈ s.poolLock.readers
  | .writing, i => s.poolLock.writer = some i
  | .table, i => s.tableLock = some i
  | .turn key, i => s.turns.lookup key = some i

theorem Leaves.holds (h : s.Leaves s') : s'.Holds r i ↔ s.Holds r i := by
  cases r <;> simp only [Holds, h.poolLock, h.tableLock, h.turns]

/-- The locks are held by the tasks at the stages that need them. -/
def Orderly (s : EngineState) : Prop :=
  ∀ r i, s.Holds r i ↔ ∃ stage, s.At i stage ∧ r ∈ stage.held

/-! ## The stages to which steps lead -/

@[simp] theorem held_begun (start : Except Failure (Target × Errand)) : (begun start).held = [] := by
  cases start <;> rfl

@[simp] theorem held_arrived (s : EngineState) (backend : Nat) (errand : Errand) :
    (s.arrived backend errand).held = [] := by
  rcases s.arrived_cases backend errand with ⟨f, h⟩ | ⟨db, -, h⟩ | ⟨statement, rest, h⟩ <;> rw [h] <;> rfl

@[simp] theorem held_concluded (id : Option String) (outcome : Except Failure Reply) :
    (concluded id outcome).held = [] := by
  cases id <;> rfl

@[simp] theorem held_finished (backend : Nat) (errand : Errand) (outcome : Except Failure Reply) :
    (finished backend errand outcome).held = [] := by
  unfold finished
  split <;> rfl

theorem held_startStep (e : Engine) (s : EngineState) (operation : Operation) :
    (s.startStep e operation).2.held = [] := by
  cases operation with
  | describe id afresh =>
      simp only [startStep]
      split
      · rfl
      · split <;> rfl
  | testSaved id =>
      simp only [startStep]
      split <;> rfl
  | _ => first | rfl | exact held_begun _

/-- A task that does not get a pool does not come to hold anything. -/
theorem held_move (hstage : ∀ progress target errand, stage ≠ .acquiring progress target errand) :
    (s.move e i o stage).2.held = [] := by
  cases stage with
  | start operation => exact held_startStep e s operation
  | acquiring progress target errand => exact absurd rfl (hstage progress target errand)
  | consulting target =>
      simp only [move]
      split <;> rfl
  | running backend errand statement rest results =>
      simp only [move, runStep]
      split <;> first | rfl | exact held_finished _ _ _
  | opening connection id =>
      simp only [move]
      split
      · exact held_concluded _ _
      · dsimp only
        exact held_arrived _ _ _
  | closing backend id outcome => exact held_concluded _ _
  | shutting backends => cases backends <;> rfl
  | _ => rfl

/-! ## Taking locks and giving them up -/

section Locks

theorem holds_read (s : EngineState) (i : Nat) : { s with poolLock := s.poolLock.read i }.Holds r j ↔
    s.Holds r j ∨ r = .reading ∧ j = i := by
  cases r <;> simp [Holds, SharedLock.read, or_comm]

theorem holds_endRead (s : EngineState) (i : Nat) :
    { s with poolLock := s.poolLock.endRead i }.Holds r j ↔ s.Holds r j ∧ ¬(r = .reading ∧ j = i) := by
  cases r <;> simp [Holds, SharedLock.endRead]

theorem holds_write (hfree : s.poolLock.holders = []) :
    { s with poolLock := s.poolLock.write i }.Holds r j ↔ s.Holds r j ∨ r = .writing ∧ j = i := by
  have hwriter : s.poolLock.writer = none := by
    simpa [SharedLock.holders] using (List.append_eq_nil_iff.1 hfree).1
  cases r <;> simp [Holds, SharedLock.write, hwriter, eq_comm]

theorem holds_endWrite (hwriter : s.poolLock.writer = some i) :
    { s with poolLock := s.poolLock.endWrite }.Holds r j ↔ s.Holds r j ∧ ¬(r = .writing ∧ j = i) := by
  cases r <;> simp [Holds, SharedLock.endWrite, hwriter, eq_comm]

theorem holds_enroll (hfree : s.tableLock = none) :
    { s with tableLock := some i }.Holds r j ↔ s.Holds r j ∨ r = .table ∧ j = i := by
  cases r <;> simp [Holds, hfree, eq_comm]

theorem holds_endEnroll (htable : s.tableLock = some i) :
    { s with tableLock := none }.Holds r j ↔ s.Holds r j ∧ ¬(r = .table ∧ j = i) := by
  cases r <;> simp [Holds, htable, eq_comm]

theorem holds_takeTurn (hfree : s.turns.lookup key = none) :
    (s.takeTurn key i).Holds r j ↔ s.Holds r j ∨ r = .turn key ∧ j = i := by
  cases r with
  | turn other =>
      by_cases hkey : other = key
      · subst hkey
        simp [Holds, takeTurn, hfree, eq_comm]
      · simp [Holds, takeTurn, List.lookup_cons, beq_false_of_ne hkey, hkey]
  | _ => simp [Holds, takeTurn]

theorem holds_endTurn (hturn : s.turns.lookup key = some i) :
    (s.endTurn key).Holds r j ↔ s.Holds r j ∧ ¬(r = .turn key ∧ j = i) := by
  cases r with
  | turn other =>
      simp only [Holds, endTurn, lookup_filter_ne]
      by_cases hkey : other = key
      · subst hkey
        simp [hturn, eq_comm]
      · simp [hkey]
  | _ => simp [Holds, endTurn]

end Locks

/-- What a step makes of what is held: the task that takes it holds what its stage says, and nobody else takes
or gives up anything. -/
structure Passes (s s' : EngineState) (i : Nat) (held : List Resource) : Prop where
  own : ∀ r, s'.Holds r i ↔ r ∈ held
  others : ∀ r j, j ≠ i → (s'.Holds r j ↔ s.Holds r j)

section Passes

variable {held next : List Resource}

theorem Passes.keep (hown : ∀ r, s.Holds r i ↔ r ∈ held) (hs : ∀ r j, s'.Holds r j ↔ s.Holds r j)
    (hnext : next = held) : s.Passes s' i next where
  own r := by rw [hs, hown, hnext]
  others r j _ := hs r j

theorem Passes.take {new : Resource} (hown : ∀ r, s.Holds r i ↔ r ∈ held)
    (hs : ∀ r j, s'.Holds r j ↔ s.Holds r j ∨ r = new ∧ j = i)
    (hnext : ∀ r, r ∈ next ↔ r ∈ held ∨ r = new) : s.Passes s' i next where
  own r := by
    rw [hs, hown, hnext]
    simp
  others r j hne := by
    rw [hs]
    simp [hne]

theorem Passes.give {old : Resource} (hown : ∀ r, s.Holds r i ↔ r ∈ held)
    (hs : ∀ r j, s'.Holds r j ↔ s.Holds r j ∧ ¬(r = old ∧ j = i))
    (hnext : ∀ r, r ∈ next ↔ r ∈ held ∧ r ≠ old) : s.Passes s' i next where
  own r := by
    rw [hs, hown, hnext]
    simp
  others r j hne := by
    rw [hs]
    simp [hne]

end Passes

theorem acquireStep_passes {progress : Acquisition} {target : Target} {errand : Errand}
    (hready : s.holders (.acquiring progress target errand) = [])
    (hown : ∀ r, s.Holds r i ↔ r ∈ progress.held target.key) :
    s.Passes (s.acquireStep e i o.creation target errand progress).1 i
      (s.acquireStep e i o.creation target errand progress).2.held := by
  -- every step takes one lock, gives one up, or keeps those it has
  cases progress with
  | waiting inTurn =>
      refine .take hown (fun r j => holds_read s i) fun r => ?_
      simp [acquireStep, Stage.held, Acquisition.held, or_comm]
  | looking inTurn =>
      have hleft {next : Stage} (hnext : next.held = if inTurn then [.turn target.key] else []) :
          s.Passes { s with poolLock := s.poolLock.endRead i } i next.held :=
        .give hown (fun r j => holds_endRead s i) fun r => by
          rw [hnext]
          cases inTurn <;> cases r <;> simp [Acquisition.held]
      simp only [acquireStep]
      split
      · exact hleft (held_arrived _ _ _)
      · exact hleft rfl
      · exact hleft rfl
      · exact hleft rfl
  | enrolling =>
      have hfree : s.tableLock = none := by simpa [holders] using hready
      refine .take hown (fun r j => holds_enroll hfree) fun r => ?_
      simp [acquireStep, Stage.held, Acquisition.held]
  | enrolled =>
      have htable : s.tableLock = some i := (hown .table).2 (by simp [Acquisition.held])
      refine .give hown (fun r j => holds_endEnroll htable) fun r => ?_
      simp [acquireStep, Stage.held, Acquisition.held]
  | queueing =>
      have hfree : s.turns.lookup target.key = none := by simpa [holders] using hready
      refine .take hown (fun r j => holds_takeTurn hfree) fun r => ?_
      simp [acquireStep, Stage.held, Acquisition.held]
  | creating =>
      simp only [acquireStep]
      split <;> exact .keep hown (fun r j => by cases r <;> rfl) rfl
  | placing backend =>
      refine .take hown (fun r j => holds_write hready) fun r => ?_
      simp [acquireStep, Stage.held, Acquisition.held, or_comm]
  | inserting backend =>
      have hwriter : s.poolLock.writer = some i := (hown .writing).2 (by simp [Acquisition.held])
      have hgives (r : Resource) (j : Nat) :
          (s.acquireStep e i o.creation target errand (.inserting backend)).1.Holds r j ↔
            s.Holds r j ∧ ¬(r = .writing ∧ j = i) :=
        .trans (by cases r <;> rfl) (holds_endWrite hwriter)
      refine .give hown hgives fun r => ?_
      cases r <;> simp [acquireStep, Stage.held, Acquisition.held]
  | releasing result =>
      have hturn : s.turns.lookup target.key = some i := (hown (.turn target.key)).2 (by simp [Acquisition.held])
      have hleft {next : Stage} (hnext : next.held = []) : s.Passes (s.endTurn target.key) i next.held :=
        .give hown (fun r j => holds_endTurn hturn) fun r => by
          rw [hnext]
          simp [Acquisition.held]
      cases result with
      | ok backend => exact hleft (held_arrived _ _ _)
      | error f => exact hleft rfl

theorem move_passes (hready : s.holders stage = []) (hown : ∀ r, s.Holds r i ↔ r ∈ stage.held) :
    s.Passes (s.move e i o stage).1 i (s.move e i o stage).2.held := by
  by_cases hstage : ∃ progress target errand, stage = .acquiring progress target errand
  · obtain ⟨progress, target, errand, rfl⟩ := hstage
    exact acquireStep_passes hready hown
  · have hother : ∀ progress target errand, stage ≠ .acquiring progress target errand :=
      fun progress target errand h => hstage ⟨progress, target, errand, h⟩
    have hleaves := move_leaves (e := e) (s := s) (i := i) (o := o) hother
    have hheld : stage.held = [] := by
      cases stage with
      | acquiring progress target errand => exact absurd rfl (hother progress target errand)
      | _ => rfl
    exact .keep hown (fun r j => hleaves.holds) ((held_move hother).trans hheld.symm)

/-! ## Runs -/

theorem Orderly.of_leaves (h : s.Orderly) (hleaves : s.Leaves s') : s'.Orderly := by
  intro r j
  rw [hleaves.holds, h r j]
  simp only [At, hleaves.tasks]

theorem Orderly.own (h : s.Orderly) (hat : s.At i stage) (r : Resource) :
    s.Holds r i ↔ r ∈ stage.held := by
  rw [h r i]
  constructor
  · rintro ⟨stage', hat', hr⟩
    rwa [hat.unique hat']
  · exact fun hr => ⟨stage, hat, hr⟩

theorem Orderly.advance (h : s.Orderly) (hat : s.At i stage) (hready : s.holders stage = []) :
    (s.advance e i o stage).Orderly := by
  have hpasses := move_passes (e := e) (o := o) hready (h.own hat)
  have hholds (r : Resource) (j : Nat) : (s.advance e i o stage).Holds r j ↔
      (s.move e i o stage).1.Holds r j := by cases r <;> rfl
  intro r j
  rw [hholds]
  by_cases hj : j = i
  · subst hj
    rw [hpasses.own]
    constructor
    · exact fun hr => ⟨_, at_advance hat, hr⟩
    · rintro ⟨stage', hat', hr⟩
      rwa [(at_advance hat).unique hat']
  · rw [hpasses.others r j hj, h r j]
    simp only [at_advance_of_ne hj]

theorem Orderly.step (h : s.Orderly) (hstep : s.step e turn = some s') : s'.Orderly := by
  by_cases hturn : ∃ i o, turn = .task i o
  · obtain ⟨i, o, rfl⟩ := hturn
    obtain ⟨stage, hat, -, hready, rfl⟩ := step_task_iff.1 hstep
    have hlater : (s.after 1).Orderly := h.of_leaves (leaves_of_eq rfl)
    exact hlater.advance hat ((holders_after s 1 stage).trans hready)
  · exact h.of_leaves (step_leaves (fun i o heq => hturn ⟨i, o, heq⟩) hstep).1

def given (s : EngineState) (operations : List Operation) : EngineState :=
  { s with tasks := operations.map .start }

theorem at_given {operations : List Operation} : (s.given operations).At i stage ↔
    ∃ operation, operations[i]? = some operation ∧ stage = .start operation := by
  simp only [At, given, List.getElem?_map, Option.map_eq_some_iff]
  exact exists_congr fun _ => and_congr_right fun _ => eq_comm

def started (settings : Settings) (catalog : Catalog) (operations : List Operation) : EngineState :=
  { initial settings catalog with tasks := operations.map .start }

theorem at_started {settings : Settings} {catalog : Catalog} {operations : List Operation} :
    (started settings catalog operations).At i stage ↔
      ∃ operation, operations[i]? = some operation ∧ stage = .start operation :=
  at_given

theorem orderly_started (settings : Settings) (catalog : Catalog) (operations : List Operation) :
    (started settings catalog operations).Orderly := by
  intro r j
  constructor
  · cases r <;> simp [Holds, started, initial, SharedLock.free]
  · rintro ⟨stage, hat, hr⟩
    obtain ⟨operation, -, rfl⟩ := at_started.1 hat
    simp [Stage.held] at hr

theorem orderly_run (e : Engine) (settings : Settings) (catalog : Catalog) (operations : List Operation)
    (turns : List Turn) : ((started settings catalog operations).run e turns).Orderly :=
  run_induction (orderly_started settings catalog operations) (fun _ _ _ h hstep => h.step hstep) turns

/-! ## Waiting -/

/-- Whether a task waits for another one to go on. -/
def Waits (s : EngineState) (i j : Nat) : Prop :=
  ∃ stage, s.At i stage ∧ j ∈ s.holders stage

/-- Pools of a key are made by one task at a time. -/
theorem Orderly.turn_unique (h : s.Orderly) {stage' : Stage} (hi : s.At i stage) (hj : s.At j stage')
    (hturn : .turn key ∈ stage.held) (hturn' : .turn key ∈ stage'.held) : i = j := by
  have hholds := (h (.turn key) i).2 ⟨stage, hi, hturn⟩
  have hholds' := (h (.turn key) j).2 ⟨stage', hj, hturn'⟩
  exact Option.some.inj (hholds.symm.trans hholds')

section Waiting

variable {progress : Acquisition} {target : Target} {errand : Errand}

theorem Orderly.mem_held (h : s.Orderly) (hr : s.Holds r j) :
    ∃ progress target errand, s.At j (.acquiring progress target errand) ∧ r ∈ progress.held target.key := by
  obtain ⟨stage, hat, hr⟩ := (h r j).1 hr
  cases stage with
  | acquiring progress target errand => exact ⟨progress, target, errand, hat, hr⟩
  | _ => simp [Stage.held] at hr

/-- The pools and the table of turns are in the hands of tasks at work. -/
theorem Orderly.isAtWork (h : s.Orderly) (hr : s.Holds r j) (hlock : ∀ key, r ≠ .turn key) :
    ∃ progress target errand, s.At j (.acquiring progress target errand) ∧ progress.isAtWork = true := by
  obtain ⟨progress, target, errand, hat, hr⟩ := h.mem_held hr
  refine ⟨progress, target, errand, hat, ?_⟩
  cases progress <;> simp [Acquisition.held, Acquisition.isAtWork] at hr ⊢ <;> grind

theorem Orderly.isAtWork_of_mem_holders (h : s.Orderly) (hj : j ∈ s.poolLock.holders) :
    ∃ progress target errand, s.At j (.acquiring progress target errand) ∧ progress.isAtWork = true := by
  rcases SharedLock.mem_holders.1 hj with hj | hj
  · exact h.isAtWork (r := .writing) hj (by simp)
  · exact h.isAtWork (r := .reading) hj (by simp)

/-- A task that waits for a pool waits for one at work, or for the one that has its turn. -/
theorem Orderly.waits_cases (h : s.Orderly) (hat : s.At i (.acquiring progress target errand))
    (hwaits : s.Waits i j) : ∃ progress' target' errand', s.At j (.acquiring progress' target' errand') ∧
      (progress'.isAtWork = true ∨ progress = .queueing ∧ .turn target.key ∈ progress'.held target'.key) := by
  obtain ⟨stage, hat', hj⟩ := hwaits
  obtain rfl := hat.unique hat'
  have hwork (h : ∃ progress target errand, s.At j (.acquiring progress target errand) ∧
      progress.isAtWork = true) : ∃ progress' target' errand', s.At j (.acquiring progress' target' errand') ∧
      (progress'.isAtWork = true ∨ progress = .queueing ∧ .turn target.key ∈ progress'.held target'.key) := by
    obtain ⟨progress', target', errand', hat', hwork⟩ := h
    exact ⟨progress', target', errand', hat', .inl hwork⟩
  cases progress with
  | waiting inTurn => exact hwork (h.isAtWork (r := .writing) (by simpa [holders, Holds] using hj) (by simp))
  | enrolling => exact hwork (h.isAtWork (r := .table) (by simpa [holders, Holds] using hj) (by simp))
  | placing backend => exact hwork (h.isAtWork_of_mem_holders hj)
  | queueing =>
      have hturn : s.Holds (.turn target.key) j := by simpa [holders, Holds] using hj
      obtain ⟨progress', target', errand', hat', hr⟩ := h.mem_held hturn
      exact ⟨progress', target', errand', hat', .inr ⟨rfl, hr⟩⟩
  | _ => simp [holders] at hj

theorem key_of_turn_mem (hturn : .turn key ∈ progress.held target.key) : key = target.key := by
  cases progress <;> simp [Acquisition.held] at hturn <;> tauto

theorem holders_of_isAtWork (hwork : progress.isAtWork = true) :
    s.holders (.acquiring progress target errand) = [] := by
  cases progress <;> first | rfl | simp [Acquisition.isAtWork] at hwork

theorem step_isSome (hat : s.At i stage) (hdone : stage.isDone = false) (hready : s.holders stage = [])
    (o : Outside) : (s.step e (.task i o)).isSome = true := by
  rw [step_task_iff.2 ⟨stage, hat, hdone, hready, rfl⟩]
  rfl

/-- Whom a task waits for, directly or not, is at work or gets a pool of the same key. -/
theorem Orderly.waits_key (h : s.Orderly) (hat : s.At i (.acquiring progress target errand))
    (hwaits : Relation.ReflTransGen s.Waits i j) :
    ∃ progress' target' errand', s.At j (.acquiring progress' target' errand') ∧
      (progress'.isAtWork = true ∨ target'.key = target.key) := by
  induction hwaits with
  | refl => exact ⟨progress, target, errand, hat, .inr rfl⟩
  | tail _ hstep ih =>
      obtain ⟨progress', target', errand', hat', hkey⟩ := ih
      rcases hkey with hwork | hkey
      · obtain ⟨stage, hstage, hmem⟩ := hstep
        rw [← hat'.unique hstage, holders_of_isAtWork hwork] at hmem
        simp at hmem
      · obtain ⟨progress'', target'', errand'', hat'', hcase⟩ := h.waits_cases hat' hstep
        refine ⟨progress'', target'', errand'', hat'', hcase.imp_right fun hturn => ?_⟩
        rw [← key_of_turn_mem hturn.2, hkey]

/-- Whoever waits, somebody he waits for can go on. -/
theorem Orderly.exists_step (h : s.Orderly) (hat : s.At i (.acquiring progress target errand)) :
    ∃ j, Relation.ReflTransGen s.Waits i j ∧ ∀ e o, (s.step e (.task j o)).isSome = true := by
  have hready {j : Nat} {progress : Acquisition} {target : Target} {errand : Errand}
      (hat : s.At j (.acquiring progress target errand))
      (hnone : s.holders (.acquiring progress target errand) = []) (e : Engine) (o : Outside) :
      (s.step e (.task j o)).isSome = true := step_isSome hat rfl hnone o
  have hwork {j : Nat} {progress : Acquisition} {target : Target} {errand : Errand}
      (hat : s.At j (.acquiring progress target errand)) (hwork : progress.isAtWork = true) :
      ∀ e o, (s.step e (.task j o)).isSome = true := hready hat (holders_of_isAtWork hwork)
  -- a task waits for the one that has the turn, which waits for one at work
  cases hholders : s.holders (.acquiring progress target errand) with
  | nil => exact ⟨i, .refl, hready hat hholders⟩
  | cons j others =>
      have hwaits : s.Waits i j := ⟨_, hat, by rw [hholders]; exact List.mem_cons_self⟩
      obtain ⟨progress', target', errand', hat', hcase⟩ := h.waits_cases hat hwaits
      rcases hcase with hat'' | ⟨-, hturn⟩
      · exact ⟨j, .single hwaits, hwork hat' hat''⟩
      · cases hholders' : s.holders (.acquiring progress' target' errand') with
        | nil => exact ⟨j, .single hwaits, hready hat' hholders'⟩
        | cons k others' =>
            have hwaits' : s.Waits j k := ⟨_, hat', by rw [hholders']; exact List.mem_cons_self⟩
            obtain ⟨progress'', target'', errand'', hat'', hcase⟩ := h.waits_cases hat' hwaits'
            rcases hcase with hwork' | ⟨rfl, -⟩
            · exact ⟨k, .tail (.single hwaits) hwaits', hwork hat'' hwork'⟩
            · simp [Acquisition.held] at hturn

end Waiting

end EngineState

end SemanticLayer
