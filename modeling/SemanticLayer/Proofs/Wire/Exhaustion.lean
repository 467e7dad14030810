import Mathlib.Data.List.Basic
import SemanticLayer.Wire.MySql.Pool
import SemanticLayer.Wire.Pool
/-!
Statements that run out of their time on a MySQL pool. Each holds its own connection while it waits for another one
over which it is stopped, so that as many of them as the pool has connections wait for one another without end.
-/
namespace SemanticLayer.Wire.MySql.SharedPool

variable {p p' : SharedPool} {size calls number other : Nat} {call next : Call} {move : Move}
  {moves : List (Nat × Move)}

/-- All connections are held by calls that are out of time and wait for another one. -/
def Exhausted (p : SharedPool) : Prop :=
  p.inUse = p.size ∧ ∀ call ∈ p.calls, 0 < call.held → call = .overdue

instance (p : SharedPool) : Decidable p.Exhausted :=
  inferInstanceAs (Decidable (p.inUse = p.size ∧ ∀ call ∈ p.calls, 0 < call.held → call = .overdue))

theorem step_eq_some_iff : p.step number move = some p' ↔ ∃ call next, p.calls[number]? = some call ∧
    moved (decide (p.inUse < p.size)) call move = some next ∧ p' = ⟨p.size, p.calls.set number next⟩ := by
  simp only [step, Option.bind_eq_bind, Option.bind_eq_some_iff, Option.pure_def, Option.some.injEq]
  constructor
  · rintro ⟨call, hcall, next, hnext, rfl⟩
    exact ⟨call, next, hcall, hnext, rfl⟩
  · rintro ⟨call, next, hcall, hnext, rfl⟩
    exact ⟨call, hcall, next, hnext, rfl⟩

theorem inUse_cons (size : Nat) (call : Call) (calls : List Call) :
    inUse ⟨size, call :: calls⟩ = call.held + inUse ⟨size, calls⟩ := rfl

theorem inUse_set (h : p.calls[number]? = some call) (next : Call) :
    inUse ⟨p.size, p.calls.set number next⟩ + call.held = p.inUse + next.held := by
  obtain ⟨size, calls⟩ := p
  dsimp only at h ⊢
  induction calls generalizing number with
  | nil => simp at h
  | cons first calls ih =>
      cases number with
      | zero =>
          obtain rfl : first = call := by simpa using h
          rw [List.set_cons_zero, inUse_cons, inUse_cons]
          omega
      | succ number =>
          have hrest := @ih number (by simpa using h)
          rw [List.set_cons_succ, inUse_cons, inUse_cons]
          omega

theorem inUse_append (size : Nat) (calls more : List Call) :
    inUse ⟨size, calls ++ more⟩ = inUse ⟨size, calls⟩ + inUse ⟨size, more⟩ := by
  induction calls with
  | nil => exact (Nat.zero_add _).symm
  | cons call calls ih => rw [List.cons_append, inUse_cons, inUse_cons, ih, Nat.add_assoc]

theorem inUse_replicate (size count : Nat) (call : Call) :
    inUse ⟨size, List.replicate count call⟩ = count * call.held := by
  induction count with
  | zero => exact (Nat.zero_mul _).symm
  | succ count ih => rw [List.replicate_succ, inUse_cons, ih, Nat.succ_mul, Nat.add_comm]

theorem run_append (p : SharedPool) (moves more : List (Nat × Move)) : p.run (moves ++ more) = (p.run moves).run more :=
  List.foldl_append

theorem run_cons_of_step (h : p.step number move = some p') (moves : List (Nat × Move)) :
    p.run ((number, move) :: moves) = p'.run moves := by
  rw [run, List.foldl_cons, h]
  rfl

theorem run_induction {P : SharedPool → Prop} (hp : P p)
    (hstep : ∀ p number move p', P p → p.step number move = some p' → P p') (moves : List (Nat × Move)) :
    P (p.run moves) := by
  induction moves generalizing p with
  | nil => exact hp
  | cons m moves ih =>
      apply ih (p := (p.step m.1 m.2).getD p)
      cases h : p.step m.1 m.2 with
      | none => exact hp
      | some p' => exact hstep p m.1 m.2 p' hp h

/-- A call takes a connection only where one is free. -/
theorem held_of_moved {free : Bool} (h : moved free call move = some next) :
    next.held ≤ call.held ∨ free = true ∧ next.held = call.held + 1 := by
  cases call <;> cases move <;> grind [moved, Call.held]

/-- What is in use and how many calls there are. -/
structure Sized (size calls : Nat) (p : SharedPool) : Prop where
  size_eq : p.size = size
  length_calls : p.calls.length = calls
  inUse_le : p.inUse ≤ size

theorem Sized.step (h : Sized size calls p) (hstep : p.step number move = some p') : Sized size calls p' := by
  obtain ⟨call, next, hcall, hnext, rfl⟩ := step_eq_some_iff.1 hstep
  refine ⟨h.size_eq, by rw [List.length_set, h.length_calls], ?_⟩
  have hsum := inUse_set hcall next
  have hle := h.inUse_le
  have hsize := h.size_eq
  rcases held_of_moved hnext with hheld | ⟨hfree, hheld⟩
  · omega
  · have hroom : p.inUse < p.size := of_decide_eq_true hfree
    omega

theorem sized_run (size calls : Nat) (moves : List (Nat × Move)) : Sized size calls ((fresh size calls).run moves) := by
  apply run_induction
  · refine ⟨rfl, List.length_replicate, ?_⟩
    simp [fresh, inUse_replicate, Call.held]
  · intro p number move p' hp hstep
    exact hp.step hstep

/-! ## Calls that wait for one another -/

/-- Where no connection is free and those who hold one wait, nobody who waits for a second one moves. -/
theorem Exhausted.step (h : p.Exhausted) (hstep : p.step number move = some p') :
    p'.Exhausted ∧ ∀ other : Nat, p.calls[other]? = some .overdue → p'.calls[other]? = some .overdue := by
  obtain ⟨call, next, hcall, hnext, rfl⟩ := step_eq_some_iff.1 hstep
  have hfull : decide (p.inUse < p.size) = false := by
    rw [h.1]
    exact decide_eq_false (Nat.lt_irrefl _)
  rw [hfull] at hnext
  have hidle : call = .waiting ∧ next = .ended false := by
    have hheld := h.2 call (List.mem_of_getElem? hcall)
    cases call <;> cases move <;> simp_all [moved, Call.held]
  obtain ⟨rfl, rfl⟩ := hidle
  refine ⟨⟨(inUse_set hcall (.ended false)).trans h.1, ?_⟩, ?_⟩
  · intro call hmem hheld
    rcases List.mem_or_eq_of_mem_set hmem with hmem | rfl
    · exact h.2 call hmem hheld
    · simp [Call.held] at hheld
  · intro other hother
    rw [List.getElem?_set_ne, hother]
    rintro rfl
    simp [hcall] at hother

theorem Exhausted.run (h : p.Exhausted) (hnumber : p.calls[number]? = some .overdue) (moves : List (Nat × Move)) :
    (p.run moves).Exhausted ∧ (p.run moves).calls[number]? = some .overdue := by
  refine run_induction (P := fun p => p.Exhausted ∧ p.calls[number]? = some .overdue) ⟨h, hnumber⟩ ?_ moves
  rintro p other move p' ⟨h, hnumber⟩ hstep
  exact ⟨(h.step hstep).1, (h.step hstep).2 number hnumber⟩

def expiring : Nat → List (Nat × Move)
  | 0 => []
  | count + 1 => expiring count ++ [(count, .get), (count, .expire)]

theorem run_expiring {count : Nat} (hsize : count ≤ size) (hcalls : count ≤ calls) :
    (fresh size calls).run (expiring count) =
      ⟨size, List.replicate count .overdue ++ List.replicate (calls - count) .waiting⟩ := by
  induction count with
  | zero => rfl
  | succ count ih =>
      obtain ⟨more, hmore⟩ : ∃ more, calls - count = more + 1 := ⟨calls - (count + 1), by omega⟩
      have hrest : calls - (count + 1) = more := by omega
      rw [expiring, run_append, ih (by omega) (by omega), hmore, hrest, List.replicate_succ]
      have hget : step ⟨size, List.replicate count .overdue ++ .waiting :: List.replicate more .waiting⟩ count .get =
          some ⟨size, List.replicate count .overdue ++ .running :: List.replicate more .waiting⟩ := by
        refine step_eq_some_iff.2 ⟨.waiting, .running, by simp, ?_, by simp⟩
        have hroom : count < size := by omega
        simp [moved, inUse_append, inUse_cons, inUse_replicate, Call.held, hroom]
      have hexpire : step ⟨size, List.replicate count .overdue ++ .running :: List.replicate more .waiting⟩ count
          .expire = some ⟨size, List.replicate count .overdue ++ .overdue :: List.replicate more .waiting⟩ :=
        step_eq_some_iff.2 ⟨.running, .overdue, by simp, rfl, by simp⟩
      rw [run_cons_of_step hget, run_cons_of_step hexpire, List.replicate_succ', List.append_assoc]
      rfl

theorem inUse_le_length (h : ∀ call ∈ p.calls, 0 < call.held → call = .overdue) : p.inUse ≤ p.calls.length := by
  obtain ⟨size, calls⟩ := p
  dsimp only at h ⊢
  induction calls with
  | nil => exact Nat.le_refl 0
  | cons call calls ih =>
      have hrest := ih fun other hother => h other (List.mem_cons_of_mem _ hother)
      have hheld : call.held ≤ 1 := by
        rcases Nat.eq_zero_or_pos call.held with hnone | hsome
        · omega
        · rw [h call List.mem_cons_self hsome]
          decide
      rw [inUse_cons, List.length_cons]
      omega

theorem exhausted_reachable_iff : (∃ moves, ((fresh size calls).run moves).Exhausted) ↔ size ≤ calls := by
  constructor
  · rintro ⟨moves, hfull, hheld⟩
    have hsized := sized_run size calls moves
    have hle := inUse_le_length hheld
    rw [hsized.length_calls] at hle
    rw [← hsized.size_eq, ← hfull]
    exact hle
  · intro hle
    refine ⟨expiring size, ?_⟩
    rw [run_expiring (Nat.le_refl size) hle]
    refine ⟨by simp [inUse_append, inUse_replicate, Call.held], ?_⟩
    intro call hmem hheld
    rcases List.mem_append.1 hmem with hmem | hmem
    · exact List.eq_of_mem_replicate hmem
    · rw [List.eq_of_mem_replicate hmem] at hheld
      simp [Call.held] at hheld

/-! ## Calls that report that they are late -/

/-- A call that can get a second connection stops its statement and reports. -/
theorem exists_run_ended (hroom : p.inUse < p.size) (h : p.calls[number]? = some .overdue) :
    ∃ moves, (p.run moves).calls[number]? = some (.ended true) := by
  have hlength : number < p.calls.length := (List.getElem?_eq_some_iff.1 h).1
  have hget : p.step number .get = some ⟨p.size, p.calls.set number .stopping⟩ :=
    step_eq_some_iff.2 ⟨.overdue, .stopping, h, by simp [moved, hroom], rfl⟩
  have hanswer : step ⟨p.size, p.calls.set number .stopping⟩ number .answer =
      some ⟨p.size, (p.calls.set number .stopping).set number (.ended true)⟩ :=
    step_eq_some_iff.2 ⟨.stopping, .ended true, List.getElem?_set_self hlength, rfl, rfl⟩
  refine ⟨[(number, .get), (number, .answer)], ?_⟩
  rw [run_cons_of_step hget, run_cons_of_step hanswer]
  exact List.getElem?_set_self (by simpa using hlength)

/-- The call that neither waits nor is at its end can be answered. -/
theorem exists_answer (hheld : 0 < call.held) (hcall : call ≠ .overdue) (free : Bool) :
    ∃ late, moved free call .answer = some (.ended late) := by
  cases call with
  | running => exact ⟨false, rfl⟩
  | stopping => exact ⟨true, rfl⟩
  | overdue => exact absurd rfl hcall
  | waiting => simp [Call.held] at hheld
  | ended late => simp [Call.held] at hheld

theorem Sized.exists_run_ended (h : Sized size calls p) (hnumber : p.calls[number]? = some .overdue)
    (hexhausted : ¬p.Exhausted) : ∃ moves, (p.run moves).calls[number]? = some (.ended true) := by
  by_cases hroom : p.inUse < p.size
  · exact SharedPool.exists_run_ended hroom hnumber
  · have hfull : p.inUse = p.size := by
      have hle := h.inUse_le
      have hsize := h.size_eq
      omega
    obtain ⟨call, hmem, hheld, hcall⟩ : ∃ call ∈ p.calls, 0 < call.held ∧ call ≠ .overdue := by
      by_contra hnone
      refine hexhausted ⟨hfull, fun call hmem hheld => ?_⟩
      by_contra hcall
      exact hnone ⟨call, hmem, hheld, hcall⟩
    obtain ⟨other, hother⟩ := List.mem_iff_getElem?.1 hmem
    obtain ⟨late, hanswer⟩ := exists_answer hheld hcall (decide (p.inUse < p.size))
    -- the answer to another call sets a connection free
    have hstep : p.step other .answer = some ⟨p.size, p.calls.set other (.ended late)⟩ :=
      step_eq_some_iff.2 ⟨call, .ended late, hother, hanswer, rfl⟩
    have hne : other ≠ number := by
      rintro rfl
      rw [hnumber] at hother
      exact hcall (Option.some.inj hother).symm
    have hlater : inUse ⟨p.size, p.calls.set other (.ended late)⟩ < p.size := by
      have hsum := inUse_set hother (.ended late)
      have hnone : (Call.ended late).held = 0 := rfl
      omega
    obtain ⟨moves, hmoves⟩ := SharedPool.exists_run_ended (p := ⟨p.size, p.calls.set other (.ended late)⟩) hlater
      (by rw [List.getElem?_set_ne hne, hnumber])
    exact ⟨(other, .answer) :: moves, by rw [run_cons_of_step hstep, hmoves]⟩

end SemanticLayer.Wire.MySql.SharedPool

namespace SemanticLayer.Wire.Pool

variable {p : Pool} {server : Server} {s : Session}

theorem setup_connect : (p.connect server).1.connection = p.connection ∧
    (p.connect server).1.settings = p.settings := by
  unfold connect
  split
  · exact ⟨rfl, rfl⟩
  · exact ⟨rfl, rfl⟩
  · grind [see]

theorem setup_usable : (p.usable server s).1.connection = p.connection ∧
    (p.usable server s).1.settings = p.settings := by
  grind [usable, see]

theorem setup_get : (p.get server).1.connection = p.connection ∧ (p.get server).1.settings = p.settings := by
  unfold get
  split
  · exact ⟨rfl, rfl⟩
  · split
    · exact ⟨rfl, rfl⟩
    · split
      · exact setup_connect
      · rename_i s hidle
        have husable := @setup_usable { p with idle := none } server s
        dsimp only
        split
        · exact husable
        · exact ⟨setup_connect.1.trans husable.1, setup_connect.2.trans husable.2⟩

theorem stop_eq_none_iff : p.stop server s = none ↔ p.connection.database = .mysql ∧ p.settings.size ≤ 1 := by
  unfold stop
  split
  · simp [*]
  · rename_i hmysql
    split
    · simp [*]
    · split <;> simp [*]
  · simp [*]

/-- A call that is alone on its pool never comes back if it is out of time and has taken the last connection. -/
theorem execute_eq_none_iff (sql : String) (limit : Nat) : (p.execute server sql limit).2 = none ↔
    p.connection.database = .mysql ∧ server.response sql = .never ∧ (∃ s, (p.get server).2 = .ok s) ∧
      (MySql.SharedPool.mk (max 1 p.settings.size) [.overdue]).Exhausted := by
  have hexhausted : (MySql.SharedPool.mk (max 1 p.settings.size) [.overdue]).Exhausted ↔ p.settings.size ≤ 1 := by
    constructor
    · rintro ⟨hfull, -⟩
      change 1 = max 1 p.settings.size at hfull
      omega
    · intro hsize
      refine ⟨?_, fun call hmem _ => List.mem_singleton.1 hmem⟩
      change 1 = max 1 p.settings.size
      omega
  obtain ⟨hconnection, hsettings⟩ := @setup_get p server
  rw [hexhausted, ← hconnection, ← hsettings, execute]
  cases hget : p.get server with
  | mk got outcome =>
      cases outcome with
      | error f => simp
      | ok s =>
          dsimp only
          cases hresponse : server.response sql with
          | never =>
              have hstop : (got.see sql).stop server s = none ↔
                  got.connection.database = .mysql ∧ got.settings.size ≤ 1 := stop_eq_none_iff
              cases hstopped : (got.see sql).stop server s with
              | none => simpa [hstopped] using hstop
              | some stopped => simpa [hstopped] using hstop
          | result r => simp
          | fault f => simp
          | hangup => simp

end SemanticLayer.Wire.Pool

namespace SemanticLayer.Wire.MySql.SharedPool

/-- As many calls as there are connections can come to wait for one another, and only then is a call that is out of
time not able to say so. -/
theorem timeout_reported_iff (size calls : Nat) :
    ((∃ moves, ((fresh size calls).run moves).Exhausted) ↔ size ≤ calls) ∧
      (∀ moves (number : Nat), ((fresh size calls).run moves).calls[number]? = some .overdue →
        ((∃ later, (((fresh size calls).run moves).run later).calls[number]? = some (.ended true)) ↔
          ¬((fresh size calls).run moves).Exhausted)) ∧
      ∀ (p : Pool) (server : Server) (sql : String) (limit : Nat), (p.execute server sql limit).2 = none ↔
        p.connection.database = .mysql ∧ server.response sql = .never ∧ (∃ s, (p.get server).2 = .ok s) ∧
          (SharedPool.mk (max 1 p.settings.size) [.overdue]).Exhausted := by
  refine ⟨exhausted_reachable_iff, ?_, fun p server sql limit => Pool.execute_eq_none_iff sql limit⟩
  intro moves number hnumber
  constructor
  · rintro ⟨later, hended⟩ hexhausted
    have hstill := (hexhausted.run hnumber later).2
    rw [hended] at hstill
    simp at hstill
  · intro hexhausted
    exact (sized_run size calls moves).exists_run_ended hnumber hexhausted

/-- Of two calls on two connections the first can report its timeout as long as the second is not late as well. -/
theorem timeout_reported_iff_pair :
    (∃ later, (((fresh 2 2).run [(0, .get), (1, .get), (0, .expire)]).run later).calls[0]? = some (.ended true)) ∧
      ¬∃ later, (((fresh 2 2).run [(0, .get), (1, .get), (0, .expire), (1, .expire)]).run later).calls[0]? =
        some (.ended true) := by
  constructor
  · exact ((timeout_reported_iff 2 2).2.1 [(0, .get), (1, .get), (0, .expire)] 0 (by decide)).2 (by decide)
  · have hexhausted : ((fresh 2 2).run [(0, .get), (1, .get), (0, .expire), (1, .expire)]).Exhausted := by decide
    intro hreported
    exact ((timeout_reported_iff 2 2).2.1 _ 0 (by decide)).1 hreported hexhausted

/-- On a pool of one connection a single call that runs out of its time waits for itself. -/
theorem lone_timeout_unreported : ∃ moves, ((fresh 1 1).run moves).Exhausted ∧
    ∀ later, (((fresh 1 1).run moves).run later).calls[0]? = some .overdue := by
  have hexhausted : ((fresh 1 1).run [(0, .get), (0, .expire)]).Exhausted := by decide
  refine ⟨[(0, .get), (0, .expire)], hexhausted, ?_⟩
  intro later
  exact (hexhausted.run (by decide) later).2

end SemanticLayer.Wire.MySql.SharedPool
