import SemanticLayer.Proofs.Sandbox.Opening
import SemanticLayer.Raw
/-!
The place of the request that is told for a place of the statement that ran. It is found by looking for the
user's own statement in the limited one, where what the limit puts around it can be taken for it.
-/
namespace SemanticLayer

namespace Raw

open SemanticLayer.Statement (wrapInLimit)

variable {s u front behind : List Char}

/-! ## The first occurrence -/

theorem offset?_append (hs : s ≠ []) (hfront : ∀ c ∈ front, s.head? ≠ some c) (behind : List Char) :
    offset? s (front ++ (s ++ behind)) = some front.length := by
  obtain ⟨c, rest, rfl⟩ := List.exists_cons_of_ne_nil hs
  induction front with
  | nil =>
      have hprefix : (c :: rest).isPrefixOf (c :: (rest ++ behind)) = true :=
        List.isPrefixOf_iff_prefix.2 (List.prefix_append (c :: rest) behind)
      rw [List.nil_append, List.cons_append, offset?, if_pos hprefix, List.length_nil]
  | cons d front ih =>
      have hprefix : ¬(c :: rest).isPrefixOf (d :: (front ++ (c :: rest ++ behind))) = true := by
        intro h
        have hcd := (List.cons_prefix_cons.1 (List.isPrefixOf_iff_prefix.1 h)).1
        exact hfront d List.mem_cons_self (by rw [hcd, List.head?_cons])
      rw [List.cons_append, offset?, if_neg hprefix, ih fun e he => hfront e (List.mem_cons_of_mem d he),
        List.length_cons]
      rfl

/-- A text goes on as it began behind another one if it is that one again and again. -/
theorem prefix_append_self_iff (hu : u ≠ []) :
    s <+: u ++ s ↔ ∃ n, s <+: (List.replicate n u).flatten := by
  constructor
  · intro h
    induction hn : s.length using Nat.strongRecOn generalizing s with
    | _ n ih =>
      rcases le_total s.length u.length with hshort | hlong
      · exact ⟨1, by simpa using List.prefix_of_prefix_length_le h (List.prefix_append u s) hshort⟩
      · -- What is left behind the first `u` is shorter and goes on in the same way.
        obtain ⟨rest, rfl⟩ := List.prefix_of_prefix_length_le (List.prefix_append u s) h hlong
        have hlength : rest.length < n := by
          rw [← hn, List.length_append]
          exact Nat.lt_add_of_pos_left (List.length_pos_of_ne_nil hu)
        obtain ⟨m, hm⟩ := ih rest.length hlength ((List.prefix_append_right_inj u).1 h) rfl
        refine ⟨m + 1, ?_⟩
        rw [List.replicate_succ, List.flatten_cons]
        exact (List.prefix_append_right_inj u).2 hm
  · rintro ⟨n, hn⟩
    have hcommute : u ++ (List.replicate n u).flatten = (List.replicate n u).flatten ++ u := by
      rw [← List.flatten_cons, ← List.replicate_succ, List.replicate_succ', List.flatten_append,
        List.flatten_singleton]
    have hwhole : u ++ s <+: (List.replicate n u).flatten ++ u := by
      rw [← hcommute]
      exact (List.prefix_append_right_inj u).2 hn
    exact List.prefix_of_prefix_length_le (hn.trans (List.prefix_append _ _)) hwhole (by simp)

/-! ## The statement in the limited text -/

/-- What a limit puts in front of a statement. -/
def opening : List Char :=
  "SELECT * FROM (\n".toList

theorem opening_eq_cons : opening = 'S' :: opening.tail := by
  decide

/-- The text begins as what a limit puts in front of it does, again and again, as far as it goes. -/
def RepeatsOpening (s : List Char) : Prop :=
  ∃ n, s <+: (List.replicate n opening).flatten

theorem repeatsOpening_iff (behind : List Char) :
    RepeatsOpening s ↔ s <+: opening ++ (s ++ behind) := by
  have hself : s <+: opening ++ s ↔ RepeatsOpening s := prefix_append_self_iff (by decide)
  have hwhole : opening ++ s <+: opening ++ (s ++ behind) :=
    (List.prefix_append_right_inj opening).2 (List.prefix_append s behind)
  rw [← hself]
  exact ⟨fun h => h.trans hwhole, fun h => List.prefix_of_prefix_length_le h hwhole (by simp)⟩

theorem offset?_of_repeatsOpening (h : RepeatsOpening s) (behind : List Char) :
    offset? s (opening ++ (s ++ behind)) = some 0 := by
  have hprefix := List.isPrefixOf_iff_prefix.2 ((repeatsOpening_iff behind).1 h)
  rw [opening_eq_cons, List.cons_append] at hprefix ⊢
  rw [offset?, if_pos hprefix]

theorem offset?_of_not_repeatsOpening (hs : s ≠ []) (hhead : ∀ c ∈ opening.tail, s.head? ≠ some c)
    (h : ¬RepeatsOpening s) (behind : List Char) :
    offset? s (opening ++ (s ++ behind)) = some opening.length := by
  have hprefix : ¬s.isPrefixOf (opening ++ (s ++ behind)) = true := fun hfound =>
    h ((repeatsOpening_iff behind).2 (List.isPrefixOf_iff_prefix.1 hfound))
  rw [opening_eq_cons, List.cons_append] at hprefix ⊢
  rw [offset?, if_neg hprefix, offset?_append hs hhead, List.length_cons]
  rfl

/-! ## The place that is told -/

theorem place?_eq_some_iff {sql own limited : String} {start lead p q : Nat}
    (hstart : offset? own.toList limited.toList = some start)
    (hlead : offset? own.toList sql.toList = some lead) :
    place? sql ⟨own, limited⟩ p = some q ↔
      ∃ i < own.toList.length, p = start + i + 1 ∧ q = lead + i + 1 := by
  have hplace : place? sql ⟨own, limited⟩ p =
      if start < p ∧ p ≤ start + own.length then some (p - start + lead) else none := by
    simp [place?, hstart, hlead]
  rw [hplace, String.length_toList]
  constructor
  · intro h
    split at h
    · obtain rfl := Option.some.inj h
      exact ⟨p - start - 1, by omega, by omega, by omega⟩
    · simp at h
  · rintro ⟨i, hi, rfl, rfl⟩
    rw [if_pos (by omega)]
    exact congrArg some (by omega)

variable {db : Database} {settings : SandboxSettings} {sql own : String} {e : ExecutionFailure} {p : Nat}
  {execute : String → Except Failure ResultSet}

/-- The blanks in front of a statement in the text of a request. -/
def leading (sql : String) : List Char :=
  sql.toList.takeWhile Text.isBlank

/-- A place in the limited statement and one in the request, both counted from 1, that hold the same character
of the user's own statement. -/
def SameCharacter (limited sql own : String) (p q : Nat) : Prop :=
  ∃ i c, own.toList[i]? = some c ∧ p = opening.length + i + 1 ∧ q = (leading sql).length + i + 1 ∧
    limited.toList[p - 1]? = some c ∧ sql.toList[q - 1]? = some c

theorem exists_leading_append (hown : Sandbox.validate db sql = .ok own) :
    ∃ behind, sql.toList = leading sql ++ (own.toList ++ behind) := by
  obtain ⟨-, rfl⟩ := Sandbox.validate_eq_ok_iff.1 hown
  have hfirm := (Sandbox.passes_of_validate hown).2
  rw [String.toList_ofList] at hfirm ⊢
  obtain ⟨front, behind, hcut, hfront, -⟩ := Statement.cutsTo_withoutSemicolons sql.toList
  refine ⟨behind, ?_⟩
  have hleading : leading sql = front := by
    rw [leading, hcut, List.append_assoc, List.takeWhile_append_of_pos hfront]
    obtain ⟨c, rest, hcons⟩ := List.exists_cons_of_ne_nil hfirm.ne_nil
    have hc := hfirm.head
    rw [hcons, List.head?_cons, Option.any_some] at hc
    rw [hcons, List.cons_append, List.takeWhile_cons_of_neg (by simp [hc]), List.append_nil]
  rw [hleading, ← List.append_assoc]
  exact hcut

theorem exists_opening_append (hown : Sandbox.validate db sql = .ok own) (limit : Nat) :
    ∃ behind, (wrapInLimit own limit).toList = opening ++ (own.toList ++ behind) :=
  ⟨_, Sandbox.wrapInLimit_toList (Sandbox.passes_of_validate hown).2 limit⟩

theorem head?_ne_of_validate (hown : Sandbox.validate db sql = .ok own) :
    ∀ c ∈ opening.tail, own.toList.head? ≠ some c := by
  obtain ⟨c, rest, hcons, hblank, hopens⟩ := Sandbox.exists_head_of_validate hown
  have htail : opening.tail.all (fun d => Text.isBlank d ||
      !(['-', '#', '/'].contains d || ['s', 'w'].contains d.toLower)) = true := by decide
  intro d hd hhead
  obtain rfl : c = d := by simpa [hcons] using hhead
  obtain ⟨hgap, hword⟩ : c ∉ ['-', '#', '/'] ∧ c.toLower ∉ ['s', 'w'] := by
    simpa [hblank] using List.all_eq_true.1 htail c hd
  exact hopens.elim hgap hword

theorem sameCharacter_iff (hown : Sandbox.validate db sql = .ok own) {limit q : Nat} :
    SameCharacter (wrapInLimit own limit) sql own p q ↔
      ∃ i < own.toList.length, p = opening.length + i + 1 ∧ q = (leading sql).length + i + 1 := by
  obtain ⟨behind, hsql⟩ := exists_leading_append hown
  obtain ⟨more, hlimited⟩ := exists_opening_append hown limit
  constructor
  · rintro ⟨i, c, hc, hp, hq, -⟩
    exact ⟨i, (List.getElem?_eq_some_iff.1 hc).1, hp, hq⟩
  · rintro ⟨i, hi, rfl, rfl⟩
    have hchar (front behind : List Char) :
        (front ++ (own.toList ++ behind))[front.length + i + 1 - 1]? = some own.toList[i] := by
      rw [Nat.add_sub_cancel, List.getElem?_append_right (Nat.le_add_right _ i), Nat.add_sub_cancel_left,
        List.getElem?_append_left hi, List.getElem?_eq_getElem hi]
    refine ⟨i, _, List.getElem?_eq_getElem hi, rfl, rfl, ?_, ?_⟩
    · rw [hlimited]
      exact hchar opening more
    · rw [hsql]
      exact hchar (leading sql) behind

theorem prepare_eq (hdb : db ≠ .mssql) (hown : Sandbox.validate db sql = .ok own) :
    prepare db settings sql = .ok ⟨own, wrapInLimit own settings.rowLimit⟩ := by
  unfold prepare
  rw [hown]
  cases db with
  | mssql => exact absurd rfl hdb
  | postgresql => rfl
  | mysql => rfl

theorem run_eq_of_execution (hdb : db ≠ .mssql) (hown : Sandbox.validate db sql = .ok own)
    (hfails : execute (wrapInLimit own settings.rowLimit) = .error (.execution e)) :
    run db settings sql execute = .error (.execution { e with
      position := e.position.bind (place? sql ⟨own, wrapInLimit own settings.rowLimit⟩) }) := by
  unfold run
  rw [prepare_eq hdb hown]
  change Except.bind (Except.mapError _ (execute _)) _ = _
  rw [hfails]
  rfl

/-- What is told for a place that the database complains about: the same character of the user's own statement
in the request, and nothing for a place outside of it. A statement that goes on like the text in front of it is
found there, and every place is taken for one that stands a whole opening further on. -/
theorem run_position (hdb : db ≠ .mssql) (hown : Sandbox.validate db sql = .ok own)
    (hfails : execute (wrapInLimit own settings.rowLimit) = .error (.execution e))
    (hp : e.position = some p) :
    ∃ told, run db settings sql execute = .error (.execution { e with position := told }) ∧
      (¬RepeatsOpening own.toList → ∀ q, told = some q ↔
        SameCharacter (wrapInLimit own settings.rowLimit) sql own p q) ∧
      (RepeatsOpening own.toList → ∀ q, told = some q ↔
        SameCharacter (wrapInLimit own settings.rowLimit) sql own (p + opening.length) q) := by
  have hfirm := (Sandbox.passes_of_validate hown).2
  obtain ⟨more, hlimited⟩ := exists_opening_append hown settings.rowLimit
  obtain ⟨behind, hsql⟩ := exists_leading_append hown
  have hlead : offset? own.toList sql.toList = some (leading sql).length := by
    rw [hsql]
    refine offset?_append hfirm.ne_nil (fun c hc hhead => ?_) behind
    have hblank := hfirm.head
    rw [hhead, Option.any_some, List.mem_takeWhile_imp hc] at hblank
    exact Bool.noConfusion hblank
  refine ⟨_, run_eq_of_execution hdb hown hfails, ?_, ?_⟩
  · intro hrepeats q
    have hstart := offset?_of_not_repeatsOpening hfirm.ne_nil (head?_ne_of_validate hown) hrepeats more
    rw [← hlimited] at hstart
    rw [hp, Option.bind_some, place?_eq_some_iff hstart hlead, sameCharacter_iff hown]
  · intro hrepeats q
    have hstart := offset?_of_repeatsOpening hrepeats more
    rw [← hlimited] at hstart
    rw [hp, Option.bind_some, place?_eq_some_iff hstart hlead, sameCharacter_iff hown]
    -- Found in the opening, the statement is taken to start one opening earlier than it does.
    refine exists_congr fun i => and_congr_right fun _ => and_congr_left fun _ => ?_
    omega

theorem run_position_misspelled :
    Sandbox.validate .postgresql "\n  SELECT a FORM t;" = .ok "SELECT a FORM t" ∧
      run .postgresql ⟨1000, 10⟩ "\n  SELECT a FORM t;"
          (fun _ => .error (.execution ⟨"syntax error", none, some 26⟩)) =
        .error (.execution ⟨"syntax error", none, some 13⟩) := by
  have hown : Sandbox.validate .postgresql "\n  SELECT a FORM t;" = .ok "SELECT a FORM t" := by decide +kernel
  obtain ⟨told, hrun, hright, -⟩ := @run_position .postgresql ⟨1000, 10⟩ _ _ _ 26
    (fun _ => .error (.execution ⟨"syntax error", none, some 26⟩)) (by decide) hown rfl rfl
  have hrepeats : ¬RepeatsOpening "SELECT a FORM t".toList := fun h =>
    absurd ((repeatsOpening_iff []).1 h) (by decide)
  obtain rfl : told = some 13 :=
    (hright hrepeats 13).2 ((sameCharacter_iff hown).2 ⟨9, by decide, by decide, by decide⟩)
  exact ⟨hown, hrun⟩

/-- A statement that is the beginning of what the limit puts in front of it is taken for that. -/
theorem run_position_lost : ¬∀ (db : Database) (settings : SandboxSettings) (sql own : String)
    (execute : String → Except Failure ResultSet) (e : ExecutionFailure) (p : Nat), db ≠ .mssql →
    Sandbox.validate db sql = .ok own →
    execute (wrapInLimit own settings.rowLimit) = .error (.execution e) →
    e.position = some p →
    ∃ told, run db settings sql execute = .error (.execution { e with position := told }) ∧
      ∀ q, told = some q ↔ SameCharacter (wrapInLimit own settings.rowLimit) sql own p q := by
  intro h
  have hown : Sandbox.validate .postgresql "SELECT *" = .ok "SELECT *" := by decide +kernel
  obtain ⟨told, hrun, hright⟩ := h .postgresql ⟨30000, 1000⟩ "SELECT *" "SELECT *"
    (fun _ => .error (.execution ⟨"no tables specified", some "42601", some 24⟩)) _ 24 (by decide) hown rfl rfl
  obtain rfl : told = some 8 :=
    (hright 8).2 ((sameCharacter_iff hown).2 ⟨7, by decide, by decide, by decide⟩)
  rw [run_eq_of_execution (by decide) hown rfl] at hrun
  simp only [Except.error.injEq, Failure.execution.injEq, ExecutionFailure.mk.injEq, true_and] at hrun
  exact absurd hrun (by decide +kernel)

end Raw

end SemanticLayer
