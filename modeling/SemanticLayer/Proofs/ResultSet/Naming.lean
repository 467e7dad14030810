import Mathlib.Data.List.Perm.Subperm
import Mathlib.Data.List.Range
import SemanticLayer.Proofs.Json.Merging
import SemanticLayer.Proofs.ResultSet
/-!
The names of result columns. Each column gets the first form of its name that no column in front of it has, so that
names are apart and rows are records without loss; a column may however find its own name given away.
-/
namespace SemanticLayer

namespace ResultSet

variable {taken names columns : List String} {name candidate fresh : String} {number i j k : Nat}

/-! ## Forms of a name -/

/-- The forms in which a name is tried: as it is, and then with a number behind it. -/
def form (name : String) : Nat → String
  | 0 => name
  | k + 1 => name ++ "_" ++ toString (k + 1)

theorem form_ne_self (name : String) (k : Nat) : form name (k + 1) ≠ name := by
  intro h
  have hlength := congrArg String.length h
  have hunderscore : "_".length = 1 := rfl
  rw [form, String.length_append, String.length_append, hunderscore] at hlength
  omega

theorem form_injective (name : String) : Function.Injective (form name) := by
  intro i j h
  match i, j with
  | 0, 0 => rfl
  | 0, j + 1 => exact absurd h.symm (form_ne_self name j)
  | i + 1, 0 => exact absurd h (form_ne_self name i)
  | i + 1, j + 1 => exact numbered_injective h

/-- Of one form more than names are taken one is free. -/
theorem exists_form_not_mem (taken : List String) (name : String) : ∃ k ≤ taken.length, form name k ∉ taken := by
  by_contra! hall
  have hsubset : (List.range (taken.length + 1)).map (form name) ⊆ taken := by
    intro c hc
    obtain ⟨k, hk, rfl⟩ := List.mem_map.1 hc
    exact hall k (Nat.le_of_lt_succ (List.mem_range.1 hk))
  have hnodup : ((List.range (taken.length + 1)).map (form name)).Nodup :=
    List.nodup_range.map (form_injective name)
  have hlength := (List.Nodup.subperm hnodup hsubset).length_le
  rw [List.length_map, List.length_range] at hlength
  omega

/-! ## The search for a name -/

/-- The search for a name that is not taken, from a candidate on and without a bound for its length. -/
inductive Finds (taken : List String) (name : String) : Nat → String → String → Prop
  | free {number : Nat} {candidate : String} (h : candidate ∉ taken) : Finds taken name number candidate candidate
  | next {number : Nat} {candidate fresh : String} (h : candidate ∈ taken)
      (hnext : Finds taken name (number + 1) (name ++ "_" ++ toString number) fresh) :
      Finds taken name number candidate fresh

theorem Finds.unique {other : String} (h : Finds taken name number candidate fresh)
    (h' : Finds taken name number candidate other) : fresh = other := by
  induction h with
  | free hfree =>
      cases h' with
      | free => rfl
      | next hmem => exact absurd hmem hfree
  | next hmem _ ih =>
      cases h' with
      | free hfree => exact absurd hmem hfree
      | next _ hnext => exact ih hnext

/-- Of the forms from a given one on the search finds the first that is free. -/
theorem Finds.exists_form (h : Finds taken name (k + 1) (form name k) fresh) :
    ∃ m ≥ k, fresh = form name m ∧ form name m ∉ taken ∧ ∀ i, k ≤ i → i < m → form name i ∈ taken := by
  generalize hnumber : k + 1 = number at h
  generalize hcandidate : form name k = candidate at h
  induction h generalizing k with
  | free hfree =>
      subst hcandidate
      exact ⟨k, le_rfl, rfl, hfree, fun i hle hlt => absurd hle (not_le.2 hlt)⟩
  | next hmem _ ih =>
      subst hnumber hcandidate
      obtain ⟨m, hle, hfresh, hfree, hbelow⟩ := ih rfl rfl
      refine ⟨m, by omega, hfresh, hfree, fun i hi hlt => ?_⟩
      rcases Nat.eq_or_lt_of_le hi with rfl | hgt
      · exact hmem
      · exact hbelow i hgt hlt

/-- As long as a form within the number of tries is free, the bounded search does what the unbounded one does. -/
theorem finds_freshName {tries : Nat} (h : ∃ m < tries, form name (k + m) ∉ taken) :
    Finds taken name (k + 1) (form name k) (freshName taken name tries (k + 1) (form name k)) := by
  induction tries generalizing k with
  | zero =>
      obtain ⟨m, hm, -⟩ := h
      exact absurd hm (Nat.not_lt_zero m)
  | succ tries ih =>
      rw [freshName]
      split
      · rename_i hcontains
        have hmem : form name k ∈ taken := List.contains_iff_mem.1 hcontains
        obtain ⟨m, hm, hfree⟩ := h
        obtain ⟨m, rfl⟩ : ∃ l, m = l + 1 := Nat.exists_eq_succ_of_ne_zero (by rintro rfl; exact hfree hmem)
        refine .next hmem (ih ⟨m, by omega, ?_⟩)
        rwa [Nat.add_right_comm, Nat.add_assoc]
      · rename_i hcontains
        exact .free (mt List.contains_iff_mem.2 hcontains)

theorem finds_fresh (taken : List String) (name : String) :
    Finds taken name 1 name (freshName taken name (taken.length + 1) 1 name) := by
  obtain ⟨m, hm, hfree⟩ := exists_form_not_mem taken name
  exact finds_freshName (k := 0) ⟨m, Nat.lt_succ_of_le hm, by rwa [Nat.zero_add]⟩

/-! ## The columns of a result -/

/-- How columns are named from left to right, each by a search of its own. -/
inductive Naming : List String → List String → List String → Prop
  | nil {taken : List String} : Naming taken [] []
  | cons {taken names columns : List String} {name fresh : String} (hfresh : Finds taken name 1 name fresh)
      (hrest : Naming (fresh :: taken) names columns) : Naming taken (name :: names) (fresh :: columns)

theorem naming_distinctNames (taken names : List String) : Naming taken names (distinctNames taken names) := by
  induction names generalizing taken with
  | nil => exact .nil
  | cons name names ih => exact .cons (finds_fresh taken name) (ih _)

namespace Naming

theorem unique {others : List String} (h : Naming taken names columns) (h' : Naming taken names others) :
    columns = others := by
  induction h generalizing others with
  | nil =>
      cases h'
      rfl
  | cons hfresh _ ih =>
      cases h' with
      | cons hfresh' hrest' =>
          obtain rfl := hfresh.unique hfresh'
          rw [ih hrest']

theorem length_eq (h : Naming taken names columns) : columns.length = names.length := by
  induction h with
  | nil => rfl
  | cons _ _ ih => rw [List.length_cons, List.length_cons, ih]

/-- A column has the first form of its name that is neither taken nor the name of a column in front of it. -/
theorem exists_form (h : Naming taken names columns) (hname : names[j]? = some name) :
    ∃ k, columns[j]? = some (form name k) ∧ form name k ∉ taken ++ columns.take j ∧
      ∀ i < k, form name i ∈ taken ++ columns.take j := by
  induction h generalizing j with
  | nil => simp at hname
  | @cons taken names columns first fresh hfresh _ ih =>
      cases j with
      | zero =>
          obtain rfl : first = name := Option.some.inj hname
          obtain ⟨m, -, rfl, hfree, hbelow⟩ := Finds.exists_form (k := 0) hfresh
          rw [List.take_zero, List.append_nil]
          exact ⟨m, rfl, hfree, fun i hi => hbelow i (Nat.zero_le i) hi⟩
      | succ j =>
          have hmem (c : String) : c ∈ taken ++ (fresh :: columns).take (j + 1) ↔
              c ∈ fresh :: taken ++ columns.take j := by
            simp only [List.take_succ_cons, List.mem_append, List.mem_cons]
            tauto
          obtain ⟨k, hcolumn, hfree, hbelow⟩ := ih hname
          simp only [hmem]
          exact ⟨k, hcolumn, hfree, hbelow⟩

theorem not_mem (h : Naming taken names columns) : ∀ c ∈ columns, c ∉ taken := by
  induction h with
  | nil => simp
  | cons hfresh _ ih =>
      obtain ⟨m, -, rfl, hfree, -⟩ := Finds.exists_form (k := 0) hfresh
      exact List.forall_mem_cons.2 ⟨hfree, fun c hc hmem => ih c hc (List.mem_cons_of_mem _ hmem)⟩

theorem nodup (h : Naming taken names columns) : columns.Nodup := by
  induction h with
  | nil => exact List.nodup_nil
  | cons _ hrest ih => exact List.nodup_cons.2 ⟨fun hmem => hrest.not_mem _ hmem List.mem_cons_self, ih⟩

/-- A column keeps its name exactly if no column in front of it has that name. -/
theorem getElem?_eq_iff (h : Naming [] names columns) (hname : names[j]? = some name) :
    columns[j]? = some name ↔ name ∉ columns.take j := by
  obtain ⟨k, hcolumn, hfree, hbelow⟩ := h.exists_form hname
  simp only [List.nil_append] at hfree hbelow
  rw [hcolumn, Option.some.injEq]
  cases k with
  | zero => exact iff_of_true rfl hfree
  | succ k => exact iff_of_false (form_ne_self name k) (not_not.2 (hbelow 0 k.succ_pos))

end Naming

/-! ## Rows -/

theorem forall₂_rows {p : List Json → Record → Prop} (rows : List (List Json))
    (h : ∀ values, p values (record (distinctNames [] names) values)) :
    List.Forall₂ p rows (ofPositional names rows).rows :=
  List.forall₂_map_right_iff.2 (List.forall₂_same.2 fun values _ => h values)

/-- Naming the columns ends, whatever the names, with as many names that are apart, each a form of its own column's
name; and each row is an object with just these names as keys in order, of which none overwrites another's value. -/
theorem ofPositional_distinct (names : List String) (rows : List (List Json)) :
    (∀ columns, Naming [] names columns ↔ columns = (ofPositional names rows).columns) ∧
      (ofPositional names rows).columns.length = names.length ∧ (ofPositional names rows).columns.Nodup ∧
      (∀ (j : Nat) (name : String), names[j]? = some name →
        ∃ k, (ofPositional names rows).columns[j]? = some (form name k)) ∧
      List.Forall₂ (fun values row => Record.keys row = (ofPositional names rows).columns ∧
        Record.ofMembers row = row ∧ ∀ (j : Nat) (column : String),
          (ofPositional names rows).columns[j]? = some column → row.get? column = some (values.getD j .null))
        rows (ofPositional names rows).rows := by
  have hnaming : Naming [] names (ofPositional names rows).columns := naming_distinctNames [] names
  refine ⟨fun columns => ⟨fun h => h.unique hnaming, fun h => h ▸ hnaming⟩, hnaming.length_eq, hnaming.nodup,
    fun j name hname => ?_, forall₂_rows rows fun values => ⟨keys_record _ values, ?_, ?_⟩⟩
  · obtain ⟨k, hcolumn, -⟩ := hnaming.exists_form hname
    exact ⟨k, hcolumn⟩
  · exact Record.ofMembers_of_nodup ((keys_record _ values).symm ▸ hnaming.nodup)
  · exact fun j column hcolumn => get?_record hnaming.nodup hcolumn values

/-! ## Names that are given away -/

/-- The column at a place is given a name as a numbered form of its own name, which a column in front of it has. -/
structure Takes (names columns : List String) (name : String) (i : Nat) : Prop where
  has : columns[i]? = some name
  numbered : ∃ own k, names[i]? = some own ∧ name = form own (k + 1) ∧ own ∈ columns.take i

theorem mem_take_iff (h : Naming [] names columns) (hfirst : name ∉ names.take j) :
    name ∈ columns.take j ↔ ∃ i < j, Takes names columns name i := by
  have hplace (c : String) (l : List String) : c ∈ l.take j ↔ ∃ i < j, l[i]? = some c := by
    simp only [List.mem_iff_getElem?, List.getElem?_take, Option.ite_none_right_eq_some]
  rw [hplace]
  refine exists_congr fun i => and_congr_right fun hlt => ⟨fun hcolumn => ?_, Takes.has⟩
  have hbound : i < names.length := h.length_eq ▸ (List.getElem?_eq_some_iff.1 hcolumn).1
  have hown : names[i]? = some names[i] := List.getElem?_eq_getElem hbound
  obtain ⟨k, hform, -, hbelow⟩ := h.exists_form hown
  obtain rfl := Option.some.inj (hcolumn.symm.trans hform)
  cases k with
  | zero => exact absurd ((hplace _ _).2 ⟨i, hlt, hown⟩) hfirst
  | succ k => exact ⟨hcolumn, _, k, hown, rfl, hbelow 0 k.succ_pos⟩

/-- The first column of a name keeps it unless a column in front, whose own name is taken, is given it as a numbered
form. A row has under the name the value of the column that keeps it or is given it. -/
theorem column_kept_iff {names : List String} {name : String} {j : Nat} (hname : names[j]? = some name)
    (hfirst : name ∉ names.take j) (rows : List (List Json)) :
    ((ofPositional names rows).columns[j]? = some name ↔
        ¬ ∃ i < j, Takes names (ofPositional names rows).columns name i) ∧
      List.Forall₂ (fun values row =>
        ((ofPositional names rows).columns[j]? = some name → Record.get? row name = some (values.getD j .null)) ∧
          ∀ i, Takes names (ofPositional names rows).columns name i →
            Record.get? row name = some (values.getD i .null)) rows (ofPositional names rows).rows := by
  have hnaming : Naming [] names (ofPositional names rows).columns := naming_distinctNames [] names
  refine ⟨?_, forall₂_rows rows fun values => ⟨fun hcolumn => ?_, fun i htakes => ?_⟩⟩
  · rw [hnaming.getElem?_eq_iff hname, mem_take_iff hnaming hfirst]
  · exact get?_record hnaming.nodup hcolumn values
  · exact get?_record hnaming.nodup htakes.has values

theorem column_kept_iff_repeated :
    let names := ["a", "a", "a_1"]
    let result := ofPositional names [[.int 1, .int 2, .int 3]]
    names[2]? = some "a_1" ∧ "a_1" ∉ names.take 2 ∧ Takes names result.columns "a_1" 1 ∧
      result.columns[2]? ≠ some "a_1" ∧ result.scalar? "a_1" = some (.int 2) := by
  intro names result
  have hname : names[2]? = some "a_1" := rfl
  have hfirst : "a_1" ∉ names.take 2 := by decide
  have htakes : Takes names result.columns "a_1" 1 := ⟨by decide, "a", 0, rfl, by decide, by decide⟩
  obtain ⟨hkept, hrows⟩ := column_kept_iff hname hfirst [[.int 1, .int 2, .int 3]]
  refine ⟨hname, hfirst, htakes, fun hcolumn => hkept.1 hcolumn ⟨1, by decide, htakes⟩, ?_⟩
  cases hrows with
  | cons hrow _ => exact hrow.2 1 htakes

/-- A name that no other column has is given away. -/
theorem name_given_away :
    let result := ofPositional ["a", "a", "a_1"] [[.int 1, .int 2, .int 3]]
    ["a", "a", "a_1"].count "a_1" = 1 ∧ result.columns[2]? ≠ some "a_1" ∧
      result.scalar? "a_1" = some (.int 2) :=
  ⟨by decide, by decide, rfl⟩

end ResultSet

end SemanticLayer
