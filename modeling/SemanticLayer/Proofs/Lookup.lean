import Mathlib.Data.List.Basic
import Mathlib.Data.List.Nodup
/-!
Look-up in lists of pairs. The first pair of a key counts.
-/
namespace SemanticLayer

variable {κ κ' α β : Type} [BEq κ] [LawfulBEq κ] [BEq κ'] [LawfulBEq κ'] {entries : List (κ × α)} {key name : κ}
  {value : α}

theorem lookup_cons_ite [DecidableEq κ] :
    ((key, value) :: entries).lookup name = if name = key then some value else entries.lookup name := by
  by_cases h : name = key
  · simp [h]
  · rw [List.lookup_cons, beq_false_of_ne h, if_neg h]

theorem mem_of_lookup (h : entries.lookup key = some value) : (key, value) ∈ entries := by
  obtain ⟨before, behind, rfl, -⟩ := List.lookup_eq_some_iff.1 h
  exact List.mem_append_right _ List.mem_cons_self

theorem lookup_eq_some_iff_mem (h : (entries.map Prod.fst).Nodup) :
    entries.lookup key = some value ↔ (key, value) ∈ entries := by
  classical
  refine ⟨mem_of_lookup, fun hmem => ?_⟩
  induction entries with
  | nil => simp at hmem
  | cons e entries ih =>
      obtain ⟨k, v⟩ := e
      obtain ⟨hk, hrest⟩ := List.nodup_cons.1 h
      rw [lookup_cons_ite]
      rcases List.mem_cons.1 hmem with heq | hbehind
      · obtain ⟨rfl, rfl⟩ := Prod.mk.inj heq
        exact if_pos rfl
      · have hne : key ≠ k := by
          rintro rfl
          exact hk (List.mem_map.2 ⟨_, hbehind, rfl⟩)
        rw [if_neg hne, ih hrest hbehind]

theorem lookup_filter (p : κ → Bool) (entries : List (κ × α)) (key : κ) :
    (entries.filter fun e => p e.1).lookup key = if p key then entries.lookup key else none := by
  classical
  induction entries with
  | nil => simp
  | cons e entries ih =>
      obtain ⟨k, v⟩ := e
      rw [List.filter_cons, lookup_cons_ite]
      by_cases hkey : key = k
      · subst hkey
        rw [if_pos rfl]
        split
        · exact List.lookup_cons_self
        · rename_i hp
          rw [ih, if_neg hp]
      · rw [if_neg hkey]
        split
        · rw [lookup_cons_ite, if_neg hkey, ih]
        · exact ih

theorem lookup_filter_ne [DecidableEq κ] (entries : List (κ × α)) (key name : κ) :
    (entries.filter fun e => e.1 ≠ key).lookup name = if name = key then none else entries.lookup name := by
  rw [lookup_filter (fun k => k ≠ key)]
  by_cases h : name = key <;> simp [h]

theorem lookup_filter_value (p : α → Bool) (h : (entries.map Prod.fst).Nodup) (key : κ) :
    (entries.filter fun e => p e.2).lookup key = (entries.lookup key).filter p := by
  have hkept : ((entries.filter fun e => p e.2).map Prod.fst).Nodup := h.sublist (List.filter_sublist.map Prod.fst)
  refine Option.ext fun value => ?_
  rw [lookup_eq_some_iff_mem hkept, List.mem_filter, Option.filter_eq_some_iff, lookup_eq_some_iff_mem h]

theorem lookup_map {g : κ → κ'} (hg : Function.Injective g) (f : κ → α → β) (entries : List (κ × α)) (key : κ) :
    (entries.map fun e => (g e.1, f e.1 e.2)).lookup (g key) = (entries.lookup key).map (f key) := by
  classical
  induction entries with
  | nil => rfl
  | cons e entries ih =>
      obtain ⟨k, v⟩ := e
      rw [List.map_cons, lookup_cons_ite, lookup_cons_ite, ih]
      by_cases h : key = k
      · subst h
        rw [if_pos rfl, if_pos rfl, Option.map_some]
      · rw [if_neg h, if_neg fun heq => h (hg heq)]

end SemanticLayer
