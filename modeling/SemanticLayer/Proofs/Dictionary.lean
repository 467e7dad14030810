import Mathlib.Data.List.Induction
import Mathlib.Data.List.Nodup
import Mathlib.Data.List.Perm.Basic
import SemanticLayer.Dictionary
import SemanticLayer.Proofs.Lookup
/-!
Look-up in dictionaries as membership among their entries.
-/
namespace SemanticLayer.Dictionary

variable {α : Type}

theorem keys_nodup (d : Dictionary α) : d.keys.Nodup := by
  refine List.pairwise_map.2 (d.ascending.imp ?_)
  intro a b h heq
  exact String.lt_irrefl _ (heq ▸ h)

theorem get?_eq_some_iff {d : Dictionary α} {key : String} {value : α} :
    d.get? key = some value ↔ (key, value) ∈ d.entries :=
  lookup_eq_some_iff_mem d.keys_nodup

theorem contains_iff {d : Dictionary α} {key : String} :
    d.contains key = true ↔ ∃ value, d.get? key = some value := by
  simp [contains, Option.isSome_iff_exists]

theorem contains_iff_mem_keys {d : Dictionary α} {key : String} :
    d.contains key = true ↔ key ∈ d.keys := by
  simp [contains_iff, get?_eq_some_iff, keys]

theorem length_keys (d : Dictionary α) : d.keys.length = d.size := by
  simp [keys, size]

theorem place_append {before behind : List (String × α)} {key : String} (value other : α)
    (hbefore : ∀ e ∈ before, e.1 < key) :
    place key other (before ++ (key, value) :: behind) = before ++ (key, other) :: behind := by
  induction before with
  | nil => simp [place]
  | cons e before ih =>
      obtain ⟨k, v⟩ := e
      have hk : k < key := hbefore (k, v) (by simp)
      have hne : k ≠ key := fun heq => String.lt_irrefl _ (heq ▸ hk)
      rw [List.cons_append, place, if_neg (String.lt_asymm hk), if_neg hne,
        ih fun e he => hbefore e (List.mem_cons_of_mem _ he), List.cons_append]

/-- An entry that gets another value keeps its place. -/
theorem entries_insert {d : Dictionary α} {key : String} {value : α} (h : d.get? key = some value) :
    ∃ before behind, d.entries = before ++ (key, value) :: behind ∧
      ∀ other, (d.insert key other).entries = before ++ (key, other) :: behind := by
  obtain ⟨before, behind, hentries⟩ := List.append_of_mem (get?_eq_some_iff.1 h)
  refine ⟨before, behind, hentries, ?_⟩
  intro other
  have hascending := d.ascending
  rw [hentries] at hascending
  have hbefore : ∀ e ∈ before, e.1 < key :=
    fun e he => (List.pairwise_append.1 hascending).2.2 e he _ List.mem_cons_self
  change place key other d.entries = _
  rw [hentries, place_append value other hbefore]

theorem lookup_place {entries : List (String × α)} {key name : String} {value : α} :
    (place key value entries).lookup name = if name = key then some value else entries.lookup name := by
  induction entries with
  | nil => exact lookup_cons_ite
  | cons e entries ih =>
      obtain ⟨k, v⟩ := e
      unfold place
      split
      · exact lookup_cons_ite
      split
      · rename_i heq
        subst heq
        rw [lookup_cons_ite, lookup_cons_ite]
        split <;> rfl
      · rename_i hne
        rw [lookup_cons_ite, lookup_cons_ite, ih]
        by_cases hname : name = k
        · rw [if_pos hname, if_pos hname, if_neg (hname ▸ hne)]
        · rw [if_neg hname, if_neg hname]

theorem get?_insert {d : Dictionary α} {key name : String} {value : α} :
    (d.insert key value).get? name = if name = key then some value else d.get? name :=
  lookup_place

theorem get?_erase {d : Dictionary α} {key name : String} :
    (d.erase key).get? name = if name = key then none else d.get? name :=
  lookup_filter_ne d.entries key name

theorem get?_map {β : Type} {d : Dictionary α} {f : String → α → β} {name : String} :
    (d.map f).get? name = (d.get? name).map (f name) :=
  lookup_map Function.injective_id f d.entries name

theorem get?_alter {d : Dictionary α} {key name : String} {f : α → α} :
    (d.alter key f).get? name = if name = key then (d.get? name).map f else d.get? name := by
  rw [alter, get?_map]
  split
  · rfl
  · exact Option.map_id'

/-- Of the entries of a list with the same name the last one counts. -/
theorem get?_ofList (entries : List (String × α)) (name : String) :
    (ofList entries).get? name = entries.reverse.lookup name := by
  unfold ofList
  induction entries using List.reverseRecOn with
  | nil => rfl
  | append_singleton entries e ih =>
      rw [List.foldl_concat, get?_insert, ih, List.reverse_concat, lookup_cons_ite]

/-- Dictionaries that answer alike are equal: the order of the entries is that of the names. -/
theorem ext_get? {d d' : Dictionary α} (h : ∀ name value, d.get? name = some value ↔ d'.get? name = some value) :
    d = d' := by
  have hnodup (d : Dictionary α) : d.entries.Nodup := List.Nodup.of_map Prod.fst d.keys_nodup
  have hperm : d.entries.Perm d'.entries := by
    refine (List.perm_ext_iff_of_nodup (hnodup d) (hnodup d')).2 ?_
    rintro ⟨name, value⟩
    rw [← get?_eq_some_iff, ← get?_eq_some_iff]
    exact h name value
  have hentries : d.entries = d'.entries := by
    refine hperm.eq_of_pairwise ?_ d.ascending d'.ascending
    intro a b _ _ hab hba
    exact absurd hba (String.lt_asymm hab)
  cases d
  cases d'
  simpa using hentries

theorem ofList_entries (d : Dictionary α) : ofList d.entries = d := by
  have hnodup : (d.entries.reverse.map Prod.fst).Nodup := by
    rw [List.map_reverse]
    exact List.nodup_reverse.2 d.keys_nodup
  refine ext_get? fun name value => ?_
  rw [get?_ofList, lookup_eq_some_iff_mem hnodup, List.mem_reverse, get?_eq_some_iff]

end SemanticLayer.Dictionary
