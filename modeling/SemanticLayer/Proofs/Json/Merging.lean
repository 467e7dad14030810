import Mathlib.Data.List.Induction
import SemanticLayer.Json.Basic
import SemanticLayer.Proofs.ResultSet
/-!
Objects with repeated keys. To merge the members of one key is to keep the first place and the last value, and it
changes just those values in which a key is repeated.
-/
namespace SemanticLayer

namespace Record

variable {r : Record} {key : String} {value : Json} {members : List (String × Json)}

theorem mem_put {m : String × Json} (h : m ∈ r.put key value) : m = (key, value) ∨ m ∈ r := by
  induction r with
  | nil => simpa [put] using h
  | cons e r ih =>
      obtain ⟨k, v⟩ := e
      rw [put] at h
      split at h
      · rcases List.mem_cons.1 h with rfl | h
        · exact .inl rfl
        · exact .inr (List.mem_cons_of_mem _ h)
      · rcases List.mem_cons.1 h with rfl | h
        · exact .inr List.mem_cons_self
        · exact (ih h).imp_right (List.mem_cons_of_mem _)

theorem keys_put_of_mem (h : key ∈ r.keys) : (r.put key value).keys = r.keys := by
  induction r with
  | nil => simp [keys] at h
  | cons e r ih =>
      obtain ⟨k, v⟩ := e
      rw [put]
      split
      · rename_i hk
        rw [hk]
        rfl
      · rename_i hk
        have hr : key ∈ Record.keys r := List.mem_of_ne_of_mem (Ne.symm hk) h
        exact congrArg (k :: ·) (ih hr)

theorem keys_put_nodup (h : r.keys.Nodup) (key : String) (value : Json) : (r.put key value).keys.Nodup := by
  by_cases hkey : key ∈ r.keys
  · rwa [keys_put_of_mem hkey]
  · rw [put_of_not_mem hkey, keys_append]
    exact List.concat_eq_append ▸ h.concat hkey

theorem ofMembers_concat (members : List (String × Json)) (m : String × Json) :
    ofMembers (members ++ [m]) = (ofMembers members).put m.1 m.2 :=
  List.foldl_concat _ _ _ _

theorem mem_ofMembers {m : String × Json} (h : m ∈ ofMembers members) : m ∈ members := by
  induction members using List.reverseRecOn with
  | nil => exact h
  | append_singleton members e ih =>
      rw [ofMembers_concat] at h
      rcases mem_put h with rfl | h
      · simp
      · exact List.mem_append_left _ (ih h)

theorem keys_ofMembers_nodup (members : List (String × Json)) : (ofMembers members).keys.Nodup := by
  induction members using List.reverseRecOn with
  | nil => exact List.nodup_nil
  | append_singleton members e ih =>
      rw [ofMembers_concat]
      exact keys_put_nodup ih e.1 e.2

theorem ofMembers_of_nodup (h : (Record.keys members).Nodup) : ofMembers members = members := by
  induction members using List.reverseRecOn with
  | nil => rfl
  | append_singleton members e ih =>
      rw [keys_append] at h
      obtain ⟨hmembers, -, hapart⟩ := List.nodup_append.1 h
      have he : e.1 ∉ Record.keys members := fun hmem => hapart e.1 hmem e.1 (by simp [keys]) rfl
      rw [ofMembers_concat, ih hmembers, put_of_not_mem he]

end Record

namespace Json

/-- No object in a value repeats a key. -/
inductive WellFormed : Json → Prop
  | null : WellFormed .null
  | bool (b : Bool) : WellFormed (.bool b)
  | int (n : Int) : WellFormed (.int n)
  | float (x : Float) : WellFormed (.float x)
  | str (s : String) : WellFormed (.str s)
  | arr (items : List Json) (h : ∀ v ∈ items, WellFormed v) : WellFormed (.arr items)
  | obj (members : Record) (hkeys : members.keys.Nodup) (h : ∀ m ∈ members, WellFormed m.2) :
      WellFormed (.obj members)

theorem mergedItems_eq_map (items : List Json) : mergedItems items = items.map merged := by
  induction items with
  | nil => rfl
  | cons v items ih => rw [mergedItems, ih, List.map_cons]

theorem mergedMembers_eq_map (members : List (String × Json)) :
    mergedMembers members = members.map fun m => (m.1, m.2.merged) := by
  induction members with
  | nil => rfl
  | cons m members ih =>
      obtain ⟨k, v⟩ := m
      rw [mergedMembers, ih, List.map_cons]

mutual

theorem wellFormed_merged : (v : Json) → v.merged.WellFormed
  | .null => .null
  | .bool b => .bool b
  | .int n => .int n
  | .float x => .float x
  | .str s => .str s
  | .arr items => by
      rw [merged]
      exact .arr _ (wellFormed_mergedItems items)
  | .obj members => by
      rw [merged]
      refine .obj _ (Record.keys_ofMembers_nodup _) fun m hm => ?_
      exact wellFormed_mergedMembers members m (Record.mem_ofMembers hm)

theorem wellFormed_mergedItems : (items : List Json) → ∀ v ∈ mergedItems items, v.WellFormed
  | [] => by simp [mergedItems]
  | v :: items => by
      rw [mergedItems, List.forall_mem_cons]
      exact ⟨wellFormed_merged v, wellFormed_mergedItems items⟩

theorem wellFormed_mergedMembers : (members : List (String × Json)) → ∀ m ∈ mergedMembers members, m.2.WellFormed
  | [] => by simp [mergedMembers]
  | (k, v) :: members => by
      rw [mergedMembers, List.forall_mem_cons]
      exact ⟨wellFormed_merged v, wellFormed_mergedMembers members⟩

end

theorem WellFormed.merged_eq {v : Json} (h : v.WellFormed) : v.merged = v := by
  induction h with
  | arr items _ ih =>
      rw [merged, mergedItems_eq_map, List.map_congr_left ih, List.map_id']
  | obj members hkeys _ ih =>
      have hmap : (members.map fun m => (m.1, m.2.merged)) = members.map id :=
        List.map_congr_left fun m hm => by rw [ih m hm]; rfl
      rw [merged, mergedMembers_eq_map, hmap, List.map_id, Record.ofMembers_of_nodup hkeys]
  | _ => rfl

theorem merged_eq_iff {v : Json} : v.merged = v ↔ v.WellFormed :=
  ⟨fun h => h ▸ wellFormed_merged v, WellFormed.merged_eq⟩

end Json

end SemanticLayer
