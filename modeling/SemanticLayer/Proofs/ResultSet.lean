import Mathlib.Data.List.Nodup
import SemanticLayer.Proofs.Lookup
import SemanticLayer.ResultSet
/-!
Records as maps from their keys, and rows by position as records.
-/
namespace SemanticLayer

theorem numbered_injective {start : String} {i j : Nat}
    (h : start ++ toString i = start ++ toString j) : i = j := by
  have hdigits : Nat.toDigits 10 i = Nat.toDigits 10 j := by
    simpa using congrArg String.toList h
  rw [← Nat.ofDigitChars_ten_toDigits (n := i), hdigits, Nat.ofDigitChars_ten_toDigits]

namespace Record

variable {r : Record} {key other : String} {value : Json}

theorem get?_cons (key : String) (value : Json) (r : Record) (other : String) :
    get? ((key, value) :: r) other = if other = key then some value else get? r other :=
  lookup_cons_ite

theorem get?_erase_of_ne (h : other ≠ key) : (r.erase key).get? other = r.get? other :=
  (lookup_filter_ne r key other).trans (if_neg h)

theorem put_of_not_mem (h : key ∉ r.keys) : r.put key value = r ++ [(key, value)] := by
  induction r with
  | nil => rfl
  | cons e r ih =>
      obtain ⟨k, v⟩ := e
      obtain ⟨hk, hr⟩ : key ≠ k ∧ key ∉ Record.keys r := by simpa [keys] using h
      rw [put, if_neg hk.symm, ih hr]
      rfl

theorem keys_append (r r' : Record) : Record.keys (r ++ r') = r.keys ++ r'.keys := by
  simp [keys]

end Record

namespace ResultSet

theorem freshName_of_not_mem {taken : List String} {name candidate : String}
    (h : candidate ∉ taken) (tries number : Nat) :
    freshName taken name tries number candidate = candidate := by
  cases tries with
  | zero => rfl
  | succ tries => simp [freshName, h]

/-- Names that differ already stay as they are. -/
theorem distinctNames_of_nodup {taken names : List String} (h : (taken ++ names).Nodup) :
    distinctNames taken names = names := by
  induction names generalizing taken with
  | nil => rfl
  | cons name names ih =>
      have hname : name ∉ taken := fun hmem =>
        (List.nodup_append.1 h).2.2 name hmem name (by simp) rfl
      have hrest : (name :: taken ++ names).Nodup := by
        simpa using List.perm_middle.nodup_iff.1 h
      simp only [distinctNames, freshName_of_not_mem hname, ih hrest]

theorem getElem?_record (columns : List String) (values : List Json) (j : Nat) :
    (record columns values)[j]? = columns[j]?.map fun column => (column, values.getD j .null) := by
  induction columns generalizing values j with
  | nil => simp [record]
  | cons column columns ih =>
      cases values with
      | nil =>
          cases j with
          | zero => rfl
          | succ j => simpa [record] using ih [] j
      | cons value values =>
          cases j with
          | zero => rfl
          | succ j => simpa [record] using ih values j

theorem keys_record (columns : List String) (values : List Json) : Record.keys (record columns values) = columns := by
  refine List.ext_getElem? fun j => ?_
  rw [Record.keys, List.getElem?_map, getElem?_record, Option.map_map]
  exact congrFun Option.map_id _

theorem get?_record {columns : List String} (h : columns.Nodup) {j : Nat} {column : String} (hcolumn : columns[j]? = some column) (values : List Json) :
    Record.get? (record columns values) column = some (values.getD j .null) := by
  have hkeys : (Record.keys (record columns values)).Nodup := by rwa [keys_record]
  refine (lookup_eq_some_iff_mem hkeys).2 (List.mem_of_getElem? (i := j) ?_)
  rw [getElem?_record, hcolumn]
  rfl

/-- A record has at each of its names the value of that position. -/
theorem map_get?_record {names : List String} (h : names.Nodup) (values : List Json) :
    names.map (fun name => (Record.get? (record names values) name).getD .null) =
      (List.range names.length).map fun j => values.getD j .null := by
  refine List.ext_getElem (by simp) fun j hnames hrange => ?_
  have hj : j < names.length := by simpa using hnames
  rw [List.getElem_map, List.getElem_map, List.getElem_range, get?_record h (List.getElem?_eq_getElem hj),
    Option.getD_some]

end ResultSet

end SemanticLayer
