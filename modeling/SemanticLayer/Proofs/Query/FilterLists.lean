import SemanticLayer.Proofs.Joins.Needed
import SemanticLayer.Proofs.Query.FilterValues
/-!
The operands of a request's filters as they are written. An array among the items of a list is written as its own
items, so that an empty one leaves a place in the list with nothing in it.
-/
namespace SemanticLayer

/-! ## Values in a list -/

namespace Json

def IsLeaf (v : Json) : Prop :=
  ∀ items, v ≠ .arr items

/-- An empty array stands somewhere in the value. -/
inductive HasGap : Json → Prop where
  | empty : HasGap (.arr [])
  | item {x : Json} {items : List Json} : x ∈ items → HasGap x → HasGap (.arr items)

/-- A value that is no array stands somewhere in the value. -/
inductive HasLeaf : Json → Prop where
  | leaf {v : Json} : v.IsLeaf → HasLeaf v
  | item {x : Json} {items : List Json} : x ∈ items → HasLeaf x → HasLeaf (.arr items)

theorem not_isLeaf_iff {v : Json} : ¬v.IsLeaf ↔ ∃ items, v = .arr items := by
  simp [IsLeaf]

theorem IsLeaf.not_hasGap {v : Json} (h : v.IsLeaf) : ¬v.HasGap := by
  rintro (_ | _)
  · exact h _ rfl
  · exact h _ rfl

theorem hasGap_arr {items : List Json} : (Json.arr items).HasGap ↔ items = [] ∨ ∃ x ∈ items, x.HasGap := by
  constructor
  · rintro (_ | ⟨hx, h⟩)
    · exact .inl rfl
    · exact .inr ⟨_, hx, h⟩
  · rintro (rfl | ⟨x, hx, h⟩)
    · exact .empty
    · exact .item hx h

theorem hasLeaf_arr {items : List Json} : (Json.arr items).HasLeaf ↔ ∃ x ∈ items, x.HasLeaf := by
  constructor
  · rintro (h | ⟨hx, h⟩)
    · exact absurd rfl (h items)
    · exact ⟨_, hx, h⟩
  · rintro ⟨x, hx, h⟩
    exact .item hx h

mutual

/-- The places that a value takes up in a list: an array takes up those of its items, and an empty one a place with
nothing in it. -/
def slots : Json → List (Option Json)
  | .arr [] => [none]
  | .arr (x :: xs) => x.slots ++ slotsOf xs
  | v => [some v]

def slotsOf : List Json → List (Option Json)
  | [] => []
  | x :: xs => x.slots ++ slotsOf xs

end

theorem slots_of_isLeaf {v : Json} (h : v.IsLeaf) : v.slots = [some v] := by
  cases v with
  | arr items => exact absurd rfl (h items)
  | _ => rfl

theorem slots_ne_nil : (v : Json) → v.slots ≠ []
  | .arr [] => by simp [slots]
  | .arr (x :: xs) => by simp [slots, x.slots_ne_nil]
  | .null | .bool _ | .int _ | .float _ | .str _ | .obj _ => by simp [slots]

theorem length_le_slotsOf (items : List Json) : items.length ≤ (slotsOf items).length := by
  induction items with
  | nil => rfl
  | cons x xs ih =>
      have hx := List.length_pos_of_ne_nil x.slots_ne_nil
      rw [slotsOf, List.length_append, List.length_cons]
      omega

mutual

theorem none_mem_slots : (v : Json) → none ∈ v.slots ↔ v.HasGap
  | .arr [] => by simp [slots, hasGap_arr]
  | .arr (x :: xs) => by simp [slots, hasGap_arr, none_mem_slots x, none_mem_slotsOf xs]
  | .null | .bool _ | .int _ | .float _ | .str _ | .obj _ =>
      iff_of_false (by simp [slots]) (IsLeaf.not_hasGap (by simp [IsLeaf]))

theorem none_mem_slotsOf : (items : List Json) → none ∈ slotsOf items ↔ ∃ x ∈ items, x.HasGap
  | [] => by simp [slotsOf]
  | x :: xs => by simp [slotsOf, none_mem_slots x, none_mem_slotsOf xs]

end

mutual

theorem exists_mem_slots : (v : Json) → (∃ leaf, some leaf ∈ v.slots) ↔ v.HasLeaf
  | .arr [] => by simp [slots, hasLeaf_arr]
  | .arr (x :: xs) => by simp [slots, hasLeaf_arr, exists_or, exists_mem_slots x, exists_mem_slotsOf xs]
  | .null | .bool _ | .int _ | .float _ | .str _ | .obj _ =>
      iff_of_true (by simp [slots]) (.leaf (by simp [IsLeaf]))

theorem exists_mem_slotsOf : (items : List Json) → (∃ leaf, some leaf ∈ slotsOf items) ↔ ∃ x ∈ items, x.HasLeaf
  | [] => by simp [slotsOf]
  | x :: xs => by simp [slotsOf, exists_or, exists_mem_slots x, exists_mem_slotsOf xs]

end

mutual

theorem isLeaf_of_mem_slots : (v : Json) → {leaf : Json} → some leaf ∈ v.slots → leaf.IsLeaf
  | .arr [], _, h => by simp [slots] at h
  | .arr (x :: xs), _, h => by
      rw [slots, List.mem_append] at h
      exact h.elim (isLeaf_of_mem_slots x) (isLeaf_of_mem_slotsOf xs)
  | .null, _, h | .bool _, _, h | .int _, _, h | .float _, _, h | .str _, _, h | .obj _, _, h => by
      obtain rfl : _ = _ := by simpa [slots] using h
      simp [IsLeaf]

theorem isLeaf_of_mem_slotsOf : (items : List Json) → {leaf : Json} → some leaf ∈ slotsOf items → leaf.IsLeaf
  | [], _, h => by simp [slotsOf] at h
  | x :: xs, _, h => by
      rw [slotsOf, List.mem_append] at h
      exact h.elim (isLeaf_of_mem_slots x) (isLeaf_of_mem_slotsOf xs)

end

end Json

/-! ## Their literals -/

theorem Decimal.Form.writeScaled_ne_nil (form : Form) (s : Scaled) : form.writeScaled s ≠ [] := by
  unfold writeScaled
  dsimp only
  split
  · split
    · simp
    · split <;> simp
  · simp

theorem Decimal.write_ne_empty (x : Float) : write x ≠ "" := by
  unfold write Form.write
  split
  · decide
  · simp only [ne_eq, String.ofList_eq_empty_iff]
    split
    · simp
    · split
      · decide
      · split
        · simp
        · exact Form.writeScaled_ne_nil _ _

namespace Database

/-- What is written at a place of a list. -/
def slotText (db : Database) : Option Json → String
  | none => ""
  | some v => db.literal v

theorem textLiteral_ne_empty (db : Database) (s : String) : db.textLiteral s ≠ "" := by
  simp [textLiteral]

theorem literal_ne_empty (db : Database) {v : Json} (h : v.IsLeaf) : db.literal v ≠ "" := by
  cases v with
  | null => simp [literal]
  | bool b => cases db <;> cases b <;> decide
  | int n => cases n <;> simp [literal, Json.compact, Int.repr, Nat.repr_ne_empty]
  | float x =>
      rw [literal, Json.compact]
      split
      · exact Decimal.write_ne_empty x
      · decide
  | str s => exact db.textLiteral_ne_empty s
  | arr items => exact absurd rfl (h items)
  | obj members => exact db.textLiteral_ne_empty _

mutual

/-- A literal is that of each place, with commas between. -/
theorem literal_eq_slots (db : Database) : (v : Json) →
    db.literal v = String.intercalate ", " (v.slots.map db.slotText)
  | .arr [] => by simp [literal, literals, Json.slots, slotText]
  | .arr (x :: xs) => by
      rw [literal, literals_eq_slots db (x :: xs), Json.slotsOf, Json.slots]
  | .null | .bool _ | .int _ | .float _ | .str _ | .obj _ => by simp [Json.slots, slotText]

theorem literals_eq_slots (db : Database) : (items : List Json) →
    String.intercalate ", " (db.literals items) = String.intercalate ", " ((Json.slotsOf items).map db.slotText)
  | [] => rfl
  | [x] => by simp [literals, Json.slotsOf, literal_eq_slots db x]
  | x :: y :: xs => by
      have hx : x.slots.map db.slotText ≠ [] := by simp [x.slots_ne_nil]
      have hy : (Json.slotsOf (y :: xs)).map db.slotText ≠ [] := by simp [Json.slotsOf, y.slots_ne_nil]
      rw [literals, String.intercalate_cons_of_ne_nil (by simp [literals]), literals_eq_slots db (y :: xs),
        literal_eq_slots db x, Json.slotsOf.eq_def (x :: y :: xs), List.map_append,
        String.intercalate_append_of_ne_nil hx hy]

end

theorem literals_eq_map (db : Database) (items : List Json) : db.literals items = items.map db.literal := by
  induction items with
  | nil => rfl
  | cons x xs ih => rw [literals, ih, List.map_cons]

/-- A place is empty as written just where it has nothing in it. -/
theorem empty_mem_slotTexts (db : Database) (v : Json) : "" ∈ v.slots.map db.slotText ↔ v.HasGap := by
  rw [← Json.none_mem_slots, List.mem_map]
  constructor
  · rintro ⟨slot, hslot, htext⟩
    cases slot with
    | none => exact hslot
    | some leaf => exact absurd htext (db.literal_ne_empty (v.isLeaf_of_mem_slots hslot))
  · intro h
    exact ⟨none, h, rfl⟩

theorem exists_slotText_iff (db : Database) (v : Json) :
    (∃ leaf, leaf.IsLeaf ∧ db.literal leaf ∈ v.slots.map db.slotText) ↔ v.HasLeaf := by
  rw [← Json.exists_mem_slots]
  constructor
  · rintro ⟨leaf, hleaf, hmem⟩
    obtain ⟨slot, hslot, htext⟩ := List.mem_map.1 hmem
    cases slot with
    | none => exact absurd htext.symm (db.literal_ne_empty hleaf)
    | some other => exact ⟨other, hslot⟩
  · rintro ⟨leaf, hleaf⟩
    exact ⟨leaf, v.isLeaf_of_mem_slots hleaf, List.mem_map.2 ⟨_, hleaf, rfl⟩⟩

end Database

/-! ## Conditions -/

theorem isLeaf_coerce (type : Option ValueType) {v : Json} (h : v.IsLeaf) : (ValueType.coerce type v).IsLeaf := by
  have hnumber (s : String) : ((ValueType.toNumber? s).getD (.str s)).IsLeaf := by
    intro items
    unfold ValueType.toNumber?
    dsimp only
    repeat' split
    all_goals simp
  have htruth (s : String) : ((ValueType.toTruth? s).getD (.str s)).IsLeaf := by
    intro items
    unfold ValueType.toTruth?
    split <;> simp
  unfold ValueType.coerce
  split
  case h_1 => exact hnumber _
  case h_2 => exact htruth _
  case h_11 => exact h
  all_goals exact fun _ => nofun

/-- Bringing a value to the type of a column leaves arrays as they are, and makes no array of any other value. -/
theorem coerce_cases (type : Option ValueType) (v : Json) :
    ValueType.coerce type v = v ∨ (v.IsLeaf ∧ (ValueType.coerce type v).IsLeaf) := by
  by_cases h : v.IsLeaf
  · exact .inr ⟨h, isLeaf_coerce type h⟩
  · obtain ⟨items, rfl⟩ := Json.not_isLeaf_iff.1 h
    exact .inl (coerce_arr type items)

theorem hasGap_coerce (type : Option ValueType) (v : Json) : (ValueType.coerce type v).HasGap ↔ v.HasGap := by
  rcases coerce_cases type v with h | ⟨hv, hcoerced⟩
  · rw [h]
  · exact iff_of_false hcoerced.not_hasGap hv.not_hasGap

theorem hasLeaf_coerce (type : Option ValueType) (v : Json) : (ValueType.coerce type v).HasLeaf ↔ v.HasLeaf := by
  rcases coerce_cases type v with h | ⟨hv, hcoerced⟩
  · rw [h]
  · exact iff_of_true (.leaf hcoerced) (.leaf hv)

namespace FilterColumn

/-- A value with its items, or itself, in the type of the column. -/
def coerced (c : FilterColumn) : Json → Json
  | .arr items => .arr (items.map (ValueType.coerce c.valueType))
  | v => ValueType.coerce c.valueType v

/-- The operands of a filter as they are written. -/
def operands (db : Database) (c : FilterColumn) (value : Json) : List String :=
  (c.coerced value).slots.map db.slotText

/-- A condition with the given operands: a list for an array, and a comparison for any other value. -/
def written (c : FilterColumn) (value : Json) (operands : List String) : String :=
  match value with
  | .arr _ => c.column ++ " IN (" ++ String.intercalate ", " operands ++ ")"
  | _ => "(" ++ c.column ++ " " ++ (c.operator.getD .equal).comparison.sign ++ " " ++
      String.intercalate ", " operands ++ ")"

theorem coerced_of_isLeaf (c : FilterColumn) {value : Json} (h : value.IsLeaf) :
    c.coerced value = ValueType.coerce c.valueType value := by
  cases value with
  | arr items => exact absurd rfl (h items)
  | _ => rfl

theorem hasGap_coerced (c : FilterColumn) (value : Json) : (c.coerced value).HasGap ↔ value.HasGap := by
  by_cases h : value.IsLeaf
  · rw [c.coerced_of_isLeaf h, hasGap_coerce]
  · obtain ⟨items, rfl⟩ := Json.not_isLeaf_iff.1 h
    simp [coerced, Json.hasGap_arr, hasGap_coerce]

theorem hasLeaf_coerced (c : FilterColumn) (value : Json) : (c.coerced value).HasLeaf ↔ value.HasLeaf := by
  by_cases h : value.IsLeaf
  · rw [c.coerced_of_isLeaf h, hasLeaf_coerce]
  · obtain ⟨items, rfl⟩ := Json.not_isLeaf_iff.1 h
    simp [coerced, Json.hasLeaf_arr, hasLeaf_coerce]

theorem length_le_operands (db : Database) (c : FilterColumn) {items : List Json} (h : items ≠ []) :
    items.length ≤ (c.operands db (.arr items)).length := by
  obtain ⟨x, xs, rfl⟩ := List.exists_cons_of_ne_nil h
  simpa [operands, coerced, Json.slots, Json.slotsOf] using
    Json.length_le_slotsOf ((x :: xs).map (ValueType.coerce c.valueType))

/-- The operands of a comparison are a single one. -/
theorem operands_of_isLeaf (db : Database) (c : FilterColumn) {value : Json} (h : value.IsLeaf) :
    c.operands db value = [db.literal (ValueType.coerce c.valueType value)] := by
  rw [operands, c.coerced_of_isLeaf h, Json.slots_of_isLeaf (isLeaf_coerce _ h)]
  rfl

/-- A filter is written with its operands behind the column. -/
theorem render_condition (db : Database) (c : FilterColumn) {value : Json} (h : value.isBlank = false) :
    (c.condition value).render db = c.written value (c.operands db value) := by
  have hoperands : String.intercalate ", " (c.operands db value) = db.literal (c.coerced value) :=
    (db.literal_eq_slots _).symm
  cases value with
  | arr items =>
      obtain ⟨x, xs, rfl⟩ : ∃ x xs, items = x :: xs :=
        List.exists_cons_of_ne_nil (by rintro rfl; simp [Json.isBlank] at h)
      have hlist := Select.Term.render_oneOf db (.fragment c.column) (.literal (ValueType.coerce c.valueType x)) []
        (xs.map fun v => .literal (ValueType.coerce c.valueType v))
      rw [written, hoperands, coerced, Database.literal, db.literals_eq_map]
      simpa [condition, Select.Term.render, Function.comp_def] using hlist
  | _ => simp [written, hoperands, coerced, condition, Select.Term.render]

end FilterColumn

/-! ## Requests -/

namespace Source

variable {source : Source} {request : Request} {limits : QueryLimits} {db : Database} {compiled : CompiledQuery}

/-- The filters of a compiled request as they are written. An operand is missing just where an empty array stands
inside a value, and there is a literal among the operands just where the value is not made of arrays alone. -/
theorem compile_operands (h : source.compile limits db request = .ok compiled) : ∃ q : Select,
    compiled.sql = q.render db ∧
    Select.renderAll db q.filters =
      (source.appliedFilters request.filters).map (fun f => f.1.written f.2 (f.1.operands db f.2)) ∧
    ∀ f ∈ source.appliedFilters request.filters,
      ("" ∈ f.1.operands db f.2 ↔ f.2.HasGap) ∧
      ((∃ leaf, leaf.IsLeaf ∧ db.literal leaf ∈ f.1.operands db f.2) ↔ f.2.HasLeaf) ∧
      (∀ items, f.2 = .arr items → items.length ≤ (f.1.operands db f.2).length) ∧
      (f.2.IsLeaf → (f.1.operands db f.2).length = 1) := by
  obtain ⟨resolved, orders, _, rfl⟩ := compile_eq_ok_iff.1 h
  have hblank : ∀ f ∈ source.appliedFilters request.filters, f.2.isBlank = false := by
    rintro ⟨c, value⟩ hf
    obtain ⟨key, _, hblank, _⟩ := mem_appliedFilters_iff.1 hf
    exact hblank
  refine ⟨source.requestSelect limits request resolved orders, rfl, ?_, fun f hf => ⟨?_, ?_, ?_, ?_⟩⟩
  · rw [Select.renderAll_eq_map, requestSelect, List.map_map]
    exact List.map_congr_left fun f hf => f.1.render_condition db (hblank f hf)
  · rw [← f.1.hasGap_coerced f.2]
    exact db.empty_mem_slotTexts _
  · rw [← f.1.hasLeaf_coerced f.2]
    exact db.exists_slotText_iff _
  · intro items hitems
    have hne : items ≠ [] := by
      rintro rfl
      have hempty := hblank f hf
      simp [hitems, Json.isBlank] at hempty
    rw [hitems]
    exact f.1.length_le_operands db hne
  · intro hleaf
    rw [f.1.operands_of_isLeaf db hleaf]
    rfl

/-- A list of a status and an empty list. -/
theorem compile_operands_openAndEmpty :
    ∃ (compiled : CompiledQuery) (q : Select), orders.compile .usual .mysql
        (Request.openByRegion.withFilter "status" (.arr [.str "open", .arr []])) = .ok compiled ∧
      compiled.sql = q.render .mysql ∧
      Select.renderAll .mysql q.filters = ["o.status IN (" ++ String.intercalate ", " ["'open'", ""] ++ ")"] ∧
      (Json.arr [.str "open", .arr []]).HasGap ∧ (Json.arr [.str "open", .arr []]).HasLeaf := by
  let column : FilterColumn := ⟨"o.status", some .string, none, none⟩
  obtain ⟨q, hsql, hwritten, hoperands⟩ := compile_operands (rfl : orders.compile .usual .mysql
    (Request.openByRegion.withFilter "status" (.arr [.str "open", .arr []])) = .ok _)
  obtain ⟨hgap, hleaf, -, -⟩ := hoperands (column, .arr [.str "open", .arr []]) (.head _)
  refine ⟨_, q, rfl, hsql, hwritten.trans rfl, hgap.1 (by decide), hleaf.1 ⟨.str "open", nofun, ?_⟩⟩
  decide

/-- A list whose only item is an empty list is written as an empty list. -/
theorem compile_emptyLists : ∃ compiled,
    orders.compile .usual .postgresql (Request.openByRegion.withFilter "status" (.arr [.arr []])) = .ok compiled ∧
    compiled.sql = "SELECT r.name AS \"dim_0\", COALESCE(SUM(o.total), 0) AS \"measure_0\" FROM orders o " ++
      "JOIN customers c ON c.id = o.customer_id JOIN regions r ON r.id = c.region_id " ++
      "WHERE o.status IN () GROUP BY r.name ORDER BY \"measure_0\" DESC LIMIT 10" :=
  ⟨_, rfl, by decide +kernel⟩

end Source

end SemanticLayer
