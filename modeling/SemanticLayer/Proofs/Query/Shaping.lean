import SemanticLayer.Proofs.Query.Columns
import SemanticLayer.Proofs.ResultSet
/-!
What the plan of a compiled request makes of the rows of its statement: each value goes under the key
it was requested for.
-/
namespace SemanticLayer

/-! ## Shaping -/

namespace ResultPlan

variable {plan : ResultPlan} {row row' : Record}

/-- A column that has no key in common with others, and no name, takes its value alone. -/
theorem requested_eq {outputs : List OutputColumn} {shaped : Record}
    (hcolumns : (outputs.map OutputColumn.column).Nodup)
    (hkeys : (shaped.keys ++ outputs.map OutputColumn.key).Nodup) :
    requested outputs row shaped =
      shaped ++ outputs.map fun o => (o.key, (row.get? o.column).getD .null) := by
  induction outputs generalizing row shaped with
  | nil => simp [requested]
  | cons o outputs ih =>
      obtain ⟨hcolumn, hcolumns⟩ := List.nodup_cons.1 hcolumns
      have hkey : o.key ∉ shaped.keys := fun hmem =>
        (List.nodup_append.1 hkeys).2.2 o.key hmem o.key (by simp) rfl
      have hothers : outputs.map (fun p => (p.key, ((row.erase o.column).get? p.column).getD .null)) =
          outputs.map fun p => (p.key, (row.get? p.column).getD .null) := by
        refine List.map_congr_left ?_
        intro p hp
        have hne : p.column ≠ o.column := fun heq => hcolumn (heq ▸ List.mem_map_of_mem hp)
        rw [Record.get?_erase_of_ne hne]
      rw [requested, Record.put_of_not_mem hkey, ih hcolumns, hothers]
      · simp
      · rw [Record.keys_append]
        simpa [Record.keys] using hkeys

/-- What calculated measures add to a row, each with those before it in sight. -/
def calculations : List CalculatedColumn → Record → Record
  | [], _ => []
  | c :: rest, visible =>
      (c.key, evaluate c visible) :: calculations rest (visible ++ [(c.key, evaluate c visible)])

theorem keys_calculations (calculated : List CalculatedColumn) (visible : Record) :
    (calculations calculated visible).keys = calculated.map CalculatedColumn.key := by
  induction calculated generalizing visible with
  | nil => rfl
  | cons c calculated ih => exact congrArg (c.key :: ·) (ih _)

/-- Calculated measures under new keys stand behind the keys that were there. -/
theorem foldl_put_eq {calculated : List CalculatedColumn} {shaped : Record}
    (hkeys : (shaped.keys ++ calculated.map CalculatedColumn.key).Nodup) :
    calculated.foldl (fun r c => r.put c.key (evaluate c r)) shaped =
      shaped ++ calculations calculated shaped := by
  induction calculated generalizing shaped with
  | nil => simp [calculations]
  | cons c calculated ih =>
      have hkey : c.key ∉ shaped.keys := fun hmem =>
        (List.nodup_append.1 hkeys).2.2 c.key hmem c.key (by simp) rfl
      have hmore : (Record.keys (shaped ++ [(c.key, evaluate c shaped)]) ++
          calculated.map CalculatedColumn.key).Nodup := by
        rw [Record.keys_append]
        simpa [Record.keys] using hkeys
      rw [List.foldl_cons, Record.put_of_not_mem hkey, ih hmore, calculations, List.append_assoc]
      rfl

/-- A plan whose columns have names of their own and whose keys are different. -/
structure Distinct (plan : ResultPlan) : Prop where
  columns : (plan.outputs.map OutputColumn.column).Nodup
  keys : (plan.outputs.map OutputColumn.key ++ plan.calculated.map CalculatedColumn.key).Nodup

theorem Distinct.requested_eq (h : plan.Distinct) (row : Record) :
    requested plan.outputs row [] =
      plan.outputs.map fun o => (o.key, (row.get? o.column).getD .null) := by
  refine (ResultPlan.requested_eq h.columns ?_).trans (List.nil_append _)
  simpa [Record.keys] using (List.nodup_append.1 h.keys).1

/-- What a row has under the keys that the database answers. -/
def answered (plan : ResultPlan) (row : Record) : Record :=
  plan.outputs.map fun o => (o.key, (row.get? o.column).getD .null)

theorem Distinct.shapeRow_eq_append (h : plan.Distinct) (row : Record) :
    plan.shapeRow row = plan.answered row ++ calculations plan.calculated (plan.answered row) := by
  unfold shapeRow
  rw [h.requested_eq]
  refine foldl_put_eq ?_
  simpa [Record.keys, Function.comp_def] using h.keys

theorem Distinct.shapeRow_eq (h : plan.Distinct) (row : Record) :
    ∃ computed : Record, computed.keys = plan.calculated.map CalculatedColumn.key ∧
      plan.shapeRow row =
        plan.outputs.map (fun o => (o.key, (row.get? o.column).getD .null)) ++ computed :=
  ⟨_, keys_calculations _ _, h.shapeRow_eq_append row⟩

/-- Only the columns of the plan count in a row. -/
theorem Distinct.shapeRow_congr (h : plan.Distinct)
    (hagree : ∀ o ∈ plan.outputs, row.get? o.column = row'.get? o.column) :
    plan.shapeRow row = plan.shapeRow row' := by
  have hanswered : plan.answered row = plan.answered row' := by
    refine List.map_congr_left ?_
    intro o ho
    rw [hagree o ho]
  rw [h.shapeRow_eq_append, h.shapeRow_eq_append, hanswered]

end ResultPlan

/-! ## The plan of a request -/

def MeasureRequest.calculatedKey? (m : MeasureRequest) : Option String :=
  match m.kind with
  | .calculated => m.key?
  | .aggregate => none

/-- What a calculated measure becomes: its expression, or else its field, is read. -/
structure MeasureRequest.Calculates (m : MeasureRequest) (c : CalculatedColumn) : Prop where
  key : m.key? = some c.key
  text : c.text = (m.expression <|> m.field).getD ""
  expression : c.expression = (Calculation.parse c.text).toOption

/-- The keys that the database answers: the dimensions and then the aggregates, as requested. -/
def Request.answeredKeys (request : Request) : List String :=
  request.dimensions ++ request.measures.filterMap MeasureRequest.aggregateKey?

def Request.calculatedKeys (request : Request) : List String :=
  request.measures.filterMap MeasureRequest.calculatedKey?

theorem numbered_nodup (start : String) (positions : List Nat) (h : positions.Nodup) :
    (positions.map fun i => start ++ toString i).Nodup :=
  h.map fun _ _ => numbered_injective

namespace Source

variable {source : Source} {request : Request} {resolved : List ResolvedMeasure}
  {orders : List Select.Order}

theorem resolveMeasure_eq_calculated {m : MeasureRequest} {c : CalculatedColumn}
    (h : source.resolveMeasure m = .ok (.calculated c)) : m.kind = .calculated ∧ m.Calculates c := by
  rcases resolveMeasure_cases h with ⟨hkind, key, hkey, heq⟩ | ⟨-, field, measure, -, -, heq⟩
  · obtain rfl := ResolvedMeasure.calculated.inj heq
    exact ⟨hkind, hkey, rfl, rfl⟩
  · cases heq

theorem calculatedKey_of_resolveMeasure {m : MeasureRequest} {r : ResolvedMeasure}
    (h : source.resolveMeasure m = .ok r) :
    m.calculatedKey? = r.calculation?.map CalculatedColumn.key := by
  have hkey := key_of_resolveMeasure h
  rcases resolveMeasure_cases h with ⟨hkind, key, -, rfl⟩ | ⟨hkind, field, measure, -, -, rfl⟩
  · rw [MeasureRequest.calculatedKey?, hkind]
    exact hkey
  · rw [MeasureRequest.calculatedKey?, hkind]
    rfl

theorem aggregateKeys_of_resolves
    (h : List.Forall₂ (fun m r => source.resolveMeasure m = .ok r) request.measures resolved) :
    resolved.filterMap ResolvedMeasure.aggregateKey? =
      request.measures.filterMap MeasureRequest.aggregateKey? :=
  (filterMap_eq_of_forall₂ h fun _ _ => aggregateKey_of_resolveMeasure).symm

theorem Compiles.calculatedKeys (h : source.Compiles request resolved orders) :
    (resolved.filterMap ResolvedMeasure.calculation?).map CalculatedColumn.key =
      request.calculatedKeys := by
  rw [List.map_filterMap]
  exact (filterMap_eq_of_forall₂ h.resolves fun _ _ => calculatedKey_of_resolveMeasure).symm

theorem map_key_requestColumns (hknown : ∀ key ∈ request.dimensions, source.dimensions.contains key)
    (hresolves : List.Forall₂ (fun m r => source.resolveMeasure m = .ok r) request.measures resolved) :
    (source.requestColumns request resolved).map SelectedColumn.key = request.answeredKeys := by
  rw [requestColumns, List.map_append, map_key_dimensionColumns hknown, map_key_aggregateColumns,
    aggregateKeys_of_resolves hresolves]
  rfl

theorem Compiles.map_key (h : source.Compiles request resolved orders) :
    (source.requestColumns request resolved).map SelectedColumn.key = request.answeredKeys :=
  map_key_requestColumns h.known h.resolves

/-- The keys of measures fall into those of aggregates and those of calculations. -/
theorem perm_map_key (resolved : List ResolvedMeasure) :
    (resolved.map ResolvedMeasure.key).Perm
      (resolved.filterMap ResolvedMeasure.aggregateKey? ++
        (resolved.filterMap ResolvedMeasure.calculation?).map CalculatedColumn.key) := by
  induction resolved with
  | nil => exact List.Perm.refl _
  | cons r resolved ih =>
      cases r with
      | aggregate key measure aggregation =>
          simpa [List.filterMap_cons, ResolvedMeasure.aggregateKey?] using ih
      | calculated column =>
          simpa [List.filterMap_cons, ResolvedMeasure.aggregateKey?] using
            (ih.cons column.key).trans List.perm_middle.symm

theorem Compiles.keys_nodup (h : source.Compiles request resolved orders) :
    (request.answeredKeys ++ request.calculatedKeys).Nodup := by
  have hkeys := (perm_map_key resolved).append_left request.dimensions
  rw [aggregateKeys_of_resolves h.resolves, h.calculatedKeys, ← List.append_assoc] at hkeys
  exact hkeys.nodup_iff.1 h.distinct

/-- The names of columns that are numbered apart are different. -/
theorem Compiles.names_nodup (h : source.Compiles request resolved orders) :
    ((source.requestColumns request resolved).map SelectedColumn.name).Nodup := by
  rw [requestColumns, List.map_append, map_name_dimensionColumns h.known, map_name_aggregateColumns]
  refine List.nodup_append.2
    ⟨numbered_nodup _ _ List.nodup_range', numbered_nodup _ _ List.nodup_range', ?_⟩
  intro a ha b hb heq
  obtain ⟨i, -, rfl⟩ := List.mem_map.1 ha
  obtain ⟨j, -, rfl⟩ := List.mem_map.1 hb
  have hfirst := congrArg (fun s => s.toList.head?) heq
  simp at hfirst

theorem Compiles.plan_distinct (h : source.Compiles request resolved orders) :
    (source.requestPlan request resolved).Distinct where
  columns := by
    simpa [requestPlan, Function.comp_def] using h.names_nodup
  keys := by
    have hkeys := h.map_key
    simp only [requestPlan, List.map_map, Function.comp_def]
    rw [hkeys, h.calculatedKeys]
    exact h.keys_nodup

/-- In a row by position, the column at a place has the value of that place. -/
theorem map_get?_columns {columns : List SelectedColumn}
    (h : (columns.map SelectedColumn.name).Nodup) (row : List Json) :
    columns.map (fun c => (c.key,
        (Record.get? (ResultSet.record (columns.map SelectedColumn.name) row) c.name).getD .null)) =
      (columns.map SelectedColumn.key).mapIdx fun j key => (key, row.getD j .null) := by
  have hvalues := ResultSet.map_get?_record h row
  rw [List.map_map, List.length_map] at hvalues
  refine List.ext_getElem (by simp) ?_
  intro j hj _
  have hvalue := List.getElem_of_eq hvalues (i := j) (by simpa using hj)
  simp only [List.getElem_map, Function.comp_apply, List.getElem_range] at hvalue
  simp only [List.getElem_map, List.getElem_mapIdx, hvalue]

theorem shapeRows_positional {limits : QueryLimits} {db : Database} {compiled : CompiledQuery}
    (hcompile : source.compile limits db request = .ok compiled) :
    ∃ select names, source.plan limits request = .ok (select, compiled.plan) ∧
      compiled.sql = select.render db ∧ select.columns.map Select.Column.name = names.map some ∧
      (request.answeredKeys ++ request.calculatedKeys).Nodup ∧
      (∀ rows : List (List Json), List.Forall₂
        (fun row shaped => ∃ computed : Record, computed.keys = request.calculatedKeys ∧
          shaped = request.answeredKeys.mapIdx (fun j key => (key, row.getD j .null)) ++ computed)
        rows (compiled.plan.shapeRows (ResultSet.ofPositional names rows).rows)) ∧
      (∀ row row' : Record,
        (∀ o ∈ compiled.plan.outputs, row.get? o.column = row'.get? o.column) →
        compiled.plan.shapeRow row = compiled.plan.shapeRow row') := by
  obtain ⟨select, hplan, hsql⟩ := plan_of_compile hcompile
  obtain ⟨resolved, orders, hcompiles, rfl, hresult⟩ := plan_eq_ok_iff.1 hplan
  have hdistinct := hcompiles.plan_distinct
  rw [← hresult] at hdistinct
  refine ⟨_, (source.requestColumns request resolved).map SelectedColumn.name, hplan, hsql, ?_,
    hcompiles.keys_nodup, ?_, fun _ _ => hdistinct.shapeRow_congr⟩
  · simp [requestSelect, Function.comp_def]
  · intro rows
    have hnames : ResultSet.distinctNames []
        ((source.requestColumns request resolved).map SelectedColumn.name) =
          (source.requestColumns request resolved).map SelectedColumn.name :=
      ResultSet.distinctNames_of_nodup (by simpa using hcompiles.names_nodup)
    simp only [ResultPlan.shapeRows, ResultSet.ofPositional, hnames, List.map_map]
    rw [List.forall₂_map_right_iff, List.forall₂_same]
    intro row _
    obtain ⟨computed, hcomputed, hshaped⟩ := hdistinct.shapeRow_eq
      (ResultSet.record ((source.requestColumns request resolved).map SelectedColumn.name) row)
    rw [hresult] at hcomputed hshaped
    refine ⟨computed, hcomputed.trans hcompiles.calculatedKeys, ?_⟩
    rw [← hcompiles.map_key, ← map_get?_columns hcompiles.names_nodup, hresult, Function.comp_apply,
      hshaped]
    simp [requestPlan, Function.comp_def]

/-- The keys of aggregates may be names of columns. -/
theorem shapeRows_keys_like_columns :
    ∃ (request : Request) (compiled : CompiledQuery), request.answeredKeys = ["region", "measure_1", "dim_0"] ∧
      Source.orders.compile .usual .mysql request = .ok compiled ∧
      ∃ select names, Source.orders.plan .usual request = .ok (select, compiled.plan) ∧
        compiled.sql = select.render .mysql ∧
        select.columns.map Select.Column.name = names.map some ∧
        (request.answeredKeys ++ request.calculatedKeys).Nodup ∧
        (∀ rows : List (List Json), List.Forall₂
          (fun row shaped => ∃ computed : Record, computed.keys = request.calculatedKeys ∧
            shaped = request.answeredKeys.mapIdx (fun j key => (key, row.getD j .null)) ++ computed)
          rows (compiled.plan.shapeRows (ResultSet.ofPositional names rows).rows)) ∧
        (∀ row row' : Record,
          (∀ o ∈ compiled.plan.outputs, row.get? o.column = row'.get? o.column) →
          compiled.plan.shapeRow row = compiled.plan.shapeRow row') := by
  let measures : List MeasureRequest :=
    [{ MeasureRequest.ofField "total" with aliasName := some "measure_1" },
      .computed "measure_1 / 2" "half",
      { MeasureRequest.ofField "total" with aliasName := some "dim_0" }]
  exact ⟨{ Request.openByRegion with measures := measures }, _, rfl, rfl, shapeRows_positional rfl⟩

end Source

end SemanticLayer
