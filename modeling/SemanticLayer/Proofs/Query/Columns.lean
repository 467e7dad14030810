import Mathlib.Data.List.Nodup
import SemanticLayer.Proofs.Checks
import SemanticLayer.Proofs.Dictionary
import SemanticLayer.Query.Compile
/-!
What a request that compiles is compiled to: the columns of its statement, its calculated columns and
its plan, each said from the request alone.
-/
namespace SemanticLayer

def ResolvedMeasure.calculation? : ResolvedMeasure → Option CalculatedColumn
  | aggregate _ _ _ => none
  | calculated column => some column

def ResolvedMeasure.join? : ResolvedMeasure → Option String
  | aggregate _ measure _ => measure.join
  | calculated _ => none

@[simp] theorem ResolvedMeasure.key_aggregate {key : String} {measure : Measure}
    {aggregation : Aggregation} : (aggregate key measure aggregation).key = key := rfl

@[simp] theorem ResolvedMeasure.key_calculated {column : CalculatedColumn} :
    (calculated column).key = column.key := rfl

@[simp] theorem ResolvedMeasure.calculation?_aggregate {key : String} {measure : Measure}
    {aggregation : Aggregation} : (aggregate key measure aggregation).calculation? = none := rfl

@[simp] theorem ResolvedMeasure.calculation?_calculated {column : CalculatedColumn} :
    (calculated column).calculation? = some column := rfl

/-- The columns of aggregates, numbered from `position` on. -/
def aggregateColumns : Nat → List ResolvedMeasure → List SelectedColumn
  | _, [] => []
  | position, .aggregate key measure aggregation :: rest =>
      ⟨key, "measure_" ++ toString position,
        .aggregate aggregation (.fragment measure.expression), measure.join⟩ ::
        aggregateColumns (position + 1) rest
  | position, .calculated _ :: rest => aggregateColumns position rest

def MeasureRequest.key? (m : MeasureRequest) : Option String :=
  m.aliasName <|> m.field

def MeasureRequest.aggregateKey? (m : MeasureRequest) : Option String :=
  match m.kind with
  | .calculated => none
  | .aggregate => m.key?

def ResolvedMeasure.aggregateKey? : ResolvedMeasure → Option String
  | aggregate key _ _ => some key
  | calculated _ => none

namespace Source

/-- The columns of dimensions, numbered from `position` on; a key without a dimension has none. -/
def dimensionColumns (source : Source) : Nat → List String → List SelectedColumn
  | _, [] => []
  | position, key :: rest =>
      match source.dimensions.get? key with
      | some d =>
        ⟨key, "dim_" ++ toString position, .fragment d.expression, d.join⟩ ::
          source.dimensionColumns (position + 1) rest
      | none => source.dimensionColumns (position + 1) rest

variable {source : Source}

theorem claimKey_eq_ok_iff {taken : List String} {key : String} :
    claimKey taken key = .ok () ↔ key ∉ taken := by
  simp [claimKey]

theorem selectDimensions_eq_ok_iff {taken columns : List SelectedColumn} {keys : List String}
    (htaken : (taken.map SelectedColumn.key).Nodup) :
    source.selectDimensions taken keys = .ok columns ↔
      (∀ key ∈ keys, source.dimensions.contains key) ∧
      (taken.map SelectedColumn.key ++ keys).Nodup ∧
      columns = taken ++ source.dimensionColumns taken.length keys := by
  induction keys generalizing taken with
  | nil => simpa [selectDimensions, dimensionColumns, htaken] using eq_comm
  | cons key keys ih =>
      unfold selectDimensions dimensionColumns
      cases hkey : source.dimensions.get? key with
      | none => simp [Dictionary.contains, hkey]
      | some d =>
          have hcontains : source.dimensions.contains key := by simp [Dictionary.contains, hkey]
          by_cases hfresh : key ∈ taken.map SelectedColumn.key
          · have hclaim : ¬claimKey (taken.map SelectedColumn.key) key = .ok () := by
              rwa [claimKey_eq_ok_iff, not_not]
            have hdup : ¬(taken.map SelectedColumn.key ++ key :: keys).Nodup := by
              intro h
              exact (List.nodup_append.1 h).2.2 key hfresh key (by simp) rfl
            simp [hclaim, hdup]
          · have hclaim : claimKey (taken.map SelectedColumn.key) key = .ok () :=
              claimKey_eq_ok_iff.2 hfresh
            simp only [bind_unit_eq_ok_iff, hclaim, true_and]
            rw [ih (by simpa [List.nodup_append, htaken] using hfresh)]
            simp [hcontains]

/-- What a measure that resolves is, by its kind. -/
theorem resolveMeasure_cases {m : MeasureRequest} {resolved : ResolvedMeasure}
    (h : source.resolveMeasure m = .ok resolved) :
    (m.kind = .calculated ∧ ∃ key, m.key? = some key ∧
      resolved = .calculated ⟨key, (m.expression <|> m.field).getD "",
        (Calculation.parse ((m.expression <|> m.field).getD "")).toOption⟩) ∨
    (m.kind = .aggregate ∧ ∃ field measure, m.field = some field ∧ source.measures.get? field = some measure ∧
      resolved = .aggregate (m.aliasName.getD field) measure
        ((m.aggregation.map Aggregation.ofName).getD measure.defaultAggregation)) := by
  unfold resolveMeasure at h
  split at h
  · rename_i hkind
    dsimp only at h
    split at h
    · simp at h
    · rename_i key hkey
      exact .inl ⟨hkind, key, hkey, (Except.ok.inj h).symm⟩
  · rename_i hkind
    split at h
    · simp at h
    · rename_i field hfield
      split at h
      · simp at h
      · rename_i measure hmeasure
        exact .inr ⟨hkind, field, measure, hfield, hmeasure, (Except.ok.inj h).symm⟩

theorem key_of_resolveMeasure {m : MeasureRequest} {resolved : ResolvedMeasure}
    (h : source.resolveMeasure m = .ok resolved) : m.key? = some resolved.key := by
  rcases resolveMeasure_cases h with ⟨-, key, hkey, rfl⟩ | ⟨-, field, measure, hfield, -, rfl⟩
  · exact hkey
  · rw [MeasureRequest.key?, hfield]
    cases m.aliasName <;> rfl

theorem aggregateKey_of_resolveMeasure {m : MeasureRequest} {resolved : ResolvedMeasure}
    (h : source.resolveMeasure m = .ok resolved) : m.aggregateKey? = resolved.aggregateKey? := by
  have hkey := key_of_resolveMeasure h
  rcases resolveMeasure_cases h with ⟨hkind, key, -, rfl⟩ | ⟨hkind, field, measure, -, -, rfl⟩
  · rw [MeasureRequest.aggregateKey?, hkind]
    rfl
  · rw [MeasureRequest.aggregateKey?, hkind]
    exact hkey

/-- The keys that measures may not have: those of dimensions and of measures already selected. -/
def takenKeys (dimensions : List String) (taken : List SelectedColumn)
    (calculated : List CalculatedColumn) : List String :=
  dimensions ++ taken.map SelectedColumn.key ++ calculated.map CalculatedColumn.key

/-- A measure that is selected takes its key, be it an aggregate or a calculation. -/
theorem takenKeys_select (dimensions : List String) (taken : List SelectedColumn)
    (calculated : List CalculatedColumn) (position : Nat) (r : ResolvedMeasure) :
    (takenKeys dimensions (taken ++ aggregateColumns position [r]) (calculated ++ r.calculation?.toList)).Perm
      (takenKeys dimensions taken calculated ++ [r.key]) := by
  cases r with
  | aggregate key measure aggregation =>
      have hswap : ([key] ++ calculated.map CalculatedColumn.key).Perm
          (calculated.map CalculatedColumn.key ++ [key]) := List.perm_append_comm
      simpa [takenKeys, aggregateColumns] using (hswap.append_left _).append_left _
  | calculated column => simp [takenKeys, aggregateColumns]

theorem not_mem_of_nodup_append_cons {keys more : List String} {key : String}
    (h : (keys ++ key :: more).Nodup) : key ∉ keys :=
  fun hmem => (List.nodup_append.1 h).2.2 key hmem key (by simp) rfl

theorem nodup_append_singleton {keys : List String} {key : String} (h : keys.Nodup)
    (hkey : key ∉ keys) : (keys ++ [key]).Nodup :=
  List.nodup_append.2 ⟨h, by simp, fun a ha b hb heq =>
    hkey (by rwa [← List.mem_singleton.1 hb, ← heq])⟩

section selectMeasures

variable {dimensions : List String} {m : MeasureRequest} {requests : List MeasureRequest}
  {taken columns : List SelectedColumn} {calculated calculations : List CalculatedColumn}

theorem selectMeasures_cons {r : ResolvedMeasure} (hm : source.resolveMeasure m = .ok r) :
    source.selectMeasures dimensions taken calculated (m :: requests) = (do
      claimKey (takenKeys dimensions taken calculated) r.key
      source.selectMeasures dimensions (taken ++ aggregateColumns taken.length [r])
        (calculated ++ r.calculation?.toList) requests) := by
  rw [selectMeasures, hm]
  cases r <;> simp [aggregateColumns, takenKeys]

theorem aggregateColumns_cons (position : Nat) (r : ResolvedMeasure) (resolved : List ResolvedMeasure) :
    aggregateColumns position (r :: resolved) = aggregateColumns position [r] ++
      aggregateColumns (position + (aggregateColumns position [r]).length) resolved := by
  cases r <;> rfl

theorem selectMeasures_eq_ok_iff (htaken : (takenKeys dimensions taken calculated).Nodup) :
    source.selectMeasures dimensions taken calculated requests = .ok (columns, calculations) ↔
      ∃ resolved, requests.mapM source.resolveMeasure = .ok resolved ∧
        (takenKeys dimensions taken calculated ++ resolved.map ResolvedMeasure.key).Nodup ∧
        columns = taken ++ aggregateColumns taken.length resolved ∧
        calculations = calculated ++ resolved.filterMap ResolvedMeasure.calculation? := by
  induction requests generalizing taken calculated with
  | nil =>
      simp only [selectMeasures, Except.ok.injEq, Prod.mk.injEq, List.mapM_nil, pure_eq_ok_iff]
      constructor
      · rintro ⟨rfl, rfl⟩
        exact ⟨[], rfl, by simpa using htaken, by simp [aggregateColumns], by simp⟩
      · rintro ⟨_, rfl, -, rfl, rfl⟩
        simp [aggregateColumns]
  | cons m requests ih =>
      cases hm : source.resolveMeasure m with
      | error e => simp [selectMeasures, hm]
      | ok r =>
          have hcons : (m :: requests).mapM source.resolveMeasure =
              List.cons r <$> requests.mapM source.resolveMeasure := by
            simp only [List.mapM_cons, hm, bind_pure_comp]
            rfl
          -- what is taken grows by the key of `r`, whichever of the two lists `r` goes to
          have hkeys := takenKeys_select dimensions taken calculated taken.length r
          have hmore (more : List String) := (hkeys.append_right more).nodup_iff
          rw [selectMeasures_cons hm, hcons]
          constructor
          · intro h
            obtain ⟨hclaim, h⟩ := bind_unit_eq_ok_iff.1 h
            have hfresh := claimKey_eq_ok_iff.1 hclaim
            obtain ⟨more, hresolved, hdistinct, rfl, rfl⟩ :=
              (ih (hkeys.nodup_iff.2 (nodup_append_singleton htaken hfresh))).1 h
            refine ⟨_, map_eq_ok_iff.2 ⟨more, hresolved, rfl⟩, ?_, ?_, ?_⟩
            · simpa using (hmore _).1 hdistinct
            · rw [aggregateColumns_cons _ r more, List.length_append, List.append_assoc]
            · cases r <;> simp [List.filterMap_cons]
          · rintro ⟨_, hmap, hdistinct, rfl, rfl⟩
            obtain ⟨more, hresolved, rfl⟩ := map_eq_ok_iff.1 hmap
            have hfresh := not_mem_of_nodup_append_cons hdistinct
            refine bind_unit_eq_ok_iff.2 ⟨claimKey_eq_ok_iff.2 hfresh,
              (ih (hkeys.nodup_iff.2 (nodup_append_singleton htaken hfresh))).2 ⟨more, hresolved, ?_, ?_, ?_⟩⟩
            · exact (hmore _).2 (by simpa using hdistinct)
            · rw [aggregateColumns_cons _ r more, List.length_append, List.append_assoc]
            · cases r <;> simp [List.filterMap_cons]

end selectMeasures

/-! ## The columns of a request -/

theorem map_key_dimensionColumns {keys : List String} {position : Nat}
    (hknown : ∀ key ∈ keys, source.dimensions.contains key) :
    (source.dimensionColumns position keys).map SelectedColumn.key = keys := by
  induction keys generalizing position with
  | nil => rfl
  | cons key keys ih =>
      obtain ⟨d, hd⟩ := Dictionary.contains_iff.1 (hknown key (by simp))
      simp [dimensionColumns, hd, ih fun k hk => hknown k (List.mem_cons_of_mem _ hk)]

theorem map_name_dimensionColumns {keys : List String} {position : Nat}
    (hknown : ∀ key ∈ keys, source.dimensions.contains key) :
    (source.dimensionColumns position keys).map SelectedColumn.name =
      (List.range' position keys.length).map fun i => "dim_" ++ toString i := by
  induction keys generalizing position with
  | nil => rfl
  | cons key keys ih =>
      obtain ⟨d, hd⟩ := Dictionary.contains_iff.1 (hknown key (by simp))
      simp [dimensionColumns, hd, List.range'_succ,
        ih fun k hk => hknown k (List.mem_cons_of_mem _ hk)]

theorem filterMap_join_dimensionColumns (source : Source) (position : Nat) (keys : List String) :
    (source.dimensionColumns position keys).filterMap SelectedColumn.join =
      keys.filterMap fun key => (source.dimensions.get? key).bind Dimension.join := by
  induction keys generalizing position with
  | nil => rfl
  | cons key keys ih =>
      unfold dimensionColumns
      cases hd : source.dimensions.get? key with
      | none => simpa [hd] using ih (position + 1)
      | some d => simp [hd, List.filterMap_cons, ih]

theorem map_key_aggregateColumns (position : Nat) (resolved : List ResolvedMeasure) :
    (aggregateColumns position resolved).map SelectedColumn.key =
      resolved.filterMap ResolvedMeasure.aggregateKey? := by
  induction resolved generalizing position with
  | nil => rfl
  | cons r resolved ih =>
      cases r <;>
        simp [aggregateColumns, List.filterMap_cons, ih, ResolvedMeasure.aggregateKey?]

theorem map_name_aggregateColumns (position : Nat) (resolved : List ResolvedMeasure) :
    (aggregateColumns position resolved).map SelectedColumn.name =
      (List.range' position (aggregateColumns position resolved).length).map fun i =>
        "measure_" ++ toString i := by
  induction resolved generalizing position with
  | nil => rfl
  | cons r resolved ih => cases r <;> simp [aggregateColumns, List.range'_succ, ih]

theorem filterMap_join_aggregateColumns (position : Nat) (resolved : List ResolvedMeasure) :
    (aggregateColumns position resolved).filterMap SelectedColumn.join =
      resolved.filterMap ResolvedMeasure.join? := by
  induction resolved generalizing position with
  | nil => rfl
  | cons r resolved ih =>
      cases r <;> simp [aggregateColumns, List.filterMap_cons, ih, ResolvedMeasure.join?]

def requestColumns (source : Source) (request : Request) (resolved : List ResolvedMeasure) :
    List SelectedColumn :=
  source.dimensionColumns 0 request.dimensions ++ aggregateColumns 0 resolved

def requestSelect (source : Source) (limits : QueryLimits) (request : Request)
    (resolved : List ResolvedMeasure) (orders : List Select.Order) : Select where
  distinct := false
  columns := (source.requestColumns request resolved).map fun c => ⟨c.term, some c.name⟩
  table := source.fromTable
  joins := source.joinClauses ((source.requestColumns request resolved).filterMap SelectedColumn.join ++
    (source.appliedFilters request.filters).filterMap fun f => f.1.join)
  filters := (source.appliedFilters request.filters).map fun f => f.1.condition f.2
  groups := (source.dimensionColumns 0 request.dimensions).map SelectedColumn.term
  orders := orders
  limit := some (limits.clamp request.limit)

def requestPlan (source : Source) (request : Request) (resolved : List ResolvedMeasure) :
    ResultPlan where
  outputs := (source.requestColumns request resolved).map fun c => ⟨c.name, c.key⟩
  calculated := resolved.filterMap ResolvedMeasure.calculation?

/-- A request that can be compiled, with its measures resolved and its sort keys found. -/
structure Compiles (source : Source) (request : Request) (resolved : List ResolvedMeasure)
    (orders : List Select.Order) : Prop where
  known : ∀ key ∈ request.dimensions, source.dimensions.contains key
  resolves : List.Forall₂ (fun m r => source.resolveMeasure m = .ok r) request.measures resolved
  distinct : (request.dimensions ++ resolved.map ResolvedMeasure.key).Nodup
  selects : source.requestColumns request resolved ≠ []
  sorts : sortOrders (source.requestColumns request resolved) (aggregateColumns 0 resolved)
    request.sort = .ok orders

theorem takenKeys_nil (dimensions : List String) : takenKeys dimensions [] [] = dimensions := by
  simp [takenKeys]

theorem compiles_of_plan {limits : QueryLimits} {request : Request} {select : Select} {plan : ResultPlan}
    (h : source.plan limits request = .ok (select, plan)) :
    ∃ resolved orders, source.Compiles request resolved orders ∧
      select = source.requestSelect limits request resolved orders ∧
      plan = source.requestPlan request resolved := by
  unfold Source.plan at h
  split at h
  · simp at h
  simp only [bind_eq_ok_iff, Prod.exists] at h
  obtain ⟨dimensions, hdimensions, measures, calculated, hmeasures, h⟩ := h
  obtain ⟨hknown, hdistinct, rfl⟩ :=
    (selectDimensions_eq_ok_iff (by simp)).1 hdimensions
  simp only [List.nil_append, List.length_nil, List.map_nil] at hdistinct hmeasures h
  rw [map_key_dimensionColumns hknown] at hmeasures
  obtain ⟨resolved, hresolved, hkeys, rfl, rfl⟩ :=
    (selectMeasures_eq_ok_iff (by rwa [takenKeys_nil])).1 hmeasures
  rw [takenKeys_nil] at hkeys
  split at h
  · simp at h
  rename_i hcolumns
  simp only [bind_eq_ok_iff, pure_eq_ok_iff, Prod.mk.injEq] at h
  obtain ⟨orders, horders, rfl, rfl⟩ := h
  refine ⟨resolved, orders, ⟨hknown, mapM_eq_ok_iff.1 hresolved, hkeys, ?_, ?_⟩, ?_, ?_⟩
  · simpa [requestColumns] using hcolumns
  · simpa [requestColumns] using horders
  · simp [requestSelect, requestColumns]
  · simp [requestPlan, requestColumns]

theorem Compiles.plan {limits : QueryLimits} {request : Request} {resolved : List ResolvedMeasure}
    {orders : List Select.Order} (h : source.Compiles request resolved orders) :
    source.plan limits request =
      .ok (source.requestSelect limits request resolved orders, source.requestPlan request resolved) := by
  have hdistinct : request.dimensions.Nodup := (List.nodup_append.1 h.distinct).1
  have hdimensions : source.selectDimensions [] request.dimensions =
      .ok (source.dimensionColumns 0 request.dimensions) :=
    (selectDimensions_eq_ok_iff (by simp)).2 ⟨h.known, by simpa using hdistinct, by simp⟩
  have hmeasures : source.selectMeasures request.dimensions [] [] request.measures =
      .ok (aggregateColumns 0 resolved, resolved.filterMap ResolvedMeasure.calculation?) := by
    refine (selectMeasures_eq_ok_iff ?_).2
      ⟨resolved, mapM_eq_ok_iff.2 h.resolves, by rw [takenKeys_nil]; exact h.distinct, by simp, by simp⟩
    rwa [takenKeys_nil]
  have hrequest : ¬(request.dimensions.isEmpty && request.measures.isEmpty) = true := by
    intro hempty
    obtain ⟨hd, hm⟩ : request.dimensions = [] ∧ request.measures = [] := by simpa using hempty
    obtain rfl : resolved = [] := by simpa [hm] using h.resolves
    exact h.selects (by simp [requestColumns, dimensionColumns, aggregateColumns, hd])
  have hselects : ¬(source.dimensionColumns 0 request.dimensions ++
      aggregateColumns 0 resolved).isEmpty = true := by
    simpa [requestColumns] using h.selects
  have hsorts := h.sorts
  unfold Source.plan
  rw [if_neg hrequest]
  simp only [hdimensions, ok_bind, map_key_dimensionColumns h.known, hmeasures, if_neg hselects]
  simp only [requestColumns] at hsorts
  simp only [hsorts, ok_bind]
  simp [requestSelect, requestPlan, requestColumns]

theorem plan_eq_ok_iff {limits : QueryLimits} {request : Request} {select : Select}
    {plan : ResultPlan} :
    source.plan limits request = .ok (select, plan) ↔
      ∃ resolved orders, source.Compiles request resolved orders ∧
        select = source.requestSelect limits request resolved orders ∧
        plan = source.requestPlan request resolved := by
  constructor
  · exact compiles_of_plan
  · rintro ⟨resolved, orders, h, rfl, rfl⟩
    exact h.plan

theorem compile_eq_ok_iff {limits : QueryLimits} {db : Database} {request : Request}
    {compiled : CompiledQuery} :
    source.compile limits db request = .ok compiled ↔
      ∃ resolved orders, source.Compiles request resolved orders ∧
        compiled = ⟨(source.requestSelect limits request resolved orders).render db,
          source.requestPlan request resolved, limits.clamp request.limit⟩ := by
  unfold compile
  simp only [bind_eq_ok_iff, pure_eq_ok_iff, Prod.exists, plan_eq_ok_iff]
  constructor
  · rintro ⟨_, _, ⟨resolved, orders, h, rfl, rfl⟩, rfl⟩
    exact ⟨resolved, orders, h, rfl⟩
  · rintro ⟨resolved, orders, h, rfl⟩
    exact ⟨_, _, ⟨resolved, orders, h, rfl, rfl⟩, rfl⟩

theorem plan_of_compile {limits : QueryLimits} {db : Database} {request : Request}
    {compiled : CompiledQuery} (h : source.compile limits db request = .ok compiled) :
    ∃ select, source.plan limits request = .ok (select, compiled.plan) ∧
      compiled.sql = select.render db := by
  obtain ⟨resolved, orders, hcompiles, rfl⟩ := compile_eq_ok_iff.1 h
  exact ⟨_, plan_eq_ok_iff.2 ⟨resolved, orders, hcompiles, rfl, rfl⟩, rfl⟩

end Source

/-! ## A source and a request for examples -/

/-- Orders, with regions that are joined through customers. -/
def Source.orders : Source where
  name := "orders"
  label := none
  table := "orders"
  aliasName := some "o"
  connectionId := none
  dimensions := .ofList [("region", ⟨"r.name", none, some "regions"⟩), ("day", ⟨"o.day", none, none⟩)]
  measures := .ofList [("total", ⟨"o.total", none, .sum, none⟩)]
  joins := .ofList [("customers", ⟨"JOIN customers c ON c.id = o.customer_id", []⟩),
    ("regions", ⟨"JOIN regions r ON r.id = c.region_id", ["customers"]⟩)]
  filterColumns := .ofList [("status", ⟨"o.status", some .string, none, none⟩)]
  description := none

/-- The total of open orders in each region, and its half. -/
def Request.openByRegion : Request where
  source := "orders"
  dimensions := ["region"]
  measures := [.ofField "total", .computed "total / 2" "half"]
  filters := .ofList [("status", .str "open")]
  sort := none
  limit := some 10
  connectionId := none

end SemanticLayer
