import SemanticLayer.Proofs.Query.Shaping
/-!
The shape of every statement that a request compiles to: dimensions that it groups by, aggregates, one
column to sort by, and one limit.
-/
namespace SemanticLayer

/-! ## One limit -/

/-- What a statement says between SELECT and its limit, or behind both. -/
def Select.body (db : Database) (q : Select) : List String :=
  [String.intercalate ", " (q.columns.map (Column.render db)), "FROM " ++ q.table.render] ++
  q.joins.map Text.trimmed ++
  clause "WHERE " " AND " (renderAll db q.filters) ++
  clause "GROUP BY " ", " (renderAll db q.groups) ++
  clause "ORDER BY " ", " (q.orders.map (Order.render db))

/-- A statement with one limit on its rows, where the engine wants it. -/
def Database.capped (db : Database) (n : Nat) (body : List String) : String :=
  match db.limitStyle with
  | .leading => String.intercalate " " (("SELECT TOP " ++ toString n) :: body)
  | .trailing => String.intercalate " " ("SELECT" :: body ++ ["LIMIT " ++ toString n])

theorem Select.render_capped (db : Database) {q : Select} {n : Nat} (hdistinct : q.distinct = false)
    (hlimit : q.limit = some n) : q.render db = db.capped n (q.body db) := by
  have hselect : "SELECT" ++ "" = "SELECT" := by decide
  have htop : "SELECT" ++ (" TOP " ++ n.repr) = "SELECT TOP " ++ n.repr := by
    rw [← String.append_assoc]
    rfl
  unfold render parts head tail Database.capped body
  cases hstyle : db.limitStyle <;> simp [hdistinct, hlimit, hselect, htop]

theorem QueryLimits.clamp_bounds (limits : QueryLimits) (requested : Option Nat) :
    1 ≤ limits.clamp requested ∧ limits.clamp requested ≤ max 1 limits.greatest := by
  unfold clamp
  omega

/-! ## Columns, groups and orders -/

namespace Source

variable {source : Source} {request : Request} {resolved : List ResolvedMeasure}
  {orders : List Select.Order} {limits : QueryLimits} {db : Database} {compiled : CompiledQuery}

/-- What a requested aggregate selects. -/
def Aggregates (source : Source) (m : MeasureRequest) (t : Select.Term) : Prop :=
  ∃ field measure, m.field = some field ∧ source.measures.get? field = some measure ∧
    t = .aggregate ((m.aggregation.map Aggregation.ofName).getD measure.defaultAggregation)
      (.fragment measure.expression)

/-- A statement that groups by the dimensions of a request, selects them and the aggregates under the
columns of a plan, and sorts by one of these at most. -/
structure Grouped (source : Source) (request : Request) (plan : ResultPlan) (select : Select) :
    Prop where
  groups : List.Forall₂
    (fun key t => ∃ d, source.dimensions.get? key = some d ∧ t = Select.Term.fragment d.expression)
    request.dimensions select.groups
  columns : ∃ aggregates,
    List.Forall₂ source.Aggregates (request.measures.filter fun m => m.kind = .aggregate) aggregates ∧
    select.columns.map Select.Column.term = select.groups ++ aggregates
  names : select.columns.map Select.Column.name = plan.outputs.map fun o => some o.column
  distinct : (plan.outputs.map OutputColumn.column).Nodup
  orders :
    match request.sort with
    | some sort => ∃ o ∈ plan.outputs, o.key = sort.field ∧
        select.orders = [⟨.output o.column, sort.direction⟩]
    | none => select.orders = (plan.outputs[request.dimensions.length]?).toList.map fun o =>
        ⟨.output o.column, .descending⟩

theorem resolveMeasure_eq_aggregate {m : MeasureRequest} {key : String} {measure : Measure}
    {aggregation : Aggregation}
    (h : source.resolveMeasure m = .ok (.aggregate key measure aggregation)) :
    m.kind = .aggregate ∧
      source.Aggregates m (.aggregate aggregation (.fragment measure.expression)) := by
  rcases resolveMeasure_cases h with ⟨-, key, -, heq⟩ | ⟨hkind, field, found, hfield, hfound, heq⟩
  · cases heq
  · obtain ⟨-, rfl, rfl⟩ := ResolvedMeasure.aggregate.inj heq
    exact ⟨hkind, field, measure, hfield, hfound, rfl⟩

theorem forall₂_dimensionColumns {keys : List String} {position : Nat}
    (hknown : ∀ key ∈ keys, source.dimensions.contains key) :
    List.Forall₂
      (fun key t => ∃ d, source.dimensions.get? key = some d ∧ t = Select.Term.fragment d.expression)
      keys ((source.dimensionColumns position keys).map SelectedColumn.term) := by
  induction keys generalizing position with
  | nil => exact .nil
  | cons key keys ih =>
      obtain ⟨d, hd⟩ := Dictionary.contains_iff.1 (hknown key (by simp))
      simp only [dimensionColumns, hd, List.map_cons]
      exact .cons ⟨d, hd, rfl⟩ (ih fun k hk => hknown k (List.mem_cons_of_mem _ hk))

theorem forall₂_aggregateColumns {requests : List MeasureRequest} {position : Nat}
    (h : List.Forall₂ (fun m r => source.resolveMeasure m = .ok r) requests resolved) :
    List.Forall₂ source.Aggregates (requests.filter fun m => m.kind = .aggregate)
      ((aggregateColumns position resolved).map SelectedColumn.term) := by
  induction h generalizing position with
  | nil => exact .nil
  | @cons m r requests resolved hm _ ih =>
      cases r with
      | aggregate key measure aggregation =>
          obtain ⟨hkind, haggregates⟩ := resolveMeasure_eq_aggregate hm
          rw [List.filter_cons_of_pos (by simpa using hkind)]
          exact .cons haggregates ih
      | calculated column =>
          obtain ⟨hkind, -⟩ := resolveMeasure_eq_calculated hm
          rw [List.filter_cons_of_neg (by simp [hkind])]
          exact ih

theorem sortOrders_some {columns measures : List SelectedColumn} {sort : SortKey}
    (h : sortOrders columns measures (some sort) = .ok orders) :
    ∃ c ∈ columns, c.key = sort.field ∧ orders = [⟨.output c.name, sort.direction⟩] := by
  rw [sortOrders] at h
  split at h
  · rename_i c hfind
    exact ⟨c, List.mem_of_find?_eq_some hfind, by simpa using List.find?_some hfind,
      (Except.ok.inj h).symm⟩
  · simp at h

theorem sortOrders_none {columns measures : List SelectedColumn}
    (h : sortOrders columns measures none = .ok orders) :
    orders = measures.head?.toList.map fun c => ⟨.output c.name, .descending⟩ := by
  cases measures with
  | nil => simpa [sortOrders] using h.symm
  | cons c measures => simpa [sortOrders] using h.symm

theorem Compiles.grouped (h : source.Compiles request resolved orders) :
    source.Grouped request (source.requestPlan request resolved)
      (source.requestSelect limits request resolved orders) where
  groups := forall₂_dimensionColumns h.known
  columns := by
    refine ⟨(aggregateColumns 0 resolved).map SelectedColumn.term,
      forall₂_aggregateColumns h.resolves, ?_⟩
    simp [requestSelect, requestColumns, Function.comp_def]
  names := by simp [requestSelect, requestPlan, Function.comp_def]
  distinct := h.plan_distinct.columns
  orders := by
    have hsorts := h.sorts
    split
    · rename_i sort hsort
      rw [hsort] at hsorts
      obtain ⟨c, hc, hkey, heq⟩ := sortOrders_some hsorts
      exact ⟨⟨c.name, c.key⟩, List.mem_map.2 ⟨c, hc, rfl⟩, hkey, heq⟩
    · rename_i hsort
      rw [hsort] at hsorts
      have hkeys : (source.dimensionColumns 0 request.dimensions).map SelectedColumn.key =
          request.dimensions := map_key_dimensionColumns h.known
      have hlength : (source.dimensionColumns 0 request.dimensions).length =
          request.dimensions.length := by
        simpa using congrArg List.length hkeys
      have hfirst : (source.requestColumns request resolved)[request.dimensions.length]? =
          (aggregateColumns 0 resolved).head? := by
        rw [requestColumns, ← hlength, List.getElem?_append_right (Nat.le_refl _), Nat.sub_self,
          List.head?_eq_getElem?]
      have heq := sortOrders_none hsorts
      rw [requestSelect, requestPlan, heq, List.getElem?_map, hfirst]
      cases (aggregateColumns 0 resolved).head? <;> rfl

/-! ## Statements of requests -/

theorem requestSelect_capped (request : Request) :
    (source.requestSelect limits request resolved orders).render db =
      db.capped (limits.clamp request.limit)
        ((source.requestSelect limits request resolved orders).body db) := by
  apply Select.render_capped
  · rfl
  · rfl

/-- The limit of a request reaches one place of its statement. -/
theorem Compiles.compile_withLimit (h : source.Compiles request resolved orders) (limit : Option Nat) :
    source.compile limits db { request with limit } = .ok
      ⟨db.capped (limits.clamp limit) ((source.requestSelect limits request resolved orders).body db),
        source.requestPlan request resolved, limits.clamp limit⟩ := by
  have hcompiles : source.Compiles { request with limit } resolved orders :=
    ⟨h.known, h.resolves, h.distinct, h.selects, h.sorts⟩
  have hbody : (source.requestSelect limits { request with limit } resolved orders).body db =
      (source.requestSelect limits request resolved orders).body db := by
    simp only [requestSelect, Select.body]
    rfl
  refine compile_eq_ok_iff.2 ⟨resolved, orders, hcompiles, ?_⟩
  rw [requestSelect_capped, hbody]
  rfl

theorem compile_grouped (hcompile : source.compile limits db request = .ok compiled) :
    ∃ select, source.plan limits request = .ok (select, compiled.plan) ∧
      source.Grouped request compiled.plan select ∧
      compiled.sql = db.capped compiled.limit (select.body db) ∧
      1 ≤ compiled.limit ∧ compiled.limit ≤ max 1 limits.greatest ∧
      ∀ limit, source.compile limits db { request with limit } = .ok
        ⟨db.capped (limits.clamp limit) (select.body db), compiled.plan, limits.clamp limit⟩ := by
  obtain ⟨resolved, orders, h, rfl⟩ := compile_eq_ok_iff.1 hcompile
  obtain ⟨hleast, hgreatest⟩ := limits.clamp_bounds request.limit
  refine ⟨source.requestSelect limits request resolved orders,
    plan_eq_ok_iff.2 ⟨resolved, orders, h, rfl, rfl⟩, h.grouped, ?_, hleast, hgreatest,
    h.compile_withLimit⟩
  dsimp only
  exact requestSelect_capped request

/-- Calculations stand between aggregates in the request, and not in the statement. -/
theorem compile_grouped_sorted :
    ∃ (request : Request) (compiled : CompiledQuery),
      request.sort = some ⟨"n", .ascending⟩ ∧
      Source.orders.compile .usual .mssql request = .ok compiled ∧
      compiled.sql =
        "SELECT TOP 10 r.name AS [dim_0], COALESCE(SUM(o.total), 0) AS [measure_0], " ++
        "COUNT(o.total) AS [measure_1] FROM orders o JOIN customers c ON c.id = o.customer_id " ++
        "JOIN regions r ON r.id = c.region_id WHERE (o.status = 'open') " ++
        "GROUP BY r.name ORDER BY [measure_1] ASC" ∧
      ∃ select, Source.orders.plan .usual request = .ok (select, compiled.plan) ∧
        Source.orders.Grouped request compiled.plan select ∧
        compiled.sql = Database.capped .mssql compiled.limit (select.body .mssql) ∧
        1 ≤ compiled.limit ∧ compiled.limit ≤ max 1 QueryLimits.usual.greatest ∧
        ∀ limit, Source.orders.compile .usual .mssql { request with limit } = .ok
          ⟨Database.capped .mssql (QueryLimits.usual.clamp limit) (select.body .mssql), compiled.plan,
            QueryLimits.usual.clamp limit⟩ := by
  let measures : List MeasureRequest :=
    [.ofField "total", .computed "total / n" "mean",
      { MeasureRequest.ofField "total" with aggregation := some "count", aliasName := some "n" }]
  let request : Request :=
    { Request.openByRegion with measures := measures, sort := some ⟨"n", .ascending⟩ }
  exact ⟨request, _, rfl, rfl, by decide +kernel, compile_grouped rfl⟩

end Source

end SemanticLayer
