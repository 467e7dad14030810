import SemanticLayer.Query.Filter
import SemanticLayer.Query.Joins
import SemanticLayer.Query.Plan
/-!
Compiling a request against its source: the statement to run and the plan for its rows. The columns
of the statement have names of their own, so that no requested key can clash in SQL.
-/
namespace SemanticLayer

/-- The limits on rows: without a request, at most, and for the values of one column. -/
structure QueryLimits where
  standard : Nat
  greatest : Nat
  distinct : Nat
  deriving DecidableEq, Repr

def QueryLimits.usual : QueryLimits where
  standard := 1000
  greatest := 10000
  distinct := 500

def QueryLimits.clamp (limits : QueryLimits) (requested : Option Nat) : Nat :=
  max (min (requested.getD limits.standard) limits.greatest) 1

structure CompiledQuery where
  sql : String
  plan : ResultPlan
  limit : Nat

/-- A column of the statement with the key it answers and the join it needs. -/
structure SelectedColumn where
  key : String
  name : String
  term : Select.Term
  join : Option String

inductive ResolvedMeasure where
  | aggregate (key : String) (measure : Measure) (aggregation : Aggregation)
  | calculated (column : CalculatedColumn)

def ResolvedMeasure.key : ResolvedMeasure → String
  | aggregate key _ _ => key
  | calculated column => column.key

namespace Source

def resolveMeasure (source : Source) (m : MeasureRequest) : Except Failure ResolvedMeasure :=
  match m.kind with
  | .calculated =>
    let text := (m.expression <|> m.field).getD ""
    match m.aliasName <|> m.field with
    | none => .error (.validation ("calculated measure '" ++ text ++ "' needs an alias"))
    | some key => .ok (.calculated ⟨key, text, (Calculation.parse text).toOption⟩)
  | .aggregate =>
    match m.field with
    | none => .error (.validation "measure request is missing a field")
    | some field =>
      match source.measures.get? field with
      | none =>
        .error (.invalidField
          ("unknown measure '" ++ field ++ "' on source '" ++ source.name ++ "'"))
      | some measure =>
        .ok (.aggregate (m.aliasName.getD field) measure
          ((m.aggregation.map Aggregation.ofName).getD measure.defaultAggregation))

def claimKey (taken : List String) (key : String) : Except Failure Unit :=
  if taken.contains key then
    .error (.validation ("output key '" ++ key ++ "' is requested more than once; use an alias"))
  else .ok ()

/-- The columns of requested dimensions, of which `taken` are selected already. -/
def selectDimensions (source : Source) :
    List SelectedColumn → List String → Except Failure (List SelectedColumn)
  | taken, [] => .ok taken
  | taken, key :: rest =>
    match source.dimensions.get? key with
    | none =>
      .error (.invalidField ("unknown dimension '" ++ key ++ "' on source '" ++ source.name ++ "'"))
    | some d => do
      claimKey (taken.map SelectedColumn.key) key
      selectDimensions source
        (taken ++ [⟨key, "dim_" ++ toString taken.length, .fragment d.expression, d.join⟩]) rest

/-- The columns and calculations of requested measures, of which `taken` and `calculated` are
selected already; `dimensions` are the keys of dimensions. -/
def selectMeasures (source : Source) (dimensions : List String) :
    List SelectedColumn → List CalculatedColumn → List MeasureRequest →
    Except Failure (List SelectedColumn × List CalculatedColumn)
  | taken, calculated, [] => .ok (taken, calculated)
  | taken, calculated, m :: rest => do
    let resolved ← source.resolveMeasure m
    claimKey
      (dimensions ++ taken.map SelectedColumn.key ++ calculated.map CalculatedColumn.key)
      resolved.key
    match resolved with
    | .aggregate key measure aggregation =>
      selectMeasures source dimensions
        (taken ++ [⟨key, "measure_" ++ toString taken.length,
          .aggregate aggregation (.fragment measure.expression), measure.join⟩])
        calculated rest
    | .calculated column => selectMeasures source dimensions taken (calculated ++ [column]) rest

/-- The filters that apply: those on a known column whose value is not blank. -/
def appliedFilters (source : Source) (filters : Dictionary Json) : List (FilterColumn × Json) :=
  filters.entries.filterMap fun f =>
    if f.2.isBlank then none else (source.filterColumns.get? f.1).map (·, f.2)

def fromTable (source : Source) : Select.Table :=
  ⟨source.table, source.aliasName⟩

def joinClauses (source : Source) (required : List String) : List String :=
  (source.resolveJoins required).map fun j => j.clause.sql

end Source

/-- What to sort by: the key of the request, or the first measure from the greatest down. -/
def sortOrders (columns measures : List SelectedColumn) :
    Option SortKey → Except Failure (List Select.Order)
  | some sort =>
    match columns.find? fun c => c.key == sort.field with
    | some c => .ok [⟨.output c.name, sort.direction⟩]
    | none =>
      .error (.validation ("cannot sort by '" ++ sort.field ++
        "': not a requested dimension or aggregate measure"))
  | none =>
    match measures with
    | m :: _ => .ok [⟨.output m.name, .descending⟩]
    | [] => .ok []

def Source.plan (source : Source) (limits : QueryLimits) (request : Request) :
    Except Failure (Select × ResultPlan) := do
  if request.dimensions.isEmpty && request.measures.isEmpty then
    throw (.validation "query needs at least one dimension or measure")
  let dimensions ← source.selectDimensions [] request.dimensions
  let (measures, calculated) ←
    source.selectMeasures (dimensions.map SelectedColumn.key) [] [] request.measures
  let columns := dimensions ++ measures
  if columns.isEmpty then
    throw (.validation "query needs at least one dimension or aggregate measure")
  let filters := source.appliedFilters request.filters
  let orders ← sortOrders columns measures request.sort
  let joins := columns.filterMap SelectedColumn.join ++ filters.filterMap fun f => f.1.join
  let select : Select := {
    distinct := false
    columns := columns.map fun c => ⟨c.term, some c.name⟩
    table := source.fromTable
    joins := source.joinClauses joins
    filters := filters.map fun f => f.1.condition f.2
    groups := dimensions.map SelectedColumn.term
    orders := orders
    limit := some (limits.clamp request.limit)
  }
  pure (select, ⟨columns.map fun c => ⟨c.name, c.key⟩, calculated⟩)

def Source.compile (source : Source) (limits : QueryLimits) (db : Database) (request : Request) :
    Except Failure CompiledQuery := do
  let (select, plan) ← source.plan limits request
  pure ⟨select.render db, plan, limits.clamp request.limit⟩

/-- The expression and the join of a dimension or, where there is none, a filter column. -/
def Source.field? (source : Source) (name : String) : Option (String × Option String) :=
  match source.dimensions.get? name with
  | some d => some (d.expression, d.join)
  | none => (source.filterColumns.get? name).map fun c => (c.column, c.join)

/-- The statement for the values of a column in ascending order, each once and without nulls. -/
def Source.distinctValues (source : Source) (limits : QueryLimits) (field : String) :
    Except Failure Select :=
  match source.field? field with
  | none =>
    .error (.invalidField ("unknown field '" ++ field ++ "' on source '" ++ source.name ++ "'"))
  | some (expression, join) => .ok {
      distinct := true
      columns := [⟨.fragment expression, some "value"⟩]
      table := source.fromTable
      joins := source.joinClauses join.toList
      filters := [.present (.fragment expression)]
      groups := []
      orders := [⟨.output "value", .ascending⟩]
      limit := some limits.distinct
    }

end SemanticLayer
