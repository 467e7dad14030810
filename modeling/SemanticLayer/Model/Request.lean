import SemanticLayer.Model.Source
/-!
A request for rows of a source: dimensions, measures, filters, one sort key and a limit.
-/
namespace SemanticLayer

/-- Whether a requested measure is aggregated by the database or computed from other columns of the
same row. -/
inductive MeasureKind where
  | calculated
  | aggregate
  deriving DecidableEq, Repr

def MeasureKind.name : MeasureKind → String
  | calculated => "calculated"
  | aggregate => "aggregate"

/-- The kind with the given name: every name but one means an aggregate. -/
def MeasureKind.ofName : String → MeasureKind
  | "calculated" => calculated
  | _ => aggregate

structure MeasureRequest where
  field : Option String
  expression : Option String
  aggregation : Option String
  aliasName : Option String
  kind : MeasureKind
  deriving DecidableEq

def MeasureRequest.ofField (field : String) : MeasureRequest where
  field := some field
  expression := none
  aggregation := none
  aliasName := none
  kind := .aggregate

def MeasureRequest.computed (expression aliasName : String) : MeasureRequest where
  field := none
  expression := some expression
  aggregation := none
  aliasName := some aliasName
  kind := .calculated

inductive SortDirection where
  | ascending
  | descending
  deriving DecidableEq, Repr

def SortDirection.name : SortDirection → String
  | ascending => "asc"
  | descending => "desc"

def SortDirection.keyword : SortDirection → String
  | ascending => "ASC"
  | descending => "DESC"

def SortDirection.ofName? : String → Option SortDirection
  | "asc" => some ascending
  | "ASC" => some ascending
  | "desc" => some descending
  | "DESC" => some descending
  | _ => none

structure SortKey where
  field : String
  direction : SortDirection
  deriving DecidableEq

structure Request where
  source : String
  dimensions : List String
  measures : List MeasureRequest
  filters : Dictionary Json
  sort : Option SortKey
  limit : Option Nat
  /-- The connection to use instead of the source's. -/
  connectionId : Option String

/-! ## Decoding -/

def MeasureRequest.ofDocument? (d : Document) : Option MeasureRequest := do
  let f ← d.fields? ["field", "expression", "aggregation", "alias", "type"]
  let field ← f.may "field" Document.text?
  let expression ← f.may "expression" Document.text?
  let aggregation ← f.may "aggregation" Document.text?
  let aliasName ← f.may "alias" Document.text?
  let kind ← f.orElse "type" .aggregate fun d => d.choice?.map MeasureKind.ofName
  pure { field, expression, aggregation, aliasName, kind }

def SortKey.ofDocument? (d : Document) : Option SortKey := do
  let f ← d.fields? ["field", "direction"]
  let field ← f.need "field" Document.text?
  let direction ← f.orElse "direction" .ascending fun d => d.choice?.bind SortDirection.ofName?
  pure { field, direction }

def Request.ofDocument? (d : Document) : Option Request := do
  let f ← d.fields?
    ["source", "dimensions", "measures", "filters", "sort", "limit", "connectionId"]
  let source ← f.need "source" Document.text?
  let dimensions ← f.orElse "dimensions" [] (Document.listOf? Document.text?)
  let measures ← f.orElse "measures" [] (Document.listOf? MeasureRequest.ofDocument?)
  let filters ← f.orElse "filters" .empty (Document.dictionaryOf? Document.value?)
  let sort ← f.may "sort" SortKey.ofDocument?
  let limit ← f.may "limit" (Document.unsigned? 64)
  let connectionId ← f.may "connectionId" Document.text?
  pure { source, dimensions, measures, filters, sort, limit, connectionId }

/-! ## Encoding -/

def MeasureRequest.toJson (m : MeasureRequest) : Json :=
  .obj [("field", .ofText? m.field), ("expression", .ofText? m.expression),
    ("aggregation", .ofText? m.aggregation), ("alias", .ofText? m.aliasName),
    ("type", .str m.kind.name)]

def SortKey.toJson (s : SortKey) : Json :=
  .obj [("field", .str s.field), ("direction", .str s.direction.name)]

def Json.ofNat? : Option Nat → Json
  | some n => .int n
  | none => .null

def Request.toJson (r : Request) : Json :=
  .obj [("source", .str r.source), ("dimensions", .arr (r.dimensions.map .str)),
    ("measures", .arr (r.measures.map MeasureRequest.toJson)), ("filters", r.filters.toJson id),
    ("sort", match r.sort with | some s => s.toJson | none => .null),
    ("limit", .ofNat? r.limit), ("connectionId", .ofText? r.connectionId)]

end SemanticLayer
