import SemanticLayer.Model.Aggregation
/-!
A logical data source: one table or view with the vocabulary defined over it, which is its
dimensions, measures, joins and filters. The fragments of SQL in it come from its author.
-/
namespace SemanticLayer

structure Dimension where
  expression : String
  label : Option String
  join : Option String
  deriving DecidableEq

structure Measure where
  expression : String
  label : Option String
  defaultAggregation : Aggregation
  join : Option String
  deriving DecidableEq

/-- A complete join clause and the joins that have to stand before it. -/
structure JoinClause where
  sql : String
  requires : List String
  deriving DecidableEq

inductive FilterOperator where
  | equal
  | notEqual
  | greater
  | greaterOrEqual
  | less
  | lessOrEqual
  | like
  deriving DecidableEq, Repr

def FilterOperator.name : FilterOperator → String
  | equal => "="
  | notEqual => "!="
  | greater => ">"
  | greaterOrEqual => ">="
  | less => "<"
  | lessOrEqual => "<="
  | like => "like"

def FilterOperator.ofName? : String → Option FilterOperator
  | "=" => some equal
  | "eq" => some equal
  | "!=" => some notEqual
  | "<>" => some notEqual
  | "neq" => some notEqual
  | ">" => some greater
  | "gt" => some greater
  | ">=" => some greaterOrEqual
  | "gte" => some greaterOrEqual
  | "<" => some less
  | "lt" => some less
  | "<=" => some lessOrEqual
  | "lte" => some lessOrEqual
  | "like" => some like
  | "LIKE" => some like
  | _ => none

inductive ValueType where
  | string
  | number
  | boolean
  | date
  deriving DecidableEq, Repr

def ValueType.name : ValueType → String
  | string => "string"
  | number => "number"
  | boolean => "boolean"
  | date => "date"

def ValueType.ofName? : String → Option ValueType
  | "string" => some string
  | "number" => some number
  | "boolean" => some boolean
  | "date" => some date
  | _ => none

structure FilterColumn where
  column : String
  valueType : Option ValueType
  operator : Option FilterOperator
  join : Option String
  deriving DecidableEq

structure Source where
  name : String
  label : Option String
  table : String
  /-- The name that the fragments use for the table. -/
  aliasName : Option String
  /-- The connection the source lives on; without one it is the default connection. -/
  connectionId : Option String
  dimensions : Dictionary Dimension
  measures : Dictionary Measure
  joins : Dictionary JoinClause
  filterColumns : Dictionary FilterColumn
  description : Option String

def Source.displayLabel (s : Source) : String :=
  s.label.getD s.name

/-! ## Decoding -/

def Dimension.full? (v : Json) : Option Dimension := do
  let f ← (Document.json v).fields? ["expr", "label", "join"]
  let expression ← f.need "expr" Document.text?
  let label ← f.may "label" Document.text?
  let join ← f.may "join" Document.text?
  pure { expression, label, join }

/-- A dimension: its expression alone, or the full form. -/
def Dimension.ofDocument? (d : Document) : Option Dimension :=
  d.value?.bind fun
    | .str expression => some { expression, label := none, join := none }
    | v => full? v

/-- A measure, which has no short form. -/
def Measure.ofDocument? (d : Document) : Option Measure := do
  let f ← d.fields? ["expr", "label", "default_agg", "join"]
  let expression ← f.need "expr" Document.text?
  let label ← f.may "label" Document.text?
  let defaultAggregation ← f.orElse "default_agg" .sum Aggregation.ofDocument?
  let join ← f.may "join" Document.text?
  pure { expression, label, defaultAggregation, join }

def JoinClause.full? (v : Json) : Option JoinClause := do
  let f ← (Document.json v).fields? ["sql", "requires"]
  let sql ← f.need "sql" Document.text?
  let requires ← f.orElse "requires" [] (Document.listOf? Document.text?)
  pure { sql, requires }

/-- A join: its clause alone, or the full form. -/
def JoinClause.ofDocument? (d : Document) : Option JoinClause :=
  d.value?.bind fun
    | .str sql => some { sql, requires := [] }
    | v => full? v

def FilterColumn.full? (v : Json) : Option FilterColumn := do
  let f ← (Document.json v).fields? ["column", "type", "op", "join"]
  let column ← f.need "column" Document.text?
  let valueType ← f.may "type" fun d => d.choice?.bind ValueType.ofName?
  let operator ← f.may "op" fun d => d.choice?.bind FilterOperator.ofName?
  let join ← f.may "join" Document.text?
  pure { column, valueType, operator, join }

/-- A filter column: its column alone, or the full form. -/
def FilterColumn.ofDocument? (d : Document) : Option FilterColumn :=
  d.value?.bind fun
    | .str column => some { column, valueType := none, operator := none, join := none }
    | v => full? v

def Source.ofDocument? (d : Document) : Option Source := do
  let f ← d.fields?
    ["name", "label", "table", "alias", "connection_id", "dimensions", "measures", "joins",
      "filter_columns", "description"]
  let name ← f.need "name" Document.text?
  let label ← f.may "label" Document.text?
  let table ← f.need "table" Document.text?
  let aliasName ← f.may "alias" Document.text?
  let connectionId ← f.may "connection_id" Document.text?
  let dimensions ← f.orElse "dimensions" .empty (Document.dictionaryOf? Dimension.ofDocument?)
  let measures ← f.orElse "measures" .empty (Document.dictionaryOf? Measure.ofDocument?)
  let joins ← f.orElse "joins" .empty (Document.dictionaryOf? JoinClause.ofDocument?)
  let filterColumns ← f.orElse "filter_columns" .empty
    (Document.dictionaryOf? FilterColumn.ofDocument?)
  let description ← f.may "description" Document.text?
  pure { name, label, table, aliasName, connectionId, dimensions, measures, joins, filterColumns,
         description }

/-! ## Encoding -/

def Dictionary.toJson {α : Type} (encode : α → Json) (d : Dictionary α) : Json :=
  .obj (d.entries.map fun e => (e.1, encode e.2))

def Dimension.toJson (d : Dimension) : Json :=
  .obj [("expr", .str d.expression), ("label", .ofText? d.label), ("join", .ofText? d.join)]

def Measure.toJson (m : Measure) : Json :=
  .obj [("expr", .str m.expression), ("label", .ofText? m.label),
    ("default_agg", .str m.defaultAggregation.name), ("join", .ofText? m.join)]

def JoinClause.toJson (j : JoinClause) : Json :=
  .obj [("sql", .str j.sql), ("requires", .arr (j.requires.map .str))]

def FilterColumn.toJson (c : FilterColumn) : Json :=
  .obj [("column", .str c.column), ("type", .ofText? (c.valueType.map ValueType.name)),
    ("op", .ofText? (c.operator.map FilterOperator.name)), ("join", .ofText? c.join)]

def Source.toJson (s : Source) : Json :=
  .obj [("name", .str s.name), ("label", .ofText? s.label), ("table", .str s.table),
    ("alias", .ofText? s.aliasName), ("connection_id", .ofText? s.connectionId),
    ("dimensions", s.dimensions.toJson Dimension.toJson),
    ("measures", s.measures.toJson Measure.toJson), ("joins", s.joins.toJson JoinClause.toJson),
    ("filter_columns", s.filterColumns.toJson FilterColumn.toJson),
    ("description", .ofText? s.description)]

end SemanticLayer
