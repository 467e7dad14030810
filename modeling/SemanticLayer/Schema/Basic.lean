import SemanticLayer.Database
import SemanticLayer.Model.Request
/-!
The description of a database: its tables with their columns, and the references between them.
-/
namespace SemanticLayer

structure SchemaColumn where
  name : String
  dataType : String
  nullable : Bool
  hasDefault : Bool
  isPrimaryKey : Bool
  isUnique : Bool
  isForeignKey : Bool
  position : Nat
  deriving DecidableEq

inductive TableKind where
  | table
  | view
  deriving DecidableEq, Repr

def TableKind.name : TableKind → String
  | table => "table"
  | view => "view"

/-- A table or view with its columns in order of position. -/
structure SchemaTable where
  name : String
  kind : TableKind
  columns : List SchemaColumn
  rowCount : Option Nat
  deriving DecidableEq

/-- A column that refers to a column of another table. -/
structure Relationship where
  name : String
  sourceTable : String
  sourceColumn : String
  targetTable : String
  targetColumn : String
  deriving DecidableEq

structure DatabaseSchema where
  catalogName : String
  database : Database
  tables : List SchemaTable
  relationships : List Relationship
  deriving DecidableEq

structure SchemaStatistics where
  tables : Nat
  views : Nat
  relationships : Nat
  columns : Nat
  deriving DecidableEq

def DatabaseSchema.statistics (s : DatabaseSchema) : SchemaStatistics where
  tables := (s.tables.filter fun t => t.kind = .table).length
  views := (s.tables.filter fun t => t.kind = .view).length
  relationships := s.relationships.length
  columns := (s.tables.flatMap SchemaTable.columns).length

/-! ## Encoding -/

def SchemaColumn.toJson (c : SchemaColumn) : Json :=
  .obj [("name", .str c.name), ("type", .str c.dataType), ("nullable", .bool c.nullable),
    ("hasDefault", .bool c.hasDefault), ("isPrimaryKey", .bool c.isPrimaryKey),
    ("isUnique", .bool c.isUnique), ("isForeignKey", .bool c.isForeignKey),
    ("position", .int c.position)]

def SchemaTable.toJson (t : SchemaTable) : Json :=
  .obj [("name", .str t.name), ("type", .str t.kind.name),
    ("columns", .arr (t.columns.map SchemaColumn.toJson)), ("rowCount", .ofNat? t.rowCount)]

def Relationship.toJson (r : Relationship) : Json :=
  .obj [("name", .str r.name), ("sourceTable", .str r.sourceTable),
    ("sourceColumn", .str r.sourceColumn), ("targetTable", .str r.targetTable),
    ("targetColumn", .str r.targetColumn)]

def SchemaStatistics.toJson (s : SchemaStatistics) : Json :=
  .obj [("tableCount", .int s.tables), ("viewCount", .int s.views),
    ("relationshipCount", .int s.relationships), ("totalColumns", .int s.columns)]

def DatabaseSchema.toJson (s : DatabaseSchema) : Json :=
  .obj [("database", .str s.catalogName), ("dbType", .str s.database.name),
    ("tables", .arr (s.tables.map SchemaTable.toJson)),
    ("relationships", .arr (s.relationships.map Relationship.toJson)),
    ("stats", s.statistics.toJson)]

end SemanticLayer
