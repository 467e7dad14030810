import SemanticLayer.Schema.Basic
import SemanticLayer.Value
/-!
The description of a database put together from the rows of its catalog. Engines return flags and
counts in different types, so both are read leniently.
-/
namespace SemanticLayer

/-- The rows of the catalog, by the query that returned them. -/
structure CatalogRows where
  tables : List Record
  columns : List Record
  primaryKeys : List Record
  uniqueColumns : List Record
  foreignKeys : List Record

namespace CatalogRows

def text (row : Record) (key : String) : String :=
  ((row.get? key).bind Json.spelling?).getD ""

def flag (row : Record) (key : String) : Bool :=
  (row.get? key).any Json.truth

/-- A count, if there is one that is not negative. -/
def count? (row : Record) (key : String) : Option Nat :=
  ((row.get? key).bind Json.number?).bind fun x =>
    if x ≥ 0 then some (Json.saturate 64 x) else none

def columnKey (row : Record) : String × String :=
  (text row "table_name", text row "column_name")

def relationship (row : Record) : Relationship where
  name := text row "constraint_name"
  sourceTable := text row "source_table"
  sourceColumn := text row "source_column"
  targetTable := text row "target_table"
  targetColumn := text row "target_column"

def relationships (rows : CatalogRows) : List Relationship :=
  rows.foreignKeys.map relationship

def column (rows : CatalogRows) (row : Record) : SchemaColumn :=
  let key := columnKey row
  { name := key.2
    dataType := text row "data_type"
    nullable := flag row "is_nullable"
    hasDefault := flag row "has_default"
    isPrimaryKey := (rows.primaryKeys.map columnKey).contains key
    isUnique := (rows.uniqueColumns.map columnKey).contains key
    isForeignKey :=
      (rows.relationships.map fun r => (r.sourceTable, r.sourceColumn)).contains key
    position := (count? row "position").getD 0 % Nat.pow 2 32 }

def tableKind (row : Record) : TableKind :=
  if Text.sameLetters (text row "table_type").toList "view".toList then .view else .table

/-- The columns in order of position; those with the same one stay in order. -/
def ordered (columns : List SchemaColumn) : List SchemaColumn :=
  columns.mergeSort fun a b => a.position ≤ b.position

/-- The tables of the rows, of which each takes the columns with its name that no table before it
took. -/
def assembleTables : List (String × SchemaColumn) → List Record → List SchemaTable
  | _, [] => []
  | columns, row :: rest =>
    let name := text row "table_name"
    let kind := tableKind row
    let own := (columns.filter fun c => c.1 = name).map Prod.snd
    let table : SchemaTable :=
      { name := name
        kind := kind
        columns := ordered own
        rowCount := match kind with
          | .table => count? row "row_count"
          | .view => none }
    table :: assembleTables (columns.filter fun c => c.1 ≠ name) rest

def assemble (rows : CatalogRows) (catalogName : String) (database : Database) :
    DatabaseSchema where
  catalogName := catalogName
  database := database
  tables := assembleTables
    (rows.columns.map fun row => (text row "table_name", rows.column row)) rows.tables
  relationships := rows.relationships

end CatalogRows

end SemanticLayer
