import SemanticLayer.Engine.Target
import SemanticLayer.Schema.Assembly
import SemanticLayer.Sql.Catalog
/-!
What is done with a pool once a request has one: the statements to run, one after another, and the reply
made of their results.
-/
namespace SemanticLayer

structure TestReport where
  version : Option String
  catalogName : Option String
  username : Option String
  tableCount : Option Nat
  database : Database
  deriving DecidableEq

def TestReport.toJson (r : TestReport) : Json :=
  .obj [("success", .bool true), ("version", .ofText? r.version),
    ("database", .ofText? r.catalogName), ("user", .ofText? r.username),
    ("tableCount", .ofNat? r.tableCount), ("dbType", .str r.database.name)]

inductive Reply where
  | nothing
  | pool (backend : Nat)
  | evicted (found : Bool)
  | rows (rows : List Record)
  | values (values : List Json)
  | raw (reply : RawReply)
  | schema (schema : DatabaseSchema)
  | report (report : TestReport)

/-- What is done with a pool. -/
inductive Errand where
  /-- Nothing: the pool itself was asked for. -/
  | hold
  | query (compiled : CompiledQuery) (timeout : Nat)
  | values (sql : String) (timeout : Nat)
  | raw (sql : String) (settings : SandboxSettings)
  /-- Describing the database, to be kept under a key. -/
  | describe (key : PoolKey) (catalogName : String) (timeout : Nat)
  /-- Testing a connection, which is a saved one if it has an id. -/
  | probe (id : Option String) (timeout : Nat)

namespace Errand

def catalogStatements (db : Database) : List String :=
  [db.tablesQuery, db.columnsQuery, db.primaryKeysQuery, db.uniqueColumnsQuery, db.foreignKeysQuery]

def statements (db : Database) : Errand → Except Failure (List String)
  | hold => .ok []
  | query compiled _ => .ok [compiled.sql]
  | values sql _ => .ok [sql]
  | raw sql settings => (Raw.prepare db settings sql).map fun s => [s.limited]
  | describe _ _ _ => .ok (catalogStatements db)
  | probe _ _ => .ok [db.versionQuery, db.tableCountQuery]

def timeout : Errand → Nat
  | hold => 0
  | query _ timeout => timeout
  | values _ timeout => timeout
  | raw _ settings => settings.timeout
  | describe _ _ timeout => timeout
  | probe _ timeout => timeout

/-- A failure of a statement, told in terms of the request. -/
def explain (db : Database) (errand : Errand) (failure : Failure) : Failure :=
  match errand with
  | raw sql settings =>
    match Raw.prepare db settings sql with
    | .ok s => Raw.explain sql s failure
    | .error _ => failure
  | _ => failure

def rowsOf (results : List ResultSet) (number : Nat) : List Record :=
  match results[number]? with
  | some r => r.rows
  | none => []

/-- The values of the column `value`, without nulls. -/
def columnValues (rows : List Record) : List Json :=
  rows.filterMap fun row =>
    match row.get? "value" with
    | some .null => none
    | v => v

def report (db : Database) (results : List ResultSet) : TestReport :=
  let scalar (number : Nat) (column : String) : Option Json :=
    results[number]?.bind fun r => r.scalar? column
  { version := (scalar 0 "version").bind Json.spelling?
    catalogName := (scalar 0 "database").bind Json.spelling?
    username := (scalar 0 "user").bind Json.spelling?
    tableCount := ((scalar 1 "table_count").bind Json.number?).map (Json.saturate 64)
    database := db }

/-- The reply from the results of all statements in order. -/
def reply (db : Database) (backend : Nat) (errand : Errand) (results : List ResultSet) : Reply :=
  match errand with
  | hold => .pool backend
  | query compiled _ => .rows (compiled.plan.shapeRows (rowsOf results 0))
  | values _ _ => .values (columnValues (rowsOf results 0))
  | raw _ settings => .raw (Raw.reply db settings (results.head?.getD .empty))
  | describe _ catalogName _ =>
    let rows : CatalogRows :=
      { tables := rowsOf results 0
        columns := rowsOf results 1
        primaryKeys := rowsOf results 2
        uniqueColumns := rowsOf results 3
        foreignKeys := rowsOf results 4 }
    .schema (rows.assemble catalogName db)
  | probe _ _ => .report (report db results)

end Errand

end SemanticLayer
