import SemanticLayer.Failure
import SemanticLayer.Text.Blank
/-!
The database engines that queries are written for.
-/
namespace SemanticLayer

inductive Database where
  | postgresql
  | mssql
  | mysql
  deriving DecidableEq, Repr, Inhabited

namespace Database

def name : Database → String
  | postgresql => "postgresql"
  | mssql => "mssql"
  | mysql => "mysql"

def ofExactName? : String → Option Database
  | "postgresql" => some postgresql
  | "postgres" => some postgresql
  | "mssql" => some mssql
  | "sqlserver" => some mssql
  | "mysql" => some mysql
  | "mariadb" => some mysql
  | _ => none

/-- The engine a user names: case and blanks around the name do not matter. -/
def ofName (s : String) : Except Failure Database :=
  match ofExactName? (Text.looseKey s) with
  | some database => .ok database
  | none => .error (.validation ("unsupported database type: " ++ Text.looseKey s))

def defaultPort : Database → Nat
  | postgresql => 5432
  | mssql => 1433
  | mysql => 3306

end Database

end SemanticLayer
