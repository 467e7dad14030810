import SemanticLayer.Tsql.RowLimit
/-!
A limit on the rows of a statement in the terms of each engine.
-/
namespace SemanticLayer.Database

def limitRows (db : Database) (sql : String) (limit : Nat) : Except Failure String :=
  match db with
  | mssql => Tsql.limitRows sql limit
  | _ => .ok (Statement.wrapInLimit sql limit)

end SemanticLayer.Database
