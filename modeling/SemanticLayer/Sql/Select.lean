import SemanticLayer.Sql.Dialect
import SemanticLayer.Model.Request
/-!
The SELECT statements that requests compile to, and how each engine writes them. A fragment comes
from the author of a source; a value of a request can only be a literal.
-/
namespace SemanticLayer.Select

inductive Comparison where
  | equal
  | notEqual
  | greater
  | greaterOrEqual
  | less
  | lessOrEqual
  | like
  deriving DecidableEq, Repr

def Comparison.ofName? : String → Option Comparison
  | "=" => some equal
  | "!=" => some notEqual
  | ">" => some greater
  | ">=" => some greaterOrEqual
  | "<" => some less
  | "<=" => some lessOrEqual
  | "like" => some like
  | _ => none

def Comparison.sign : Comparison → String
  | equal => "="
  | notEqual => "<>"
  | greater => ">"
  | greaterOrEqual => ">="
  | less => "<"
  | lessOrEqual => "<="
  | like => "LIKE"

inductive Term where
  | fragment (sql : String)
  /-- A column of the result by its name. -/
  | output (name : String)
  | literal (value : Json)
  | aggregate (aggregation : Aggregation) (argument : Term)
  | compare (comparison : Comparison) (left right : Term)
  | oneOf (subject : Term) (options : List Term)
  | present (subject : Term)
  deriving Inhabited

structure Column where
  term : Term
  name : Option String

/-- The table to read from, and what the fragments call it. -/
structure Table where
  name : String
  aliasName : Option String
  deriving DecidableEq

structure Order where
  term : Term
  direction : SortDirection

end Select

/-- A SELECT statement. Its joins are complete clauses, and all its filters have to hold. -/
structure Select where
  distinct : Bool
  columns : List Select.Column
  table : Select.Table
  joins : List String
  filters : List Select.Term
  groups : List Select.Term
  orders : List Select.Order
  limit : Option Nat

namespace Select

mutual

/-- An expression as SQL. A choice among no options is false, since no engine takes an empty list. -/
def Term.render (db : Database) : Term → String
  | .fragment sql => sql
  | .output name => db.quoteName name
  | .literal value => db.literal value
  | .aggregate aggregation argument => db.aggregate aggregation (argument.render db)
  | .compare comparison left right =>
    "(" ++ left.render db ++ " " ++ comparison.sign ++ " " ++ right.render db ++ ")"
  | .oneOf _ [] => "1 = 0"
  | .oneOf subject (option :: more) =>
    subject.render db ++ " IN (" ++
      String.intercalate ", " (option.render db :: renderAll db more) ++ ")"
  | .present subject => subject.render db ++ " IS NOT NULL"

def renderAll (db : Database) : List Term → List String
  | [] => []
  | t :: ts => t.render db :: renderAll db ts

end

def Column.render (db : Database) (c : Column) : String :=
  match c.name with
  | some name => c.term.render db ++ " AS " ++ db.quoteName name
  | none => c.term.render db

def Table.render (t : Table) : String :=
  match t.aliasName with
  | some aliasName => t.name ++ " " ++ aliasName
  | none => t.name

def Order.render (db : Database) (o : Order) : String :=
  o.term.render db ++ " " ++ o.direction.keyword

/-- A keyword with parts behind it, or nothing where there are no parts. -/
def clause (keyword separator : String) (parts : List String) : List String :=
  if parts.isEmpty then [] else [keyword ++ String.intercalate separator parts]

def head (db : Database) (q : Select) : String :=
  "SELECT" ++ (if q.distinct then " DISTINCT" else "") ++
    match db.limitStyle, q.limit with
    | .leading, some n => " TOP " ++ toString n
    | _, _ => ""

def tail (db : Database) (q : Select) : List String :=
  match db.limitStyle, q.limit with
  | .trailing, some n => ["LIMIT " ++ toString n]
  | _, _ => []

def parts (db : Database) (q : Select) : List String :=
  [q.head db, String.intercalate ", " (q.columns.map (Column.render db)),
    "FROM " ++ q.table.render] ++
  q.joins.map Text.trimmed ++
  clause "WHERE " " AND " (renderAll db q.filters) ++
  clause "GROUP BY " ", " (renderAll db q.groups) ++
  clause "ORDER BY " ", " (q.orders.map (Order.render db)) ++
  q.tail db

/-- A statement on one line. -/
def render (db : Database) (q : Select) : String :=
  String.intercalate " " (q.parts db)

end Select

end SemanticLayer
