import SemanticLayer.Database
import SemanticLayer.Json.Printer
import SemanticLayer.Model.Aggregation
/-!
How each engine writes names, literals and aggregates, and where it states a limit on rows.
-/
namespace SemanticLayer.Database

/-- Where a statement states how many rows it may return. -/
inductive LimitStyle where
  /-- `LIMIT n` at the end. -/
  | trailing
  /-- `TOP n` before the columns. -/
  | leading
  deriving DecidableEq, Repr

def limitStyle : Database → LimitStyle
  | mssql => .leading
  | _ => .trailing

def doubling (c : Char) (s : List Char) : List Char :=
  s.flatMap fun x => if x = c then [c, c] else [x]

def nameQuotes : Database → Char × Char
  | postgresql => ('"', '"')
  | mssql => ('[', ']')
  | mysql => ('\x60', '\x60')

/-- A name in quotes; the closing quote is doubled inside. -/
def quoteName (db : Database) (name : String) : String :=
  let (opening, closing) := db.nameQuotes
  String.ofList (opening :: doubling closing name.toList ++ [closing])

/-- The characters between the quotes of a text literal. MySQL takes a backslash for the start of an
escape. -/
def escapeText : Database → List Char → List Char
  | mysql, s => doubling '\'' (doubling '\\' s)
  | _, s => doubling '\'' s

def textLiteral (db : Database) (s : String) : String :=
  String.ofList ('\'' :: db.escapeText s.toList ++ ['\''])

/-- A truth value; SQL Server has no literals for them. -/
def truthLiteral (db : Database) (b : Bool) : String :=
  match db, b with
  | mssql, true => "1"
  | mssql, false => "0"
  | _, true => "true"
  | _, false => "false"

mutual

/-- A value as SQL. An array stands for its items in a list, and an object for its compact text. -/
def literal (db : Database) : Json → String
  | .null => "NULL"
  | .bool b => db.truthLiteral b
  | .int n => (Json.int n).compact
  | .float x => (Json.float x).compact
  | .str s => db.textLiteral s
  | .arr xs => String.intercalate ", " (db.literals xs)
  | .obj ms => db.textLiteral (Json.obj ms).compact

def literals (db : Database) : List Json → List String
  | [] => []
  | x :: xs => db.literal x :: db.literals xs

end

/-- An aggregate of an expression. Without rows, all but the counts give 0. The average of whole
numbers is whole on SQL Server unless they are cast. -/
def aggregate (db : Database) (aggregation : Aggregation) (expression : String) : String :=
  match aggregation with
  | .sum => "COALESCE(SUM(" ++ expression ++ "), 0)"
  | .count => "COUNT(" ++ expression ++ ")"
  | .countDistinct => "COUNT(DISTINCT " ++ expression ++ ")"
  | .avg =>
    if db = mssql then "COALESCE(AVG(CAST(" ++ expression ++ " AS FLOAT)), 0)"
    else "COALESCE(AVG(" ++ expression ++ "), 0)"
  | .min => "COALESCE(MIN(" ++ expression ++ "), 0)"
  | .max => "COALESCE(MAX(" ++ expression ++ "), 0)"

end SemanticLayer.Database
