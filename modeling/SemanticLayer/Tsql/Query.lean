import SemanticLayer.Sql.Token
/-!
Queries of T-SQL as far as a limit on rows looks into them: their bodies, the columns they select
and the clauses around. What stands inside an expression or a table is kept as text in its usual
form: keywords in capitals, one space between tokens, no comments.
-/
namespace SemanticLayer.Tsql

/-- A name with its quote. -/
structure Ident where
  value : String
  quote : Option Char
  deriving DecidableEq, Repr, Inhabited

/-- The inside of a quoted text. A quote is doubled unless it stands behind a backslash or beside
another quote; `previous` is the character in front. -/
def escapeQuoted (quote : Char) : Char → List Char → List Char
  | _, [] => []
  | previous, [c] => if c = quote && previous ≠ '\\' then [c, c] else [c]
  | previous, c :: d :: rest =>
    if c = quote then
      if previous = '\\' then c :: escapeQuoted quote previous (d :: rest)
      else if d = quote then c :: d :: escapeQuoted quote quote rest
      else c :: c :: escapeQuoted quote quote (d :: rest)
    else c :: escapeQuoted quote c (d :: rest)

def inQuotes (quote : Char) (s : String) : String :=
  String.ofList (quote :: escapeQuoted quote (Char.ofNat 0) s.toList ++ [quote])

/-- A name as it is written. What is in brackets is not escaped. -/
def Ident.text (i : Ident) : String :=
  match i.quote with
  | none => i.value
  | some '[' => "[" ++ i.value ++ "]"
  | some q => inQuotes q i.value

def dotted (parts : List Ident) : String :=
  String.intercalate "." (parts.map Ident.text)

/-- An expression, as far as what stands around it looks into it. -/
inductive Expression where
  | name (parts : List Ident)
  /-- A name compared with something by `=`. -/
  | equation (subject : Ident) (value : String)
  | value (text : String)
  | call (text : String)
  /-- A part of something that is no name. -/
  | part (text : String)
  /-- A query in parentheses. -/
  | subquery (text : String)
  | other (text : String)
  deriving DecidableEq, Repr, Inhabited

def Expression.text : Expression → String
  | .name parts => dotted parts
  | .equation subject right => subject.text ++ " = " ++ right
  | .value text => text
  | .call text => text
  | .part text => text
  | .subquery text => text
  | .other text => text

inductive Item where
  /-- All columns, or all of a table. -/
  | wildcard (table : List Ident)
  | column (parts : List Ident)
  | unnamed (text : String)
  | named (text : String) (aliasName : Ident)
  deriving DecidableEq, Repr, Inhabited

def Item.text : Item → String
  | wildcard [] => "*"
  | wildcard table => dotted table ++ ".*"
  | column parts => dotted parts
  | unnamed text => text
  | named text aliasName => text ++ " AS " ++ aliasName.text

/-- The name that a selected column has in the result, where it is one column with a name. -/
def Item.outputName? : Item → Option String
  | wildcard _ => none
  | column parts => parts.getLast?.map Ident.value
  | unnamed _ => none
  | named _ aliasName => some aliasName.value

/-- How many rows `TOP` asks for. -/
inductive Quantity where
  | constant (count : Nat)
  | expression (text : String)
  deriving DecidableEq, Repr

structure Top where
  quantity : Quantity
  percent : Bool
  withTies : Bool
  deriving DecidableEq, Repr

def Top.text (t : Top) : String :=
  "TOP " ++
    (match t.quantity with
      | .constant n => toString n
      | .expression e => "(" ++ e ++ ")") ++
    (if t.percent then " PERCENT" else "") ++ (if t.withTies then " WITH TIES" else "")

/-- A SELECT without what may follow the body of a query. -/
structure Selection where
  /-- `DISTINCT` with its keys, if it has any. -/
  distinct : Option String
  top : Option Top
  items : List Item
  /-- The clauses from `INTO` on. -/
  clauses : List String
  deriving DecidableEq, Repr

def Selection.text (s : Selection) : String :=
  String.intercalate " "
    (["SELECT"] ++ s.distinct.toList ++ (s.top.map Top.text).toList ++
      [String.intercalate ", " (s.items.map Item.text)] ++ s.clauses)

mutual

inductive Body where
  | select (selection : Selection)
  | setOperation (operator : String) (left right : Body)
  | parenthesised (query : Query)
  /-- Rows of values, a whole table or a change of one. -/
  | other (text : String)

/-- A query: a body with common table expressions in front and clauses behind. -/
inductive Query where
  | mk (ctes : Option String) (body : Body) (order limit fetch : Option String)
      (locks : List String) (forClause : Option String)

end

namespace Query

def ctes : Query → Option String
  | mk ctes _ _ _ _ _ _ => ctes

def body : Query → Body
  | mk _ body _ _ _ _ _ => body

def order : Query → Option String
  | mk _ _ order _ _ _ _ => order

/-- The `LIMIT` or `OFFSET` clause. -/
def limit : Query → Option String
  | mk _ _ _ limit _ _ _ => limit

def fetch : Query → Option String
  | mk _ _ _ _ fetch _ _ => fetch

/-- The `FOR XML`, `FOR JSON` or `FOR BROWSE` clause. -/
def forClause : Query → Option String
  | mk _ _ _ _ _ _ forClause => forClause

def withBody (b : Body) : Query → Query
  | mk ctes _ order limit fetch locks forClause => mk ctes b order limit fetch locks forClause

def withoutCtes : Query → Query
  | mk _ body order limit fetch locks forClause => mk none body order limit fetch locks forClause

end Query

mutual

def Body.text : Body → String
  | .select selection => selection.text
  | .setOperation operator left right => left.text ++ " " ++ operator ++ " " ++ right.text
  | .parenthesised query => "(" ++ query.text ++ ")"
  | .other text => text

def Query.text : Query → String
  | .mk ctes body order limit fetch locks forClause =>
    String.intercalate " "
      (ctes.toList ++ [body.text] ++ order.toList ++ limit.toList ++ fetch.toList ++ locks ++
        forClause.toList)

end

/-- A statement, of which only queries are kept. -/
inductive Statement where
  | query (query : Query)
  /-- A question about a statement or a table, which cannot be explained itself. -/
  | explanation
  | other

end SemanticLayer.Tsql
