import SemanticLayer.Failure
import SemanticLayer.Sql.Statement
import SemanticLayer.Tsql.Statement
/-!
A limit on the rows of a T-SQL query, which has no clause for it that fits every query. A SELECT
takes a `TOP`; a sorted query of another shape takes a `FETCH`; any other query becomes a derived
table, which needs a name for every column and can have no common table expressions inside.
-/
namespace SemanticLayer.Tsql

/-- The `TOP` with which a SELECT gives at most `limit` rows, where the one it has can be compared
with that. -/
def Top.capped? (limit : Nat) : Option Top → Option Top
  | none => some ⟨.constant limit, false, false⟩
  | some ⟨.constant n, false, withTies⟩ => some ⟨.constant (min n limit), false, withTies⟩
  | some _ => none

/-- Gives a column without a name one by its position, from 1 on. -/
def Item.naming (position : Nat) : Item → Item
  | unnamed text => named text ⟨"column_" ++ toString position, none⟩
  | item => item

def nameItems (items : List Item) : List Item :=
  items.mapIdx fun i item => item.naming (i + 1)

mutual

/-- Gives the columns of a body names. The columns of set operations are named by the leftmost
SELECT. -/
def Body.nameColumns : Body → Body
  | .select s => .select { s with items := nameItems s.items }
  | .setOperation operator left right => .setOperation operator left.nameColumns right
  | .parenthesised query => .parenthesised query.nameColumns
  | .other text => .other text

def Query.nameColumns : Query → Query
  | .mk ctes body order limit fetch locks forClause =>
    .mk ctes body.nameColumns order limit fetch locks forClause

end

/-- A query with a limit on its rows. -/
inductive LimitedQuery where
  /-- A query whose own `TOP` is the limit. -/
  | topped (query : Query)
  /-- A sorted query of which only the first rows are fetched. -/
  | fetched (query : Query) (limit : Nat)
  /-- The first rows of a derived table, behind the common table expressions. -/
  | wrapped (ctes : Option String) (query : Query) (limit : Nat)

def LimitedQuery.text : LimitedQuery → String
  | topped query => query.text
  | fetched query limit =>
    query.text ++ " OFFSET 0 ROWS FETCH NEXT " ++ toString limit ++ " ROWS ONLY"
  | wrapped ctes query limit =>
    (ctes.map (· ++ " ")).getD "" ++ "SELECT TOP " ++ toString limit ++ " * FROM (" ++
      query.text ++ ") AS __result"

def Query.wrap (q : Query) (limit : Nat) : LimitedQuery :=
  .wrapped q.ctes q.withoutCtes.nameColumns limit

/-- Whether a query leaves rows out or fetches some by clauses of its own. -/
def Query.isPaged (q : Query) : Bool :=
  q.limit.isSome || q.fetch.isSome

def Query.limited (q : Query) (limit : Nat) : LimitedQuery :=
  if q.isPaged then q.wrap limit
  else
    match q.body with
    | .select s =>
      match Top.capped? limit s.top with
      | some top => .topped (q.withBody (.select { s with top := some top }))
      | none => q.wrap limit
    | _ => if q.order.isSome && q.forClause.isNone then .fetched q limit else q.wrap limit

/-- The unquoted words outside parentheses, in capitals; none where the text has no tokens. -/
def outerWords (s : List Char) : List String :=
  match Sql.LexicalRules.mssql.lexemes s with
  | .error _ => []
  | .ok ts => words 0 (ts.map Sql.Lexeme.token)
where
  words : Nat → List Sql.Token → List String
    | _, [] => []
    | depth, .sign "(" :: rest => words (depth + 1) rest
    | depth, .sign ")" :: rest => words (depth - 1) rest
    | 0, .word text none :: rest => Reader.keywordOf (.word text none) :: words 0 rest
    | depth, _ :: rest => words depth rest

/-- A limit on a statement that cannot be read. One that opens with common table expressions cannot
become a derived table. -/
def limitUnread (statement : List Char) (limit : Nat) (fault : TextFault) :
    Except Failure String :=
  let text := String.ofList statement
  if Text.sameLetters (Text.firstWord statement) ['w', 'i', 't', 'h'] then
    .error (.execution (.ofText
      ("unable to apply row limit: sql parser error: " ++ fault.reason)))
  else
    let words := outerWords statement
    if words.contains "ORDER" && !words.contains "OFFSET" && !words.contains "TOP" &&
        !words.contains "FOR" then
      .ok (text ++ "\nOFFSET 0 ROWS FETCH NEXT " ++ toString limit ++ " ROWS ONLY")
    else
      .ok ("SELECT TOP " ++ toString limit ++ " * FROM (\n" ++ text ++ "\n) AS __result")

def limitRows (sql : String) (limit : Nat) : Except Failure String :=
  let statement := SemanticLayer.Statement.withoutSemicolons sql.toList
  match parse statement with
  | .error fault => limitUnread statement limit fault
  | .ok [.query q] => .ok (q.limited limit).text
  | .ok [_] => .error (.sandbox "only queries can be row-limited")
  | .ok _ => .error (.sandbox "exactly one statement can be row-limited")

end SemanticLayer.Tsql
