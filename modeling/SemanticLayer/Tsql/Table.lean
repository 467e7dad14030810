import SemanticLayer.Tsql.TableFunction
/-!
Reading what a query selects from: tables by name, derived tables and joins.
-/
namespace SemanticLayer.Tsql

open Sql (Token Lexeme Place)

namespace Reader

variable (inner : Inner)

/-! ## Tables -/

/-- What stands behind the opening parenthesis of a derived table. -/
def derived (start : String) : Reader String := do
  let q ← inner.query
  expectSign ")"
  pure (start ++ "(" ++ q.text ++ ")" ++ (← tableAlias inner))

/-- The arguments of a table function, behind the opening parenthesis. -/
def tableArguments : Reader String := do
  let args ← commaListUntil ")" (argument inner)
  expectSign ")"
  pure ("(" ++ commas args ++ ")")

/-- The moment a table is seen at, or nothing. -/
def tableVersion : Reader String := do
  if ← takeKeywords ["FOR", "SYSTEM_TIME", "AS", "OF"] then
    pure (" FOR SYSTEM_TIME AS OF " ++ (← expressionText inner))
  else if ["AT", "BEFORE"].contains (← peekKeyword) then
    pure (" " ++ (← call inner (← objectName)).text)
  else pure ""

/-- The hints on how to read a table, or nothing. -/
def tableHints : Reader String := do
  match ← peekTwo with
  | (some (.word text none), some (.sign "(")) =>
    if keywordOf (.word text none) = "WITH" then
      skip next
      pure (" WITH (" ++ (← expressionsInParentheses inner) ++ ")")
    else pure ""
  | _ => pure ""

/-- A table by its name, with everything that may stand behind it. -/
def namedTable : Reader String := do
  let name ← objectText
  let version ← tableVersion inner
  let args ← if ← takeSign "(" then tableArguments inner else pure ""
  let ordinality ← takePhrase ["WITH ORDINALITY"]
  let aliasName ← tableAlias inner
  let hints ← tableHints inner
  let sample ← sample inner
  let ts ← get
  pivots inner ts.length
    (name ++ args ++ spaced ordinality ++ aliasName ++ hints ++ version ++ sample)

/-! ## Joins -/

def joinCondition : Reader String := do
  if ← takeKeyword "ON" then pure (" ON " ++ (← expressionText inner))
  else if ← takeKeyword "USING" then pure (" USING(" ++ commas (← columnsOf objectText) ++ ")")
  else pure ""

/-- The kind of a join to one side, behind the word for the side. -/
def sidedJoin (side : String) : Reader String := do
  match ← takeOneOf ["OUTER", "SEMI", "ANTI", "JOIN"] with
  | some "JOIN" => pure (side ++ " JOIN")
  | some kind =>
    expectKeyword "JOIN"
    pure (side ++ " " ++ kind ++ " JOIN")
  | none => stop (.spoken ("expected OUTER, SEMI, ANTI or JOIN after " ++ side) none)

/-- The kind of a join that takes a condition, or nothing where no such join comes next. -/
def joinKind? : Reader (Option String) := do
  match ← takeOneOf ["INNER", "JOIN", "LEFT", "RIGHT", "SEMI", "ANTI", "FULL", "STRAIGHT_JOIN"] with
  | none => if ← atKeyword "OUTER" then expected "LEFT, RIGHT, or FULL" else pure none
  | some "LEFT" => pure (some (← sidedJoin "LEFT"))
  | some "RIGHT" => pure (some (← sidedJoin "RIGHT"))
  | some "FULL" =>
    skip (takeKeyword "OUTER")
    expectKeyword "JOIN"
    pure (some "FULL JOIN")
  | some keyword =>
    if ["JOIN", "STRAIGHT_JOIN"].contains keyword then pure (some keyword)
    else
      expectKeyword "JOIN"
      pure (some (keyword ++ " JOIN"))

/-- A join that takes a condition unless it is natural, if one comes next. -/
def conditionalJoin? : Reader (Option String) := do
  let natural ← takeKeyword "NATURAL"
  match ← joinKind? with
  | some kind =>
    let table ← inner.table
    if natural then
      pure (some ((if kind = "STRAIGHT_JOIN" then kind else "NATURAL " ++ kind) ++ " " ++ table.text))
    else pure (some (kind ++ " " ++ table.text ++ (← joinCondition inner)))
  | none => if natural then expected "a join type after NATURAL" else pure none

def join? : Reader (Option String) := do
  let start := if ← takeKeyword "GLOBAL" then " GLOBAL " else " "
  if ← takeKeyword "CROSS" then
    match ← takeOneOf ["JOIN", "APPLY"] with
    | some kind => pure (some (start ++ "CROSS " ++ kind ++ " " ++ (← inner.table).text))
    | none => expected "JOIN or APPLY after CROSS"
  else if ← takeKeyword "OUTER" then
    expectKeyword "APPLY"
    pure (some (start ++ "OUTER APPLY " ++ (← inner.table).text))
  else if ← takeKeyword "ASOF" then
    expectKeyword "JOIN"
    let table ← inner.table
    expectKeyword "MATCH_CONDITION"
    let e ← inParentheses (expressionText inner)
    pure (some (start ++ "ASOF JOIN " ++ table.text ++ " MATCH_CONDITION (" ++ e ++ ")" ++
      (← joinCondition inner)))
  else
    pure ((← conditionalJoin? inner).map (start ++ ·))

/-- A table with the joins behind it; it counts as nested where there are any. -/
def joinedTable : Reader Table := do
  let first ← inner.table
  let joins ← all (join? inner)
  pure ⟨first.text ++ String.join joins, first.nested || !joins.isEmpty⟩

def tableList : Reader String := do
  pure (commas ((← commaList (joinedTable inner)).map Table.text))

/-! ## All that a join can stand beside -/

def lateral : Reader String := do
  if ← takeSign "(" then derived inner "LATERAL "
  else
    let name ← objectText
    expectSign "("
    let args ← tableArguments inner
    pure ("LATERAL " ++ name ++ args ++ (← tableAlias inner))

def tableOf : Reader String := do
  let e ← inParentheses (expressionText inner)
  pure ("TABLE(" ++ e ++ ")" ++ (← tableAlias inner))

/-- What stands behind an opening parenthesis: a derived table or, where it holds no query, tables
with joins. -/
def tableInParentheses : Reader Table := do
  match ← attempt? (derived inner "") with
  | some table =>
    let ts ← get
    pure ⟨← pivots inner ts.length table, false⟩
  | none =>
    let table ← joinedTable inner
    if table.nested then
      expectSign ")"
      pure ⟨"(" ++ table.text ++ ")" ++ (← tableAlias inner), true⟩
    else expected "joined table"

/-- The reader of what stands behind the name of a table function with a form of its own. -/
def tableFunction? (keyword : String) : Option (Reader String) :=
  match keyword with
  | "JSON_TABLE" => some (jsonTable inner)
  | "OPENJSON" => some (openJson inner)
  | "XMLTABLE" => some (xmlTable inner)
  | _ => none

/-- A table that a join can stand beside. -/
def tableFactor : Reader Table := do
  let (first, second) ← peekTwo
  let keyword := (first.map keywordOf).getD ""
  let function? := if second = some (.sign "(") then tableFunction? inner keyword else none
  if keyword = "LATERAL" then
    skip next
    pure ⟨← lateral inner, false⟩
  else if keyword = "TABLE" then
    skip next
    pure ⟨← tableOf inner, false⟩
  else if first = some (.sign "(") then
    skip next
    tableInParentheses inner
  else
    match function? with
    | some function =>
      skip next
      pure ⟨← function, false⟩
    | none => pure ⟨← namedTable inner, false⟩

end Reader

end SemanticLayer.Tsql
