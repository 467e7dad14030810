import SemanticLayer.Tsql.Selection
/-!
Reading statements that change tables. Behind common table expressions such a statement may stand
in place of a query's body, so what is read is kept as text in its usual form.
-/
namespace SemanticLayer.Tsql

open Sql (Token Lexeme Place)

namespace Reader

variable (inner : Inner)

/-! ## Parts -/

/-- Rows of values behind their keyword. Where one row says `ROW`, all do. -/
def valueRows (keyword : String) : Reader String := do
  let row : Reader (Bool × String) := do
    let explicit ← takeKeyword "ROW"
    pure (explicit, ← expressionsInParentheses inner)
  let rows ← commaList row
  let start := if rows.any Prod.fst then "ROW(" else "("
  pure (keyword ++ " " ++ commas (rows.map fun r => start ++ r.2 ++ ")"))

def targetColumns : Reader String := do
  let names ← columns?
  pure (if names.isEmpty then "" else "(" ++ commas (names.map Ident.text) ++ ") ")

/-- A new value for a column, or for columns in parentheses. -/
def assignment : Reader String := do
  let target ←
    if ← atSign "(" then (do pure ("(" ++ commas (← inParentheses (commaList objectText)) ++ ")"))
    else objectText
  expectSign "="
  pure (target ++ " = " ++ (← expressionText inner))

def assignments : Reader String := do
  pure (commas (← commaList (assignment inner)))

def items : Reader String := do
  pure (commas ((← commaList (item inner)).map Item.text))

/-- What happens to a row that is there already, or nothing. -/
def conflictRule : Reader (Option String) := do
  match ← takePhrase ["OR REPLACE", "OR ROLLBACK", "OR ABORT", "OR FAIL", "OR IGNORE"] with
  | some phrase => pure (some phrase)
  | none => pure (if ← takeKeyword "REPLACE" then some "OR REPLACE" else none)

/-! ## Insertions -/

def fileFormat : Reader String := do
  match ← takeOneOf ["AVRO", "JSONFILE", "ORC", "PARQUET", "RCFILE", "SEQUENCEFILE", "TEXTFILE"] with
  | some format => pure format
  | none => expected "fileformat"

/-- Which rows are in conflict with new ones, or nothing. -/
def conflictTarget : Reader String := do
  if ← takeKeywords ["ON", "CONSTRAINT"] then pure (" ON CONSTRAINT " ++ (← objectText))
  else
    let names ← columns?
    pure (if names.isEmpty then "" else "(" ++ commas (names.map Ident.text) ++ ")")

def conflictAction : Reader String := do
  if ← takeKeyword "ON" then
    if ← takeKeyword "CONFLICT" then
      let target ← conflictTarget
      expectKeyword "DO"
      if ← takeKeyword "NOTHING" then pure (" ON CONFLICT" ++ target ++ " DO NOTHING")
      else
        expectKeywords ["UPDATE", "SET"]
        let values ← assignments inner
        let condition ← clause ["WHERE"] (expressionText inner)
        pure (" ON CONFLICT" ++ target ++ " DO UPDATE SET " ++ values ++ spaced condition.head?)
    else
      expectKeywords ["DUPLICATE", "KEY", "UPDATE"]
      pure (" ON DUPLICATE KEY UPDATE " ++ (← assignments inner))
  else pure ""

/-- What is inserted behind the name of a table, with its columns. -/
def insertedRows : Reader String := do
  if ← takeKeywords ["DEFAULT", "VALUES"] then pure "DEFAULT VALUES"
  else
    let (first, second) ← peekTwo
    let subquery := first = some (.sign "(") && second.map keywordOf = some "SELECT"
    let columns ← if subquery then pure "" else targetColumns
    let partition ← if subquery then pure [] else
      clause ["PARTITION"] (do pure ("(" ++ (← expressionsInParentheses inner) ++ ") "))
    let start := columns ++ partition.head?.getD ""
    if ["FORMAT", "SETTINGS"].contains (← peekKeyword) then
      pure (if columns.isEmpty then start ++ "DEFAULT VALUES" else start)
    else pure (start ++ (← inner.query).text)

/-- What is written to a directory, whose keyword is taken already. -/
def directoryBody (start : String) : Reader String := do
  let path ← literalString
  let format ← clause ["STORED", "AS"] fileFormat
  let q ← inner.query
  pure (start ++ " DIRECTORY '" ++ path ++ "'" ++ spaced format.head? ++ " " ++ q.text)

def insertion : Reader String := do
  let rule ← conflictRule
  let overwrite ← takePhrase ["OVERWRITE"]
  let into ← takePhrase ["INTO"]
  let isLocal ← takePhrase ["LOCAL"]
  if ← takeKeyword "DIRECTORY" then
    directoryBody inner ("INSERT" ++ spaced overwrite ++ spaced isLocal)
  else
    let table ← takePhrase ["TABLE"]
    let name ← objectText
    let rows ← insertedRows inner
    let conflict ← conflictAction inner
    let returned ← clause ["RETURNING"] (items inner)
    let start := match rule with
      | some rule => "INSERT " ++ rule ++ " INTO "
      | none => "INSERT" ++ spaced overwrite ++ spaced into ++ spaced table ++ " "
    pure (start ++ name ++ " " ++ rows ++ conflict ++ spaced returned.head?)

/-! ## Updates and deletions -/

def update : Reader String := do
  let rule ← conflictRule
  let table ← joinedTable inner
  let before ← clause ["FROM"] (tableList inner)
  expectKeyword "SET"
  let values ← assignments inner
  let behind ← if before.isEmpty then clause ["FROM"] (tableList inner) else pure []
  let condition ← clause ["WHERE"] (expressionText inner)
  let returned ← clause ["RETURNING"] (items inner)
  let limit ← clause ["LIMIT"] (expressionText inner)
  pure (String.intercalate " "
    (["UPDATE"] ++ rule.toList ++ [table.text] ++ before ++ ["SET " ++ values] ++ behind ++
      condition ++ returned ++ limit))

def deletion : Reader String := do
  let targets ←
    if ← takeKeyword "FROM" then pure []
    else (do
      let names ← commaList objectText
      expectKeyword "FROM"
      pure [commas names])
  let tables ← tableList inner
  let others ← clause ["USING"] (tableList inner)
  let condition ← clause ["WHERE"] (expressionText inner)
  let returned ← clause ["RETURNING"] (items inner)
  let order ← clause ["ORDER", "BY"] (sortKeys inner)
  let unlimited ← takeKeywords ["LIMIT", "ALL"]
  let limit ← if unlimited then pure [] else clause ["LIMIT"] (expressionText inner)
  pure (String.intercalate " "
    (["DELETE"] ++ targets ++ ["FROM " ++ tables] ++ others ++ condition ++ returned ++ order ++
      limit))

/-! ## Merges -/

/-- Which rows a case of `MERGE` is about, behind `WHEN`. -/
def mergeKind : Reader String := do
  let negated ← takeKeyword "NOT"
  expectKeyword "MATCHED"
  if negated then pure ("NOT MATCHED" ++ spaced (← takePhrase ["BY SOURCE", "BY TARGET"]))
  else pure "MATCHED"

/-- What a case of `MERGE` does. Rows are inserted only where the target has none, and changed or
deleted only where it has some. -/
def mergeAction (kind : String) : Reader String := do
  let here ← place
  let missing := kind = "NOT MATCHED" || kind = "NOT MATCHED BY TARGET"
  match ← takeOneOf ["UPDATE", "INSERT", "DELETE"] with
  | none => refuse "expected UPDATE, DELETE or INSERT in merge clause"
  | some keyword =>
    if missing ≠ (keyword = "INSERT") then
      stop (.spoken (keyword ++ " is not allowed in a " ++ kind ++ " merge clause") here)
    else if keyword = "UPDATE" then
      expectKeyword "SET"
      pure ("UPDATE SET " ++ (← assignments inner))
    else if keyword = "DELETE" then pure "DELETE"
    else
      let columns ← targetColumns
      expectKeyword "VALUES"
      pure ("INSERT " ++ columns ++ (← valueRows inner "VALUES"))

def mergeCase? : Reader (Option String) := do
  if ← takeKeyword "WHEN" then
    let kind ← mergeKind
    let condition ← clause ["AND"] (expressionText inner)
    expectKeyword "THEN"
    let action ← mergeAction inner kind
    pure (some (String.intercalate " " (["WHEN " ++ kind] ++ condition ++ ["THEN " ++ action])))
  else pure none

def mergeOutput : Reader String := do
  match ← takeOneOf ["OUTPUT", "RETURNING"] with
  | some keyword =>
    let given ← items inner
    let into ← if keyword = "OUTPUT" then clause ["INTO"] intoTable else pure []
    pure (" " ++ keyword ++ " " ++ given ++ spaced into.head?)
  | none => pure ""

def merge : Reader String := do
  let into ← takePhrase ["INTO"]
  let table ← inner.table
  expectKeyword "USING"
  let source ← inner.table
  expectKeyword "ON"
  let condition ← expressionText inner
  let cases ← all (mergeCase? inner)
  let output ← mergeOutput inner
  pure ("MERGE" ++ spaced into ++ " " ++ table.text ++ " USING " ++ source.text ++ " ON " ++
    condition ++ " " ++ String.intercalate " " cases ++ output)

/-! ## Changes -/

def change? : Reader (Option String) := do
  match ← takeOneOf ["INSERT", "UPDATE", "DELETE", "MERGE"] with
  | some "INSERT" => pure (some (← insertion inner))
  | some "UPDATE" => pure (some (← update inner))
  | some "DELETE" => pure (some (← deletion inner))
  | some _ => pure (some (← merge inner))
  | none => pure none

end Reader

end SemanticLayer.Tsql
