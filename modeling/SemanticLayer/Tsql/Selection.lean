import SemanticLayer.Tsql.Table
/-!
Reading a SELECT with its clauses.
-/
namespace SemanticLayer.Tsql

namespace Reader

variable (inner : Inner)

/-! ## What is selected -/

/-- `DISTINCT`, which may have keys; `ALL` leaves nothing behind. -/
def distinct? : Reader (Option String) := do
  let here ← place
  let all ← takeKeyword "ALL"
  if ← takeKeyword "DISTINCT" then
    if all then stop (.spoken "Cannot specify both ALL and DISTINCT" here)
    else if ← takeKeyword "ON" then
      let keys ← inParentheses (commaListUntil ")" (expressionText inner))
      pure (some ("DISTINCT ON (" ++ commas keys ++ ")"))
    else pure (some "DISTINCT")
  else pure none

def top? : Reader (Option Top) := do
  if ← takeKeyword "TOP" then
    let quantity ←
      if ← atSign "(" then (do
        pure (Quantity.expression (← inParentheses (expressionText inner))))
      else (do pure (Quantity.constant (← wholeNumber)))
    let percent ← takeKeyword "PERCENT"
    let withTies ← takeKeywords ["WITH", "TIES"]
    pure (some ⟨quantity, percent, withTies⟩)
  else pure none

/-- Whether an expression is the keyword that no column can begin with. -/
def isFrom : Expression → Bool
  | .name [⟨value, none⟩] => Text.sameLetters value.toList ['f', 'r', 'o', 'm']
  | _ => false

/-- A selected column. A comparison of a name with `=` gives the name to the other side. -/
def item : Reader Item := do
  match ← wildcard? with
  | some table => pure (.wildcard table)
  | none =>
    match ← expression inner with
    | .equation subject value => pure (.named value subject)
    | e =>
      if isFrom e then refuse ("Expected an expression, found: " ++ e.text)
      else
        match ← columnAlias? with
        | some name => pure (.named e.text name)
        | none =>
          match e with
          | .name parts => pure (.column parts)
          | e => pure (.unnamed e.text)

/-- The table that a SELECT makes. -/
def intoTable : Reader String := do
  let temporary ← takeOneOf ["TEMP", "TEMPORARY"]
  let unlogged ← takePhrase ["UNLOGGED"]
  let table ← takePhrase ["TABLE"]
  let words := (temporary.map fun _ => "TEMPORARY").toList ++ unlogged.toList ++ table.toList
  pure (String.intercalate " " (words ++ [← objectText]))

/-! ## Clauses -/

/-- A view of rows made beside every row, if one comes next. -/
def lateralView? : Reader (Option String) := do
  if ← takeKeywords ["LATERAL", "VIEW"] then
    let outer ← takePhrase ["OUTER"]
    let e ← expressionText inner
    let name ← objectText
    let names ← commaList (aliasUnless ["WHERE", "GROUP", "CLUSTER", "HAVING", "LATERAL"])
    let names := names.filterMap fun n => n.map fun n => n.2.text
    pure (some ("LATERAL VIEW" ++ spaced outer ++ " " ++ e ++ " " ++ name ++
      (if names.isEmpty then "" else " AS " ++ commas names)))
  else pure none

/-- A set of grouping keys, which may be empty. -/
def groupingSet : Reader String := do
  if ← atSign "(" then
    pure ("(" ++ commas (← inParentheses (commaListUntil ")" (expressionText inner))) ++ ")")
  else pure ("(" ++ (← expressionText inner) ++ ")")

def groupKeys : Reader String := do
  let keys ← if ← takeKeyword "ALL" then pure "ALL" else expressionList inner
  let sets ← behind? ["GROUPING", "SETS"] (inParentheses (commaList (groupingSet inner)))
  pure (keys ++ ((sets.map fun s => " GROUPING SETS (" ++ commas s ++ ")").getD ""))

def namedWindow : Reader String := do
  let name ← identText
  expectKeyword "AS"
  expectSign "("
  pure (name ++ " AS (" ++ (← window inner) ++ ")")

/-- The windows and the filter on them, in either order. -/
def windowClauses : Reader (List String) := do
  let windows := clause ["WINDOW"] (do pure (commas (← commaList (namedWindow inner))))
  let qualify := clause ["QUALIFY"] (expressionText inner)
  if ← atKeyword "WINDOW" then
    let first ← windows
    pure (first ++ (← qualify))
  else
    let first ← qualify
    if first.isEmpty then pure [] else pure (first ++ (← windows))

/-- What rows of a hierarchy are below others. -/
def hierarchySteps : Reader String := do
  expectKeywords ["CONNECT", "BY"]
  expressionList (inner.within .connecting)

def hierarchyStart : Reader String := do
  expectKeywords ["START", "WITH"]
  expressionText inner

/-- The hierarchy of the rows, whose two parts may stand in either order. -/
def hierarchy : Reader (List String) := do
  let text (start steps : String) := "START WITH " ++ start ++ " CONNECT BY " ++ steps
  if ← atKeywords ["CONNECT", "BY"] then
    let steps ← hierarchySteps inner
    pure [text (← hierarchyStart inner) steps]
  else if ["START", "CONNECT"].contains (← peekKeyword) then
    let start ← hierarchyStart inner
    pure [text start (← hierarchySteps inner)]
  else pure []

def selection : Reader Selection := do
  expectKeyword "SELECT"
  let distinct ← distinct? inner
  let top ← top? inner
  let items ← commaList (item inner)
  let into ← clause ["INTO"] intoTable
  let sources ← clause ["FROM"] (tableList inner)
  let views ← all (lateralView? inner)
  let filter ← clause ["WHERE"] (expressionText inner)
  let groups ← clause ["GROUP", "BY"] (groupKeys inner)
  let clusters ← clause ["CLUSTER", "BY"] (expressionList inner)
  let distribution ← clause ["DISTRIBUTE", "BY"] (expressionList inner)
  let sorting ← clause ["SORT", "BY"] (sortKeys inner)
  let having ← clause ["HAVING"] (expressionText inner)
  let windows ← windowClauses inner
  let levels ← hierarchy inner
  pure ⟨distinct, top, items,
    into ++ sources ++ views ++ filter ++ groups ++ clusters ++ distribution ++ sorting ++ having ++
      windows ++ levels⟩

end Reader

end SemanticLayer.Tsql
