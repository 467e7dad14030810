import SemanticLayer.Tsql.Interval
/-!
Reading sort keys and the windows of functions.
-/
namespace SemanticLayer.Tsql

namespace Reader

variable (inner : Inner)

/-! ## Sort keys -/

def sortDirection : Reader String := do
  let direction ← takeOneOf ["ASC", "DESC"]
  let nulls ← takePhrase ["NULLS FIRST", "NULLS LAST"]
  pure (spaced direction ++ spaced nulls)

def sortKey : Reader String := do
  let e ← expressionText inner
  pure (e ++ (← sortDirection))

def sortKeys : Reader String := do
  pure (commas (← commaList (sortKey inner)))

/-- A column of an index: a sort key, in which a class of operators may be named. -/
def indexColumn : Reader Unit := do
  skip (expression inner)
  unless ["ASC", "DESC", "NULLS", "WITH"].contains (← peekKeyword) do
    skip (attempt? objectName)
  skip sortDirection

/-! ## Windows -/

/-- An expression with the collation behind it, if there is one. -/
def collated (e : Expression) : Reader Expression := do
  let collates ← if inner.mode = .defining then pure false else takeKeyword "COLLATE"
  if collates then pure (.other (e.text ++ " COLLATE " ++ (← objectText))) else pure e

/-- How far away one end of a window frame is. A text is an interval without its keyword. -/
def frameDistance : Reader String := do
  if ← takeKeyword "UNBOUNDED" then pure "UNBOUNDED"
  else if ← atText then intervalOf (← collated inner (.value (← literal))).text
  else expressionText inner

def frameBound : Reader String := do
  if ← takeKeywords ["CURRENT", "ROW"] then pure "CURRENT ROW"
  else
    let distance ← frameDistance inner
    match ← takeOneOf ["PRECEDING", "FOLLOWING"] with
    | some side => pure (distance ++ " " ++ side)
    | none => expected "PRECEDING or FOLLOWING"

def frame : Reader String := do
  match ← takeOneOf ["ROWS", "RANGE", "GROUPS"] with
  | none => expected "ROWS, RANGE, GROUPS"
  | some units =>
    if ← takeKeyword "BETWEEN" then
      let first ← frameBound inner
      expectKeyword "AND"
      let last ← frameBound inner
      pure (units ++ " BETWEEN " ++ first ++ " AND " ++ last)
    else pure (units ++ " " ++ (← frameBound inner))

/-- The name of another window in front of a window's own parts, if there is one. -/
def windowName : Reader (List String) := do
  match ← peek with
  | some ⟨.word text quote, _⟩ =>
    if quote = none && isKeyword (keywordOf (.word text none)) then pure []
    else pure [← identText]
  | _ => pure []

/-- What stands in the parentheses of a window, up to the closing one. -/
def window : Reader String := do
  let name ← windowName
  let partition ← clause ["PARTITION", "BY"] (expressionList inner)
  let order ← clause ["ORDER", "BY"] (sortKeys inner)
  let rows ← if ← atSign ")" then pure [] else (do pure [← frame inner])
  expectSign ")"
  pure (String.intercalate " " (name ++ partition ++ order ++ rows))

end Reader

end SemanticLayer.Tsql
