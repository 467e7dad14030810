import SemanticLayer.Tsql.Alias
/-!
Reading pivots and samples of tables.
-/
namespace SemanticLayer.Tsql

open Sql (Token Lexeme Place)

namespace Reader

variable (inner : Inner)

/-! ## Pivots -/

/-- An aggregate of a pivot, which may have an alias other than `FOR`. -/
def pivotCall : Reader String := do
  match ← next with
  | some ⟨.word text _, _⟩ =>
    let e ← call inner [⟨text, none⟩]
    let name ← aliasBy fun explicit keyword =>
      keyword ≠ "FOR" && (explicit || !reservedForColumns.contains keyword)
    pure (e.text ++ ((name.map fun n => " AS " ++ n.2.text).getD ""))
  | _ => expected "a function identifier"

/-- The columns whose values become columns. -/
def pivotColumns : Reader String := do
  let column : Reader String := do pure (← inner.expression Strength.range).text
  if ← atSign "(" then
    match ← columnsOf column with
    | [single] => pure single
    | several => pure ("(" ++ commas several ++ ")")
  else column

def pivotValues : Reader String := do
  if ← takeKeyword "ANY" then
    let order ← clause ["ORDER", "BY"] (sortKeys inner)
    pure ("ANY" ++ spaced order.head?)
  else if ← atQuery then pure (← inner.query).text
  else pure (commas (← commaList (aliasedExpression inner)))

def pivotBody (table : String) : Reader String := do
  expectSign "("
  let calls ← commaList (pivotCall inner)
  expectKeyword "FOR"
  let subject ← pivotColumns inner
  expectKeyword "IN"
  let values ← inParentheses (pivotValues inner)
  let default ← behind? ["DEFAULT", "ON", "NULL"] (inParentheses (expressionText inner))
  expectSign ")"
  pure (table ++ " PIVOT(" ++ commas calls ++ " FOR " ++ subject ++ " IN (" ++ values ++ ")" ++
    ((default.map fun e => " DEFAULT ON NULL (" ++ e ++ ")").getD "") ++ ")" ++ (← tableAlias inner))

def unpivotBody (table : String) : Reader String := do
  let nulls ← match ← takeOneOf ["INCLUDE", "EXCLUDE"] with
    | some keyword => (do
      expectKeyword "NULLS"
      pure (" " ++ keyword ++ " NULLS "))
    | none => pure ""
  expectSign "("
  let value ← expressionText inner
  expectKeyword "FOR"
  let name ← identText
  expectKeyword "IN"
  let columns ← columnsOf (aliasedExpression inner)
  expectSign ")"
  pure (table ++ " UNPIVOT" ++ nulls ++ "(" ++ value ++ " FOR " ++ name ++ " IN (" ++
    commas columns ++ "))" ++ (← tableAlias inner))

def pivots : Nat → String → Reader String
  | 0, table => pure table
  | steps + 1, table => do
    match ← takeOneOf ["PIVOT", "UNPIVOT"] with
    | some "PIVOT" => pivots steps (← pivotBody inner table)
    | some _ => pivots steps (← unpivotBody inner table)
    | none => pure table

/-! ## Samples -/

/-- A part of a table that is divided into buckets, behind its keyword. -/
def bucket : Reader String := do
  let n ← numericLiteral
  expectKeywords ["OUT", "OF"]
  let total ← numericLiteral
  let on ← clause ["ON"] (expressionText inner)
  pure ("BUCKET " ++ n ++ " OUT OF " ++ total ++ spaced on.head?)

def sampleSize : Reader String := do
  let value ← match ← attempt? (expressionText inner) with
    | some e => pure e
    | none => (do
      match ← next with
      | some ⟨.word text _, _⟩ => pure text
      | _ => refuse "Expecting number or byte length e.g. 100M")
  pure (value ++ spaced (← takeOneOf ["ROWS", "PERCENT"]))

/-- What is taken of a table, and whether it is a bucket. -/
def sampleQuantity : Reader (Bool × String) := do
  if ← takeSign "(" then
    let bucketed ← takeKeyword "BUCKET"
    let text ← if bucketed then bucket inner else sampleSize inner
    expectSign ")"
    pure (bucketed, enclosed text)
  else pure (false, " " ++ (← sampleSize inner))

def sample : Reader String := do
  match ← takeOneOf ["TABLESAMPLE", "SAMPLE"] with
  | none => pure ""
  | some keyword =>
    let method ← takeOneOf ["BERNOULLI", "ROW", "SYSTEM", "BLOCK"]
    let (bucketed, quantity) ← sampleQuantity inner
    let seed ← match ← takeOneOf ["REPEATABLE", "SEED"] with
      | some k => (do pure (" " ++ k ++ " (" ++ (← inParentheses numericLiteral) ++ ")"))
      | none => pure ""
    let offset ← clause ["OFFSET"] (expressionText inner)
    pure (" " ++ keyword ++ spaced method ++ (if bucketed then seed ++ quantity else quantity ++ seed) ++
      spaced offset.head?)

end Reader

end SemanticLayer.Tsql
