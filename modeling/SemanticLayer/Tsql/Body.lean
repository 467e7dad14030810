import SemanticLayer.Tsql.Clause
/-!
Reading queries: their bodies with set operators between them, and what stands around.
-/
namespace SemanticLayer.Tsql

open Sql (Token Lexeme Place)

namespace Reader

variable (inner : Inner)

/-! ## Bodies -/

/-- How tight a set operator binds; none of them is left of nothing. -/
def setStrength (keyword : String) : Nat :=
  match keyword with
  | "UNION" => 10
  | "EXCEPT" => 10
  | "MINUS" => 10
  | "INTERSECT" => 20
  | _ => 0

/-- What may stand behind a set operator, with a space in front. -/
def setQuantifier : Reader String := do
  pure (spaced (← takePhrase ["DISTINCT BY NAME", "BY NAME", "ALL BY NAME", "ALL", "DISTINCT"]))

def wordOf (what : String) : Option Lexeme → Reader String
  | some ⟨.word text _, _⟩ => pure text
  | found => stop (.expected what found)

/-- A table by its name alone, behind `TABLE`. Two tokens behind the name are taken along with it,
whether or not they are a point and a second name. -/
def wholeTable : Reader String := do
  let first ← next
  let second ← next
  let third ← next
  if second.map Lexeme.token = some (.sign ".") then
    let schema ← wordOf "Schema name" first
    pure ("TABLE " ++ schema ++ "." ++ (← wordOf "Table name" third))
  else pure ("TABLE " ++ (← wordOf "Table name" first))

/-- A body without set operators outside parentheses. -/
def simpleBody : Reader Body := do
  if ← atKeyword "SELECT" then pure (.select (← selection inner))
  else if ← atSign "(" then pure (.parenthesised (← inParentheses inner.query))
  else
    match ← takeOneOf ["VALUES", "VALUE", "TABLE"] with
    | some "TABLE" => pure (.other (← wholeTable))
    | some keyword => pure (.other (← valueRows inner keyword))
    | none => expected "SELECT, VALUES, or a subquery in the query body"

/-- Set operators behind a body that bind tighter than the given strength. Every step takes an
operator or gives the rest to the operator outside. -/
def setOperations : Nat → Nat → Body → Reader Body
  | 0, _, left => pure left
  | steps + 1, strength, left => do
    let keyword ← peekKeyword
    if strength < setStrength keyword then
      skip next
      let quantifier ← setQuantifier
      let first ← simpleBody inner
      let right ← setOperations steps (setStrength keyword) first
      setOperations steps strength (.setOperation (keyword ++ quantifier) left right)
    else pure left

def queryBody : Reader Body := do
  let first ← simpleBody inner
  let ts ← get
  setOperations inner (ts.length + 1) 0 first

/-! ## Queries -/

def cte : Reader String := do
  let name ← identText
  let names ← if ← atKeyword "AS" then pure "" else aliasColumns inner
  expectKeyword "AS"
  let q ← inParentheses inner.query
  let source ← clause ["FROM"] identText
  pure (name ++ names ++ " AS (" ++ q.text ++ ")" ++ spaced source.head?)

def ctes? : Reader (Option String) := do
  if ← takeKeyword "WITH" then
    let recursive ← takePhrase ["RECURSIVE"]
    let tables ← commaList (cte inner)
    pure (some ("WITH" ++ spaced recursive ++ " " ++ commas tables))
  else pure none

/-- A query whose common table expressions are read already. -/
def queryBehind (ctes : Option String) : Reader Query := do
  let body ← queryBody inner
  let order ← clause ["ORDER", "BY"] (sortKeys inner)
  let limit ← limit? inner
  let fetch ← fetch?
  let ts ← get
  let (locks, forClause) ← forClauses ts.length []
  pure (.mk ctes body order.head? limit fetch locks forClause)

/-- A query. In place of a body it may have a change of a table, which no clause follows. -/
def query : Reader Query := do
  let ctes ← ctes? inner
  match ← change? inner with
  | some text => pure (.mk ctes (.other text) none none none [] none)
  | none => queryBehind inner ctes

end Reader

end SemanticLayer.Tsql
