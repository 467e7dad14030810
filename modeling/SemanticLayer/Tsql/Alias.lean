import SemanticLayer.Tsql.Expression
/-!
Reading the names that columns and tables get beside their own.
-/
namespace SemanticLayer.Tsql

namespace Reader

variable (inner : Inner)

/-- Keywords that are neither an alias of a column nor of a table. -/
def reservedForAliases : List String :=
  ["WITH", "EXPLAIN", "ANALYZE", "SELECT", "WHERE", "GROUP", "SORT", "HAVING", "ORDER", "TOP",
    "LATERAL", "VIEW", "LIMIT", "OFFSET", "FETCH", "UNION", "EXCEPT", "INTERSECT", "MINUS",
    "CLUSTER", "DISTRIBUTE", "RETURNING"]

/-- Keywords that are no alias of a column unless `AS` stands in front. -/
def reservedForColumns : List String :=
  reservedForAliases ++ ["EXCLUDE", "FROM", "INTO", "END", "IF", "ELSE"]

/-- Keywords that are no alias of a table unless `AS` stands in front. -/
def reservedForTables : List String :=
  reservedForAliases ++ ["WINDOW", "PIVOT", "UNPIVOT", "ON", "JOIN", "INNER", "CROSS", "FULL",
    "LEFT", "RIGHT", "NATURAL", "USING", "GLOBAL", "ANTI", "SEMI", "ASOF", "MATCH_CONDITION",
    "OUTER", "SET", "QUALIFY", "END", "FOR", "PARTITION", "PREWHERE", "SETTINGS", "FORMAT",
    "START", "CONNECT", "MATCH_RECOGNIZE", "SAMPLE", "TABLESAMPLE", "FROM", "OPEN"]

/-- An alias that may be some words behind `AS` and some without, or a text in quotes, with whether
`AS` stands in front. -/
def aliasBy (allowed : Bool → String → Bool) : Reader (Option (Bool × Ident)) := do
  let explicit ← takeKeyword "AS"
  let none? (found : Option Sql.Lexeme) : Reader (Option (Bool × Ident)) :=
    if explicit then stop (.expected "an identifier after AS" found) else pure none
  match ← peek with
  | some ⟨.word text quote, here⟩ =>
    if allowed explicit (keywordOf (.word text quote)) then
      skip next
      pure (some (explicit, ⟨text, quote⟩))
    else none? (some ⟨.word text quote, here⟩)
  | some ⟨.text .plain s, _⟩ =>
    skip next
    pure (some (explicit, ⟨s, some '\''⟩))
  | found => none? found

/-- An alias: any word behind `AS`, or a word that is not reserved, or a text in quotes. -/
def aliasUnless (reserved : List String) : Reader (Option (Bool × Ident)) :=
  aliasBy fun explicit keyword => explicit || !reserved.contains keyword

def columnAlias? : Reader (Option Ident) := do
  pure ((← aliasUnless reservedForColumns).map Prod.snd)

def aliasColumn : Reader String := do
  let name ← identText
  pure (name ++ spaced (← attempt? (typeText inner)))

def aliasColumns : Reader String := do
  pure (enclosed (commas (← columnsOf? (aliasColumn inner))))

def tableAlias : Reader String := do
  match ← aliasUnless reservedForTables with
  | some (explicit, name) =>
    pure ((if explicit then " AS " else " ") ++ name.text ++ (← aliasColumns inner))
  | none => pure ""

/-- An expression that may have an alias behind `AS`. -/
def aliasedExpression : Reader String := do
  let e ← expressionText inner
  let name ← clause ["AS"] identText
  pure (e ++ spaced name.head?)

end Reader

end SemanticLayer.Tsql
