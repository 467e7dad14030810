import SemanticLayer.Tsql.DataType
/-!
Reading calls of functions with their arguments.
-/
namespace SemanticLayer.Tsql

namespace Reader

variable (inner : Inner)

/-! ## Wildcards -/

/-- A table's name in front of `.*`; every step takes a point. -/
def wildcardParts : Nat → List Ident → Reader (Option (List Ident))
  | 0, _ => pure none
  | steps + 1, parts => do
    if ← takeSign "." then
      if ← takeSign "*" then pure (some parts)
      else
        match ← peek with
        | some ⟨.word text quote, _⟩ =>
          skip next
          wildcardParts steps (parts ++ [⟨text, quote⟩])
        | some ⟨.text .plain s, _⟩ =>
          skip next
          wildcardParts steps (parts ++ [⟨s, some '\''⟩])
        | _ => expected "an identifier or a '*' after '.'"
    else pure none

/-- `*` or `t.*`, if one comes next. -/
def wildcard? : Reader (Option (List Ident)) := fun ts =>
  let reader : Reader (Option (List Ident)) := do
    match ← peekTwo with
    | (some (.sign "*"), _) =>
      skip next
      pure (some [])
    | (some (.word text quote), some (.sign ".")) =>
      skip next
      wildcardParts ts.length [⟨text, quote⟩]
    | (some (.text .plain s), some (.sign ".")) =>
      skip next
      wildcardParts ts.length [⟨s, some '\''⟩]
    | _ => pure none
  match reader ts with
  | .ok (none, _) => .ok (none, ts)
  | result => result

/-! ## Arguments -/

def argumentValue : Reader String := do
  match ← wildcard? with
  | some table => pure (Item.wildcard table).text
  | none => expressionText inner

/-- What makes an expression the name of an argument: `VALUE` or a colon, and the argument. -/
def valueOf (name : String) : Reader String := do
  if ← takeKeyword "VALUE" then pure (name ++ " VALUE " ++ (← argumentValue inner))
  else
    expectSign ":"
    pure (name ++ " : " ++ (← argumentValue inner))

def argument : Reader String := do
  match ← attempt? wildcard? with
  | some (some table) => pure (Item.wildcard table).text
  | some none =>
    let e ← expressionText inner
    pure ((← attempt? (valueOf inner e)).getD e)
  | none =>
    let named? ← attempt? (do valueOf inner (← expressionText inner))
    match named? with
    | some text => pure text
    | none => argumentValue inner

/-- `RESPECT NULLS` or `IGNORE NULLS`, or nothing. -/
def nullTreatment : Reader (List String) := do
  match ← takeOneOf ["RESPECT", "IGNORE"] with
  | some k =>
    expectKeyword "NULLS"
    pure [k ++ " NULLS"]
  | none => pure []

/-- What becomes of nulls in JSON, or nothing. -/
def jsonNulls : Reader (List String) := do
  pure (← takePhrase ["ABSENT ON NULL", "NULL ON NULL"]).toList

def jsonType : Reader (List String) :=
  clause ["RETURNING"] (typeText inner)

def duplicates : Reader String := do
  let here ← place
  let all ← takeKeyword "ALL"
  let distinct ← takeKeyword "DISTINCT"
  if all && distinct then stop (.spoken "Cannot specify both ALL and DISTINCT" here)
  else if all then pure "ALL "
  else if distinct then pure "DISTINCT "
  else pure ""

/-- What stands in place of the items that a list has no room for. -/
def filler : Reader String := do
  match ← peek with
  | some ⟨.word text quote, _⟩ =>
    if ["WITH", "WITHOUT"].contains (keywordOf (.word text quote)) then pure ""
    else expected "either filler, WITH, or WITHOUT in LISTAGG"
  | some ⟨.text kind _, _⟩ =>
    if [.plain, .escaped, .unicode, .national, .hex].contains kind then
      pure (" " ++ (← expressionText inner))
    else expected "either filler, WITH, or WITHOUT in LISTAGG"
  | _ => expected "either filler, WITH, or WITHOUT in LISTAGG"

/-- What happens when a list grows too long, or nothing. -/
def overflow : Reader (List String) := do
  if ← takeKeywords ["ON", "OVERFLOW"] then
    if ← takeKeyword "ERROR" then pure ["ON OVERFLOW ERROR"]
    else
      expectKeyword "TRUNCATE"
      let instead ← filler inner
      match ← takeOneOf ["WITH", "WITHOUT"] with
      | some count =>
        expectKeyword "COUNT"
        pure ["ON OVERFLOW TRUNCATE" ++ instead ++ " " ++ count ++ " COUNT"]
      | none => expected "either WITH or WITHOUT in LISTAGG"
  else pure []

/-- What stands in the parentheses of a call, up to the closing one. -/
def arguments : Reader String := do
  let nulls ← jsonNulls
  let type ← jsonType inner
  if ← takeSign ")" then pure (String.intercalate " " (nulls ++ type))
  else
    let kind ← duplicates
    let args ← commaList (argument inner)
    let order ← clause ["ORDER", "BY"] (sortKeys inner)
    let limit ← clause ["LIMIT"] (expressionText inner)
    let rest ← overflow inner
    let moreNulls ← jsonNulls
    let lastType ← jsonType inner
    expectSign ")"
    pure (kind ++ String.intercalate " "
      ([commas args] ++ nulls ++ type ++ order ++ limit ++ rest ++ moreNulls ++ lastType))

/-! ## Calls -/

/-- The order in which an aggregate takes its rows, or nothing. -/
def withinGroup : Reader String := do
  if ← takeKeywords ["WITHIN", "GROUP"] then
    let keys ← inParentheses (do
      expectKeywords ["ORDER", "BY"]
      sortKeys inner)
    pure (" WITHIN GROUP (ORDER BY " ++ keys ++ ")")
  else pure ""

def overWindow : Reader String := do
  if ← takeKeyword "OVER" then
    if ← takeSign "(" then pure (" OVER (" ++ (← window inner) ++ ")")
    else pure (" OVER " ++ (← identText))
  else pure ""

/-- What stands behind the name of a function in a call. -/
def callBody : Reader String := do
  expectSign "("
  let args ← arguments inner
  let group ← withinGroup inner
  let nulls ← nullTreatment
  let rows ← overWindow inner
  pure ("(" ++ args ++ ")" ++ group ++ spaced nulls.head? ++ rows)

def call (name : List Ident) : Reader Expression := do
  pure (.call (dotted name ++ (← callBody inner)))

end Reader

end SemanticLayer.Tsql
