import SemanticLayer.Tsql.Pivot
/-!
Reading the table functions that have a form of their own: those that make rows of JSON and XML.
-/
namespace SemanticLayer.Tsql

namespace Reader

variable (inner : Inner)

/-! ## JSON with its columns -/

/-- What a column of JSON is in place of a value that is missing or wrong, if it says so. -/
def jsonDefault? : Reader (Option String) := do
  let instead ← match ← takeOneOf ["NULL", "ERROR", "DEFAULT"] with
    | some "DEFAULT" => (do pure (some ("DEFAULT " ++ (← literal))))
    | other => pure other
  if instead.isSome then expectKeyword "ON"
  pure instead

/-- What a column of JSON is in place of missing and of wrong values; every step takes a keyword.
Of two words about the same the last counts. -/
def jsonDefaults : Nat → Option String → Option String → Reader String
  | 0, empty, wrong =>
    pure (((empty.map fun e => " " ++ e ++ " ON EMPTY").getD "") ++
      ((wrong.map fun e => " " ++ e ++ " ON ERROR").getD ""))
  | steps + 1, empty, wrong => do
    match ← jsonDefault? with
    | none => jsonDefaults 0 empty wrong
    | some instead =>
      if ← takeKeyword "EMPTY" then jsonDefaults steps (some instead) wrong
      else
        expectKeyword "ERROR"
        jsonDefaults steps empty (some instead)

/-- A column of `JSON_TABLE`. Every step goes into a nested one. -/
def jsonTableColumn : Nat → Reader String
  | 0 => expected "identifier"
  | steps + 1 => do
    if ← takeKeyword "NESTED" then
      skip (takeKeyword "PATH")
      let path ← literal
      expectKeyword "COLUMNS"
      let columns ← inParentheses (commaList (jsonTableColumn steps))
      pure ("NESTED PATH " ++ path ++ " COLUMNS (" ++ commas columns ++ ")")
    else
      let name ← identText
      if ← takeKeyword "FOR" then
        expectKeyword "ORDINALITY"
        pure (name ++ " FOR ORDINALITY")
      else
        let t ← typeText inner
        let present ← takePhrase ["EXISTS"]
        expectKeyword "PATH"
        let path ← literal
        let ts ← get
        pure (name ++ " " ++ t ++ spaced present ++ " PATH " ++ path ++
          (← jsonDefaults ts.length none none))

def jsonTable : Reader String := do
  let text ← inParentheses (do
    let e ← expressionText inner
    expectSign ","
    let path ← literal
    expectKeyword "COLUMNS"
    let ts ← get
    let columns ← inParentheses (commaList (jsonTableColumn inner ts.length))
    pure ("JSON_TABLE(" ++ e ++ ", " ++ path ++ " COLUMNS(" ++ commas columns ++ "))"))
  pure (text ++ (← tableAlias inner))

def openJsonColumn : Reader String := do
  let name ← identText
  let t ← typeText inner
  let path ← if ← atText then (do pure (" " ++ (← literal))) else pure ""
  let asJson ← clause ["AS"] (do
    expectKeyword "JSON"
    pure "JSON")
  pure (name ++ " " ++ t ++ path ++ spaced asJson.head?)

def openJson : Reader String := do
  let text ← inParentheses (do
    let e ← expressionText inner
    if ← takeSign "," then pure (e ++ ", " ++ (← literal)) else pure e)
  let columns ← behind? ["WITH"] (inParentheses (commaList (openJsonColumn inner)))
  pure ("OPENJSON(" ++ text ++ ")" ++
    ((columns.map fun cs => " WITH (" ++ commas cs ++ ")").getD "") ++ (← tableAlias inner))

/-! ## XML with its columns -/

/-- A namespace with its short name. -/
def xmlNamespace : Reader String := do
  let uri ← expressionText inner
  expectKeyword "AS"
  pure (uri ++ " AS " ++ (← identText))

/-- What a table of XML is made from. `BY` without `VALUE` counts for nothing. -/
def xmlSource : Reader String := do
  let byValue ← if ← takeKeyword "BY" then takeKeyword "VALUE" else pure false
  pure ((if byValue then "BY VALUE " else "") ++ (← aliasedExpression inner))

def xmlTableColumn : Reader String := do
  let name ← identText
  if ← takeKeyword "FOR" then
    expectKeyword "ORDINALITY"
    pure (name ++ " FOR ORDINALITY")
  else
    let t ← typeText inner
    let path ← clause ["PATH"] (expressionText inner)
    let default ← clause ["DEFAULT"] (expressionText inner)
    let notNull ← takePhrase ["NOT NULL"]
    if notNull.isNone then skip (takeKeyword "NULL")
    pure (String.intercalate " " ([name, t] ++ path ++ default ++ notNull.toList))

def xmlTable : Reader String := do
  let text ← inParentheses (do
    let namespaces ← behind? ["XMLNAMESPACES"] (do
      let read ← inParentheses (commaList (xmlNamespace inner))
      expectSign ","
      pure ("XMLNAMESPACES(" ++ commas read ++ "), "))
    let e ← expressionText inner
    let sources ← clause ["PASSING"] (do pure (commas (← commaList (xmlSource inner))))
    expectKeyword "COLUMNS"
    let columns ← commaList (xmlTableColumn inner)
    pure ("XMLTABLE(" ++ namespaces.getD "" ++ e ++ spaced sources.head? ++ " COLUMNS " ++
      commas columns ++ ")"))
  pure (text ++ (← tableAlias inner))

end Reader

end SemanticLayer.Tsql
