import SemanticLayer.Tsql.Alteration
/-!
Reading statements about a session: its settings, its transactions and questions about what there is.
-/
namespace SemanticLayer.Tsql

open Sql (Token Lexeme Place)

namespace Reader

variable (inner : Inner)

/-! ## Transactions -/

def transactionMode? : Reader (Option Unit) := do
  match ← takePhrase ["ISOLATION LEVEL", "READ ONLY", "READ WRITE"] with
  | some "ISOLATION LEVEL" =>
    match ← takePhrase ["READ UNCOMMITTED", "READ COMMITTED", "REPEATABLE READ", "SERIALIZABLE",
        "SNAPSHOT"] with
    | some _ => pure (some ())
    | none => expected "isolation level"
  | some _ => pure (some ())
  | none => pure none

/-- More ways a transaction works, with or without commas; every step takes one. -/
def moreTransactionModes (required : Bool) : Nat → Reader Unit
  | 0 => pure ()
  | steps + 1 => do
    if (← transactionMode?).isSome then
      let comma ← takeSign ","
      moreTransactionModes comma steps
    else if required then expected "transaction mode"

def transactionModes : Reader Unit := do
  let ts ← get
  moreTransactionModes false (ts.length + 1)

def beginning : Reader Unit := do
  skip (takeOneOf ["DEFERRED", "IMMEDIATE", "EXCLUSIVE", "TRY", "CATCH"])
  skip (takeOneOf ["TRANSACTION", "WORK"])
  transactionModes

/-- The end of a transaction, which may begin another. -/
def ending : Reader Unit := do
  skip (takeOneOf ["TRANSACTION", "WORK"])
  if ← takeKeyword "AND" then
    skip (takeKeyword "NO")
    expectKeyword "CHAIN"

def blockEnd : Reader Unit := do
  skip (takeOneOf ["TRY", "CATCH"])
  ending

def rollback : Reader Unit := do
  ending
  if ← takeKeyword "TO" then
    skip (takeKeyword "SAVEPOINT")
    skip ident

/-! ## Settings -/

/-- A value of a setting: a subquery without parentheses or an expression. -/
def settingValue : Reader Unit := do
  if ← atQuery then skip inner.query else skip (expression inner)

/-- Whether a setting is on. -/
def switch : Reader Unit := do
  if (← takeOneOf ["ON", "OFF"]).isNone then expected "ON or OFF"

def settingWord (what : String) : Reader Unit := do
  match ← next with
  | some ⟨.word _ _, _⟩ => pure ()
  | found => stop (.expected what found)

/-- Settings without a sign between their names and their value. -/
def switchedSetting : Reader Unit := do
  match ← takeOneOf ["STATISTICS", "IDENTITY_INSERT", "OFFSETS"] with
  | some "STATISTICS" =>
    if (← takeOneOf ["IO", "PROFILE", "TIME", "XML"]).isSome then switch
    else expected "IO, PROFILE, TIME or XML"
  | some "IDENTITY_INSERT" =>
    skip objectName
    switch
  | some _ =>
    skip (commaList (settingWord "SQL keyword"))
    switch
  | none =>
    skip (commaList (settingWord "Session param name"))
    skip (expression inner)

/-- A setting with its value behind a sign or `TO`, or without either. -/
def namedSetting : Reader Unit := do
  let before ← get
  skip objectName
  let after ← get
  let signed ← takeSign "="
  let assigned ← if signed then pure true else takeKeyword "TO"
  if assigned then skip (commaList (settingValue inner))
  else
    set ((lastTaken before after).toList ++ after)
    switchedSetting inner

def zoneSetting : Reader Unit := do
  let signed ← takeSign "="
  let assigned ← if signed then pure true else takeKeyword "TO"
  if assigned then skip (commaList (settingValue inner)) else skip (expression inner)

def roleSetting : Reader Unit := do
  expectKeyword "ROLE"
  unless ← takeKeyword "NONE" do skip ident

def setting : Reader Unit := do
  let hasScope ← if ← takeKeyword "HIVEVAR" then (do
      expectSign ":"
      pure false)
    else (do pure (← takeOneOf ["SESSION", "LOCAL", "GLOBAL"]).isSome)
  if (← attempt? roleSetting).isSome then pure ()
  else
    match ← takePhrase ["TIME ZONE", "TIMEZONE", "CHARACTERISTICS", "TRANSACTION", "AUTHORIZATION"] with
    | some "CHARACTERISTICS" =>
      expectKeywords ["AS", "TRANSACTION"]
      transactionModes
    | some "TRANSACTION" =>
      if ← takeKeyword "SNAPSHOT" then skip literal else transactionModes
    | some "AUTHORIZATION" =>
      if hasScope then
        unless ← takeKeyword "DEFAULT" do skip ident
      else expected "SESSION, LOCAL, or other scope modifier before AUTHORIZATION"
    | some _ => zoneSetting inner
    | none => namedSetting inner

/-! ## Questions -/

/-- What the shown things have to be like, or nothing. -/
def shownFilter : Reader Unit := do
  match ← takeOneOf ["LIKE", "ILIKE", "WHERE"] with
  | some "WHERE" => skip (expression inner)
  | some _ => skip literalString
  | none => skip (attempt? literalString)

/-- What the shown things are in, or nothing. -/
def shownPlace : Reader Unit := do
  if (← takeOneOf ["FROM", "IN"]).isSome then
    match ← takeOneOf ["ACCOUNT", "DATABASE", "SCHEMA", "TABLE", "VIEW"] with
    | some kind =>
      let alone ← if ["DATABASE", "SCHEMA"].contains kind then (do
          if ← atKeywords ["STARTS", "WITH"] then pure true else atKeyword "LIMIT")
        else pure false
      unless alone do skip (attempt? objectName)
    | none =>
      skip objectName
      if (← takeOneOf ["FROM", "IN"]).isSome then skip ident

def shownThings : Reader Unit := do
  shownPlace
  shownFilter inner
  skip (behind? ["STARTS", "WITH"] literal)
  if ← takeKeyword "LIMIT" then
    unless ← takeKeyword "ALL" do skip (expression inner)
  skip (behind? ["FROM"] literal)

/-- Anything up to an equals sign or a semicolon; every step takes a token. -/
def anything : Nat → Reader Unit
  | 0 => pure ()
  | steps + 1 => do
    match ← peek with
    | none => pure ()
    | some l =>
      unless [.sign "=", .sign ";"].contains l.token do
        skip next
        anything steps

def showing : Reader Unit := do
  skip (takeKeyword "TERSE")
  let extended ← takeKeyword "EXTENDED"
  let full ← takeKeyword "FULL"
  for keyword in ["SESSION", "GLOBAL", "EXTERNAL"] do
    skip (takeKeyword keyword)
  match ← takePhrase ["COLUMNS", "FIELDS", "TABLES", "MATERIALIZED VIEWS", "VIEWS", "FUNCTIONS"] with
  | some "FUNCTIONS" => shownFilter inner
  | some _ => shownThings inner
  | none =>
    if extended || full then
      stop (.spoken "EXTENDED/FULL are not supported with this type of SHOW query" none)
    else
      match ← takePhrase ["CREATE", "COLLATION", "DATABASES", "SCHEMAS", "CHARSET",
          "CHARACTER SET"] with
      | some "CREATE" =>
        skip (expectOneOf ["TABLE", "TRIGGER", "FUNCTION", "PROCEDURE", "EVENT", "VIEW"])
        skip objectName
      | some phrase =>
        if ["DATABASES", "SCHEMAS"].contains phrase then
          skip (takeKeyword "HISTORY")
          shownThings inner
        else shownFilter inner
      | none =>
        let ts ← get
        anything ts.length

/-- How the plan of a statement is shown. -/
def planFormat : Reader Unit := do
  skip (takeSign "=")
  if (← takeOneOf ["TEXT", "GRAPHVIZ", "JSON", "TREE", "TRADITIONAL"]).isNone then
    expected "fileformat"

/-- What stands behind `EXPLAIN`: a statement that is no explanation itself, or a table. -/
def explanation : Reader Unit := do
  if (← takePhrase ["QUERY PLAN", "ESTIMATE"]).isNone then
    skip (takeKeyword "ANALYZE")
    skip (takeKeyword "VERBOSE")
    skip (behind? ["FORMAT"] planFormat)
  match ← attempt? inner.statement with
  | some .explanation => stop (.spoken "Explain must be root of the plan" none)
  | some _ => pure ()
  | none =>
    skip (takeOneOf ["EXTENDED", "FORMATTED"])
    skip objectName

end Reader

end SemanticLayer.Tsql
