import SemanticLayer.Tsql.Transfer
/-!
Reading commands: statements that neither give rows nor change those of a table. Nothing of a
command is kept; it only has to be told from a text that is no statement.
-/
namespace SemanticLayer.Tsql

open Sql (Token Lexeme Place)

namespace Reader

variable (inner : Inner)

/-! ## Variables and cursors -/

/-- A new variable, with its type and its value or the query of its cursor. -/
def declaration : Reader Unit := do
  let name ← ident
  let cursor ← atKeyword "CURSOR"
  unless name.value.startsWith "@" || cursor do
    stop (.spoken "Invalid MsSql variable declaration." none)
  if cursor then skip next
  else
    skip (takeKeyword "AS")
    skip (dataType inner)
  if ← takeKeyword "FOR" then skip inner.query else defaultValue inner

/-- Which rows a cursor gives. -/
def cursorRows : Reader Unit := do
  match ← takeOneOf ["NEXT", "PRIOR", "FIRST", "LAST", "ALL", "ABSOLUTE", "RELATIVE", "FORWARD",
      "BACKWARD"] with
  | none => skip numericLiteral
  | some keyword =>
    if ["ABSOLUTE", "RELATIVE"].contains keyword then skip numericLiteral
    else if ["FORWARD", "BACKWARD"].contains keyword then
      unless ← takeKeyword "ALL" do skip numericLiteral

def cursorFetch : Reader Unit := do
  cursorRows
  if (← takeOneOf ["FROM", "IN"]).isNone then refuse "Expected FROM or IN"
  skip ident
  skip (behind? ["INTO"] objectName)

def cursorClose : Reader Unit := do
  unless ← takeKeyword "ALL" do skip ident

/-! ## Calls and prepared statements -/

def procedureCall : Reader Unit := do
  let name ← objectName
  if ← atSign "(" then skip (call inner name)

/-- The arguments of a procedure, up to the end of the statement or a keyword of what follows. -/
def executionArguments : Reader Unit := do
  match ← peek with
  | none => pure ()
  | some l =>
    let keyword := keywordOf l.token
    if l.token = .sign "(" then
      skip (inParentheses (commaListUntil ")" (expression inner)))
    else unless l.token = .sign ";" || ["USING", "OUTPUT", "DEFAULT"].contains keyword do
      skip (expressionList inner)

def execution : Reader Unit := do
  if ← atSign "(" then skip (inParentheses objectName) else skip objectName
  executionArguments inner
  skip (behind? ["INTO"] (commaList ident))
  skip (behind? ["USING"] (commaList (aliasedExpression inner)))
  skip (takeKeyword "OUTPUT")
  skip (takeKeyword "DEFAULT")

def preparation : Reader Unit := do
  skip ident
  skip (columnsOf? (dataType inner))
  expectKeyword "AS"
  skip inner.statement

def errorRaising : Reader Unit := do
  inParentheses (do
    skip (expression inner)
    expectSign ","
    skip (expression inner)
    expectSign ","
    skip (expressionList inner))
  skip (behind? ["WITH"] (commaList (expectOneOf ["LOG", "NOWAIT", "SETERROR"])))

def raising : Reader Unit := do
  if ← takeKeywords ["USING", "MESSAGE"] then
    expectSign "="
    skip (expression inner)
  else skip (attempt? (expression inner))

/-! ## Tables as a whole -/

def truncated : Reader Unit := do
  skip (takeKeyword "ONLY")
  skip objectName
  skip (takeSign "*")

def truncation : Reader Unit := do
  skip (takeKeyword "TABLE")
  ifExists
  skip (commaList truncated)
  skip (behind? ["PARTITION"] (expressionsInParentheses inner))
  onCluster

/-- What is found out about a table, if it comes next. -/
def analysisPart? : Reader (Option Unit) := do
  match ← takeOneOf ["PARTITION", "NOSCAN", "FOR", "CACHE", "COMPUTE"] with
  | some "PARTITION" => pure (some (← skip (expressionsInParentheses inner)))
  | some "NOSCAN" => pure (some ())
  | some "FOR" =>
    expectKeyword "COLUMNS"
    pure (some (← skip (attempt? (commaList ident))))
  | some "CACHE" => pure (some (← expectKeyword "METADATA"))
  | some _ => pure (some (← expectKeyword "STATISTICS"))
  | none => pure none

def analysis : Reader Unit := do
  skip (takeKeyword "TABLE")
  skip objectName
  skip (all (analysisPart? inner))

def partitionCheck : Reader Unit := do
  skip (takeKeyword "REPAIR")
  expectKeyword "TABLE"
  skip objectName
  skip (attempt? (do
    skip (takeOneOf ["ADD", "DROP", "SYNC"])
    expectKeyword "PARTITIONS"))

/-- The query whose rows are kept in a cache, which may have options in front. -/
def cachedRows : Reader Unit := do
  skip (optionsBehind inner ["OPTIONS"])
  match ← peek with
  | none => pure ()
  | some ⟨.word _ _, _⟩ =>
    skip (takeKeyword "AS")
    skip inner.query
  | _ => expected "a QUERY statement"

def caching : Reader Unit := do
  unless ← atKeyword "TABLE" do skip objectName
  if ← takeKeyword "TABLE" then
    skip objectName
    cachedRows inner
  else expected "a \x60TABLE\x60 keyword"

def uncaching : Reader Unit := do
  if ← takeKeyword "TABLE" then
    ifExists
    skip objectName
  else expected "a \x60TABLE\x60 keyword"

def vacuum : Reader Unit := do
  for phrase in ["FULL", "SORT ONLY", "DELETE ONLY", "REINDEX", "RECLUSTER"] do
    skip (takePhrase [phrase])
  if (← attempt? objectName).isSome then
    if ← takeKeyword "TO" then
      skip literal
      expectKeyword "PERCENT"
    skip (takeKeyword "BOOST")

def renamedTable : Reader Unit := do
  skip objectName
  expectKeyword "TO"
  skip objectName

def renamings : Reader Unit := do
  if ← takeKeyword "TABLE" then skip (commaList renamedTable)
  else expected "KEYWORD \x60TABLE\x60 after RENAME"

/-! ## Other commands -/

def killing : Reader Unit := do
  let kind ← takeOneOf ["CONNECTION", "QUERY", "MUTATION"]
  skip wholeNumber
  if kind = some "MUTATION" then
    expected "Unsupported type for KILL, allowed: CONNECTION | QUERY"

def attachment : Reader Unit := do
  skip (takeKeyword "DATABASE")
  skip (expression inner)
  expectKeyword "AS"
  skip ident

def pragmaValue : Reader Unit := do
  let wanted : Reader Unit := expected "number or string or ? placeholder"
  match ← peek with
  | some ⟨.text .plain _, _⟩ => skip next
  | some ⟨.word _ (some '"'), _⟩ => skip next
  | some ⟨.text _ _, _⟩ => wanted
  | some ⟨.word text none, _⟩ =>
    if keywordOf (.word text none) = "NULL" then wanted else skip literal
  | _ => skip literal

def pragma : Reader Unit := do
  skip objectName
  if ← atSign "(" then inParentheses pragmaValue
  else if ← takeSign "=" then pragmaValue

def assertion : Reader Unit := do
  skip (expression inner)
  skip (behind? ["AS"] (expression inner))

def discarding : Reader Unit := do
  if (← takeOneOf ["ALL", "PLANS", "SEQUENCES", "TEMP", "TEMPORARY"]).isNone then
    expected "ALL, PLANS, SEQUENCES, TEMP or TEMPORARY after DISCARD"

def resetting : Reader Unit := do
  unless ← takeKeyword "ALL" do skip objectName

/-- A name that may have a keyword in front. -/
def nameBehind (keyword : String) : Reader Unit := do
  skip (takeKeyword keyword)
  skip ident

/-- The fault of a statement of another engine's. -/
def unsupported (keyword : String) : Reader Unit :=
  refuse ("Unsupported statement " ++ keyword)

/-! ## Commands by their keyword -/

def schemaCommand? (keyword : String) : Option (Reader Unit) :=
  match keyword with
  | "CREATE" => some (creation inner)
  | "ALTER" => some (alteration inner)
  | "DROP" => some (removal inner)
  | "GRANT" => some (grant inner)
  | "DENY" => some (denial inner)
  | "REVOKE" => some (revocation inner)
  | "RENAME" => some renamings
  | "TRUNCATE" => some (truncation inner)
  | "ANALYZE" => some (analysis inner)
  | "MSCK" => some partitionCheck
  | "VACUUM" => some vacuum
  | "CACHE" => some (caching inner)
  | "UNCACHE" => some uncaching
  | "COPY" => some (copying inner)
  | "UNLOAD" => some (unloading inner)
  | "EXPORT" => some (exporting inner)
  | "ATTACH" => some (attachment inner)
  | _ => none

def sessionCommand? (keyword : String) : Option (Reader Unit) :=
  match keyword with
  | "SET" => some (setting inner)
  | "RESET" => some resetting
  | "SHOW" => some (showing inner)
  | "USE" => some (skip objectName)
  | "KILL" => some killing
  | "DISCARD" => some discarding
  | "PRAGMA" => some pragma
  | "BEGIN" => some beginning
  | "END" => some blockEnd
  | "COMMIT" => some ending
  | "ROLLBACK" => some rollback
  | "SAVEPOINT" => some (skip ident)
  | "RELEASE" => some (nameBehind "SAVEPOINT")
  | "START" => some (do
    expectKeyword "TRANSACTION"
    transactionModes)
  | _ => none

def procedureCommand? (keyword : String) : Option (Reader Unit) :=
  match keyword with
  | "DECLARE" => some (skip (commaList (declaration inner)))
  | "OPEN" => some (skip ident)
  | "CLOSE" => some cursorClose
  | "FETCH" => some cursorFetch
  | "CALL" => some (procedureCall inner)
  | "EXEC" => some (execution inner)
  | "EXECUTE" => some (execution inner)
  | "PREPARE" => some (preparation inner)
  | "DEALLOCATE" => some (nameBehind "PREPARE")
  | "IF" => some (conditional inner)
  | "WHILE" => some (loop inner)
  | "CASE" => some (caseStatement inner)
  | "RAISE" => some (raising inner)
  | "RAISERROR" => some (errorRaising inner)
  | "ASSERT" => some (assertion inner)
  | "PRINT" => some (skip (expression inner))
  | "RETURN" => some (skip (attempt? (expression inner)))
  | "FLUSH" => some (unsupported "FLUSH")
  | "REPLACE" => some (unsupported "REPLACE")
  | "LOAD" => some (do
    skip (takeKeyword "DATA")
    expected "\x60DATA\x60 or an extension name after \x60LOAD\x60")
  | _ => none

/-- The reader of what stands behind the keyword of a command. -/
def command? (keyword : String) : Option (Reader Unit) :=
  ((schemaCommand? inner keyword).orElse fun _ => sessionCommand? inner keyword).orElse fun _ =>
    procedureCommand? inner keyword

end Reader

end SemanticLayer.Tsql
