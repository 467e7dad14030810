import SemanticLayer.Tsql.Block
/-!
Reading definitions of tables.
-/
namespace SemanticLayer.Tsql

namespace Reader

variable (inner : Inner)

/-! ## Options -/

/-- The parts that a table is divided into. -/
def partitionOption : Reader Unit :=
  inParentheses (do
    skip ident
    expectKeyword "RANGE"
    skip (takeOneOf ["LEFT", "RIGHT"])
    expectKeywords ["FOR", "VALUES"]
    skip (expressionsInParentheses inner))

def clusteredOption : Reader Unit := do
  match ← takePhrase ["CLUSTERED COLUMNSTORE INDEX ORDER", "CLUSTERED COLUMNSTORE INDEX",
      "CLUSTERED INDEX"] with
  | some "CLUSTERED COLUMNSTORE INDEX ORDER" => skip columns
  | some "CLUSTERED INDEX" =>
    skip (inParentheses (commaList (do
      skip ident
      skip (takeOneOf ["ASC", "DESC"]))))
  | some _ => pure ()
  | none => stop (.spoken "invalid CLUSTERED sequence" none)

def objectOption : Reader Unit := do
  match ← peekKeyword with
  | "HEAP" => skip next
  | "PARTITION" =>
    skip next
    partitionOption inner
  | "CLUSTERED" => clusteredOption
  | _ =>
    skip ident
    expectSign "="
    skip (expression inner)

/-- Options behind some keywords, and whether there are any. -/
def optionsBehind (keywords : List String) : Reader Bool := do
  let given ← behind? keywords (inParentheses (commaListUntil ")" (objectOption inner)))
  pure (given.any fun options => !options.isEmpty)

/-- The cluster of servers that a statement is for, or nothing. -/
def onCluster : Reader Unit :=
  skip (behind? ["ON", "CLUSTER"] ident)

/-! ## Columns -/

def tableElement : Reader Unit := do
  if (← tableConstraint? inner).isSome then pure ()
  else
    match ← peek with
    | some ⟨.word _ _, _⟩ => skip (columnDefinition inner (typeText inner))
    | _ => expected "column name or constraint definition"

/-- The rest of the columns and constraints; every step takes a comma. -/
def moreElements : Nat → Reader Unit
  | 0 => pure ()
  | steps + 1 => do
    tableElement inner
    if ← takeSign "," then moreElements steps
    else unless ← takeSign ")" do expected "',' or ')' after column definition"

def tableElements : Reader Unit := do
  if ← takeSign "(" then
    unless ← takeSign ")" do
      let ts ← get
      moreElements inner (ts.length + 1)

/-! ## Storage -/

def delimiter? : Reader (Option Unit) := do
  match ← takePhrase ["FIELDS TERMINATED BY", "COLLECTION ITEMS TERMINATED BY",
      "MAP KEYS TERMINATED BY", "LINES TERMINATED BY", "NULL DEFINED AS"] with
  | some phrase =>
    skip ident
    if phrase = "FIELDS TERMINATED BY" then skip (behind? ["ESCAPED", "BY"] ident)
    pure (some ())
  | none => pure none

/-- How rows are written to files, behind `ROW`. -/
def rowFormat : Reader Unit := do
  expectKeyword "FORMAT"
  if ← takeKeyword "SERDE" then skip literalString
  else
    skip (takeKeyword "DELIMITED")
    skip (all delimiter?)

/-- How files are stored, behind `STORED`. -/
def storedFormat : Reader Unit := do
  expectKeyword "AS"
  if ← takeKeyword "INPUTFORMAT" then
    skip (expression inner)
    expectKeyword "OUTPUTFORMAT"
    skip (expression inner)
  else skip fileFormat

def fileClause? : Reader (Option Unit) := do
  match ← takeOneOf ["ROW", "STORED", "LOCATION"] with
  | some "ROW" => pure (some (← rowFormat))
  | some "STORED" => pure (some (← storedFormat inner))
  | some _ => pure (some (← skip literalString))
  | none =>
    let given ← optionsBehind inner ["WITH", "SERDEPROPERTIES"]
    pure (if given then some () else none)

/-- The columns that the files of a table are divided by, or nothing. -/
def filePartition : Reader Unit :=
  skip (behind? ["PARTITIONED", "BY"]
    (inParentheses (commaList (columnDefinition inner (typeText inner)))))

/-! ## Plain options -/

/-- The names of options that have a value. -/
def plainOptions : List String :=
  ["DEFAULT CHARSET", "CHARSET", "DEFAULT CHARACTER SET", "CHARACTER SET", "DEFAULT COLLATE",
    "COLLATE", "DATA DIRECTORY", "INDEX DIRECTORY", "KEY_BLOCK_SIZE", "ROW_FORMAT", "PACK_KEYS",
    "STATS_AUTO_RECALC", "STATS_PERSISTENT", "STATS_SAMPLE_PAGES", "DELAY_KEY_WRITE",
    "COMPRESSION", "ENCRYPTION", "MAX_ROWS", "MIN_ROWS", "AUTOEXTEND_SIZE", "AVG_ROW_LENGTH",
    "CHECKSUM", "CONNECTION", "ENGINE_ATTRIBUTE", "PASSWORD", "SECONDARY_ENGINE_ATTRIBUTE",
    "INSERT_METHOD", "AUTO_INCREMENT"]

def engineOption : Reader Unit := do
  match ← next with
  | some ⟨.word _ _, _⟩ => skip columns?
  | found => stop (.expected "Token::Word" found)

def storageOption : Reader Unit := do
  skip (takeSign "=")
  if (← takeOneOf ["DISK", "MEMORY"]).isNone then expected "Storage type (DISK or MEMORY)"

def spaceOption : Reader Unit := do
  let found ← next
  match found with
  | some ⟨.word _ _, _⟩ => skip (behind? ["STORAGE"] storageOption)
  | some ⟨.text .plain _, _⟩ => skip (behind? ["STORAGE"] storageOption)
  | _ => stop (.expected "Token::Word" found)

def commentOption : Reader Unit := do
  skip (takeSign "=")
  if ← atText then skip next else expected "Token::SingleQuotedString"

/-- The value of an option: a literal or a name. -/
def optionValue : Reader Unit := do
  skip (takeSign "=")
  if (← attempt? literal).isNone then skip ident

/-- An option without parentheses, if one comes next. -/
def plainOption? : Reader (Option Unit) := do
  match ← takePhrase (["START TRANSACTION", "COMMENT", "ENGINE", "TABLESPACE", "UNION"] ++
      plainOptions) with
  | none => pure none
  | some phrase =>
    match phrase with
    | "START TRANSACTION" => pure ()
    | "COMMENT" => commentOption
    | "ENGINE" =>
      skip (takeSign "=")
      engineOption
    | "TABLESPACE" =>
      skip (takeSign "=")
      spaceOption
    | "UNION" =>
      skip (takeSign "=")
      skip (inParentheses (commaListUntil ")" ident))
    | _ => optionValue
    skip (takeSign ",")
    pure (some ())

/-- The options of a table: in parentheses behind a keyword, or else plain ones. -/
def tableOptions : Reader Unit := do
  skip (behind? ["INHERITS"] (columnsOf objectName))
  let general ← optionsBehind inner ["WITH"]
  let properties ← optionsBehind inner ["TBLPROPERTIES"]
  unless general || properties do skip (all plainOption?)

/-! ## Tables -/

def tableOrder : Reader Unit := do
  if ← takeKeywords ["ORDER", "BY"] then
    if ← atSign "(" then skip (inParentheses (commaListUntil ")" (expression inner)))
    else skip (expression inner)

/-- What becomes of rows when a transaction ends, or nothing. -/
def onCommit : Reader Unit := do
  if ← takeKeywords ["ON", "COMMIT"] then
    if (← takePhrase ["DELETE ROWS", "PRESERVE ROWS", "DROP"]).isNone then
      let found := ((← peek).map fun l => showToken l.token).getD "EOF"
      stop (.spoken ("Expecting DELETE ROWS, PRESERVE ROWS or DROP" ++ found) none)

def tableDefinition : Reader Unit := do
  ifNotExists
  skip objectName
  onCluster
  if (← takeOneOf ["LIKE", "ILIKE"]).isSome then skip objectName
  if ← takeKeyword "CLONE" then skip (attempt? objectName)
  tableElements inner
  skip (takeKeywords ["WITHOUT", "ROWID"])
  filePartition inner
  skip (all (fileClause? inner))
  tableOptions inner
  tableOrder inner
  onCommit
  skip (takeKeyword "STRICT")
  skip (behind? ["AS"] inner.query)

def externalTable : Reader Unit := do
  expectKeyword "TABLE"
  ifNotExists
  skip objectName
  tableElements inner
  filePartition inner
  skip (all (fileClause? inner))
  skip (optionsBehind inner ["TBLPROPERTIES"])

end Reader

end SemanticLayer.Tsql
