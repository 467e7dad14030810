import SemanticLayer.Tsql.Definition
/-!
Reading changes and removals of what a database holds.
-/
namespace SemanticLayer.Tsql

namespace Reader

variable (inner : Inner)

/-! ## Tables -/

def tableAddition : Reader Unit := do
  if (← tableConstraint? inner).isSome then skip (takeKeywords ["NOT", "VALID"])
  else
    ifNotExists
    let partitions ← all (behind? ["PARTITION"] (expressionsInParentheses inner))
    if partitions.isEmpty then
      skip (takeKeyword "COLUMN")
      skip (columnDefinition inner (typeText inner))

/-- What a table or a column of it is called from now on, behind `RENAME`. -/
def tableRenaming : Reader Unit := do
  if (← takeOneOf ["TO", "AS"]).isSome then skip objectName
  else
    skip (takeKeyword "COLUMN")
    skip ident
    expectKeyword "TO"
    skip ident

def tableReduction : Reader Unit := do
  match ← takePhrase ["IF EXISTS PARTITION", "PARTITION", "CONSTRAINT", "PRIMARY KEY", "FOREIGN KEY",
      "INDEX", "CLUSTERING KEY"] with
  | some "CONSTRAINT" =>
    ifExists
    skip ident
    cascade
  | some "PRIMARY KEY" => cascade
  | some "FOREIGN KEY" =>
    skip ident
    cascade
  | some "INDEX" => skip ident
  | some "CLUSTERING KEY" => pure ()
  | some _ => skip (expressionsInParentheses inner)
  | none =>
    skip (takeKeyword "COLUMN")
    ifExists
    skip ident
    cascade

/-- Another type and other options of a column. -/
def columnRedefinition : Reader Unit := do
  skip ident
  skip (dataType inner)
  skip (all (columnOption? inner))

def columnAlteration : Reader Unit := do
  skip (takeKeyword "COLUMN")
  skip ident
  match ← takePhrase ["SET NOT NULL", "DROP NOT NULL", "SET DEFAULT", "DROP DEFAULT",
      "SET DATA TYPE", "TYPE", "ADD GENERATED"] with
  | some "SET DEFAULT" => skip (expression inner)
  | some "SET DATA TYPE" => skip (dataType inner)
  | some "TYPE" => skip (dataType inner)
  | some "ADD GENERATED" =>
    skip (takePhrase ["ALWAYS", "BY DEFAULT"])
    expectKeywords ["AS", "IDENTITY"]
    if ← atSign "(" then skip (inParentheses sequenceOptions)
  | some _ => pure ()
  | none => expected "SET/DROP NOT NULL, SET DEFAULT, or SET DATA TYPE after ALTER COLUMN"

/-- What of a table is put out of effect, behind `DISABLE`. -/
def disabling : Reader Unit := do
  match ← takePhrase ["ROW LEVEL SECURITY", "RULE", "TRIGGER"] with
  | some "ROW LEVEL SECURITY" => pure ()
  | some _ => skip ident
  | none => expected "ROW LEVEL SECURITY, RULE, or TRIGGER after DISABLE"

def enabling : Reader Unit := do
  match ← takePhrase ["ALWAYS RULE", "ALWAYS TRIGGER", "ROW LEVEL SECURITY", "REPLICA RULE",
      "REPLICA TRIGGER", "RULE", "TRIGGER"] with
  | some "ROW LEVEL SECURITY" => pure ()
  | some _ => skip ident
  | none => expected "ALWAYS, REPLICA, ROW LEVEL SECURITY, RULE, or TRIGGER after ENABLE"

/-- By what copies of a table tell its rows, behind `REPLICA IDENTITY`. -/
def replicaIdentity : Reader Unit := do
  match ← takePhrase ["NONE", "FULL", "DEFAULT", "USING INDEX"] with
  | some "USING INDEX" => skip ident
  | some _ => pure ()
  | none => expected "NONE, FULL, DEFAULT, or USING INDEX index_name after REPLICA IDENTITY"

def partitionRenaming : Reader Unit := do
  skip (expressionsInParentheses inner)
  expectKeywords ["RENAME", "TO", "PARTITION"]
  skip (expressionsInParentheses inner)

def tableSetting : Reader Unit := do
  unless ← optionsBehind inner ["SET", "TBLPROPERTIES"] do
    unless ← optionsBehind inner ["SET"] do
      expected ("ADD, RENAME, PARTITION, SWAP, DROP, REPLICA IDENTITY, SET, or SET TBLPROPERTIES " ++
        "after ALTER TABLE")

def tableChange : Reader Unit := do
  if (← indexChange?).isSome then pure ()
  else
    match ← takePhrase ["ADD", "RENAME", "DISABLE", "ENABLE", "REPLICA IDENTITY", "DROP", "PARTITION",
        "CHANGE", "MODIFY", "ALTER", "SWAP", "CLUSTER BY", "SUSPEND RECLUSTER", "RESUME RECLUSTER",
        "AUTO_INCREMENT", "VALIDATE CONSTRAINT"] with
    | some "ADD" => tableAddition inner
    | some "RENAME" => tableRenaming
    | some "DISABLE" => disabling
    | some "ENABLE" => enabling
    | some "REPLICA IDENTITY" => replicaIdentity
    | some "DROP" => tableReduction inner
    | some "PARTITION" => partitionRenaming inner
    | some "CHANGE" =>
      skip (takeKeyword "COLUMN")
      skip ident
      columnRedefinition inner
    | some "MODIFY" =>
      skip (takeKeyword "COLUMN")
      columnRedefinition inner
    | some "ALTER" => columnAlteration inner
    | some "SWAP" =>
      expectKeyword "WITH"
      skip objectName
    | some "CLUSTER BY" => skip (expressionsInParentheses inner)
    | some "AUTO_INCREMENT" =>
      skip (takeSign "=")
      skip numericLiteral
    | some "VALIDATE CONSTRAINT" => skip ident
    | some _ => pure ()
    | none => tableSetting inner

def tableAlteration : Reader Unit := do
  ifExists
  skip (takeKeyword "ONLY")
  skip objectName
  onCluster
  skip (commaList (tableChange inner))
  if (← takePhrase ["LOCATION", "SET LOCATION"]).isSome then skip ident

/-! ## Views, schemas and types -/

def viewAlteration : Reader Unit := do
  skip objectName
  skip columns?
  skip (optionsBehind inner ["WITH"])
  expectKeyword "AS"
  skip inner.query

def indexAlteration : Reader Unit := do
  skip objectName
  if ← takeKeyword "RENAME" then
    if ← takeKeyword "TO" then skip objectName else expected "TO after RENAME"
  else expected "RENAME after ALTER INDEX"

def schemaAlteration : Reader Unit := do
  ifExists
  skip objectName
  match ← takePhrase ["SET OPTIONS", "SET DEFAULT COLLATE", "ADD REPLICA", "DROP REPLICA",
      "RENAME TO", "OWNER TO"] with
  | some "SET OPTIONS" => skip (inParentheses (commaListUntil ")" (objectOption inner)))
  | some "SET DEFAULT COLLATE" => skip (expression inner)
  | some "ADD REPLICA" =>
    skip ident
    skip (optionsBehind inner ["OPTIONS"])
  | some "RENAME TO" => skip objectName
  | some _ => skip ident
  | none => expected "ALTER SCHEMA operation"

def typeAlteration : Reader Unit := do
  skip objectName
  match ← takePhrase ["RENAME TO", "ADD VALUE", "RENAME VALUE"] with
  | some "RENAME TO" => skip ident
  | some "ADD VALUE" =>
    ifNotExists
    skip ident
    if (← takeOneOf ["BEFORE", "AFTER"]).isSome then skip ident
  | some _ =>
    skip ident
    expectKeyword "TO"
    skip ident
  | none => expected "\x7bRENAME TO | \x7b RENAME | ADD \x7d VALUE\x7d"

/-! ## Roles, users and connections -/

def roleAlteration : Reader Unit := do
  skip ident
  match ← takePhrase ["ADD MEMBER", "DROP MEMBER", "WITH NAME"] with
  | some "WITH NAME" => if ← takeSign "=" then skip ident else expected "= after WITH NAME "
  | some _ => skip ident
  | none => expected "'ADD' or 'DROP' or 'WITH NAME'"

def policyAlteration : Reader Unit := do
  skip ident
  expectKeyword "ON"
  skip objectName
  if ← takeKeyword "RENAME" then
    expectKeyword "TO"
    skip ident
  else
    policyUsers
    policyRows inner

def connectorAlteration : Reader Unit := do
  skip ident
  expectKeyword "SET"
  skip (optionsBehind inner ["DCPROPERTIES"])
  skip (behind? ["URL"] literalString)
  if (← takePhrase ["OWNER USER", "OWNER ROLE"]).isSome then skip ident

def userAlteration : Reader Unit := do
  ifExists
  skip ident
  skip (behind? ["RENAME", "TO"] ident)
  skip (takeKeywords ["RESET", "PASSWORD"])
  skip (takeKeywords ["ABORT", "ALL", "QUERIES"])
  skip (takeKeywords ["ENROLL", "MFA"])
  if ← takeKeyword "SET" then
    let ts ← get
    userOptions false [] (ts.length + 1)
  skip (behind? ["UNSET", "TAG"] (commaList objectName))
  skip (behind? ["UNSET"] (commaList ident))

/-! ## Alterations and removals -/

def alteration : Reader Unit := do
  match ← expectOneOf ["VIEW", "TYPE", "TABLE", "INDEX", "ROLE", "POLICY", "CONNECTOR", "ICEBERG",
      "SCHEMA", "USER", "OPERATOR"] with
  | "VIEW" => viewAlteration inner
  | "TYPE" => typeAlteration
  | "TABLE" => tableAlteration inner
  | "INDEX" => indexAlteration
  | "ROLE" => roleAlteration
  | "POLICY" => policyAlteration inner
  | "CONNECTOR" => connectorAlteration inner
  | "ICEBERG" =>
    expectKeyword "TABLE"
    tableAlteration inner
  | "SCHEMA" => schemaAlteration inner
  | "USER" => userAlteration
  | _ => expected "OWNER TO, SET SCHEMA, or SET after ALTER OPERATOR"

/-- What becomes of what depends on removed objects. Roles leave no choice. -/
def removalRules (role : Bool) : Reader Unit := do
  let here ← place
  let cascades ← takeKeyword "CASCADE"
  let restricts ← takeKeyword "RESTRICT"
  let purges ← takeKeyword "PURGE"
  if cascades && restricts then
    stop (.spoken "Cannot specify both CASCADE and RESTRICT in DROP" here)
  if role && (cascades || restricts || purges) then
    stop (.spoken "Cannot specify CASCADE, RESTRICT, or PURGE in DROP ROLE" here)

def removedObjects (role : Bool) : Reader Unit := do
  ifExists
  skip (commaList objectName)
  removalRules role
  skip (behind? ["ON"] objectName)

/-- The reader of what stands behind the kind of an object that is removed in a way of its own. -/
def removal? (kind : String) : Option (Reader Unit) :=
  match kind with
  | "FUNCTION" => some (do
    skip (commaList (signature inner))
    cascade)
  | "PROCEDURE" => some (do
    skip (commaList (signature inner))
    cascade)
  | "POLICY" => some (do
    skip ident
    expectKeyword "ON"
    skip objectName
    cascade)
  | "CONNECTOR" => some (skip ident)
  | "DOMAIN" => some (do
    skip objectName
    cascade)
  | "SECRET" => some (do
    skip ident
    namedBy "FROM")
  | "TRIGGER" => some (do
    skip objectName
    skip (behind? ["ON"] objectName)
    cascade)
  | "EXTENSION" => some (do
    skip (commaList ident)
    cascade)
  | _ => none

def removal : Reader Unit := do
  match ← takePhrase ["TABLE", "VIEW", "MATERIALIZED VIEW", "INDEX", "ROLE", "SCHEMA", "DATABASE",
      "SEQUENCE", "STAGE", "TYPE", "USER", "STREAM"] with
  | some kind => removedObjects (kind = "ROLE")
  | none =>
    match removal? inner (← peekKeyword) with
    | some body =>
      skip next
      ifExists
      body
    | none =>
      expected ("CONNECTOR, DATABASE, EXTENSION, FUNCTION, INDEX, OPERATOR, POLICY, PROCEDURE, " ++
        "ROLE, SCHEMA, SECRET, SEQUENCE, STAGE, TABLE, TRIGGER, TYPE, VIEW, MATERIALIZED VIEW or " ++
        "USER after DROP")

end Reader

end SemanticLayer.Tsql
