import SemanticLayer.Tsql.Routine
/-!
Reading definitions of what a database holds beside tables and routines.
-/
namespace SemanticLayer.Tsql

namespace Reader

variable (inner : Inner)

/-! ## Views and indexes -/

/-- What may stand before `VIEW`: how it is worked out and with whose rights. -/
def viewParameters : Reader Unit := do
  if ← takeKeyword "ALGORITHM" then
    expectSign "="
    skip (expectOneOf ["UNDEFINED", "MERGE", "TEMPTABLE"])
  if ← takeKeyword "DEFINER" then
    expectSign "="
    skip objectName
  if ← takeKeywords ["SQL", "SECURITY"] then skip (expectOneOf ["DEFINER", "INVOKER"])

def viewColumn : Reader Unit := do
  skip ident
  skip (all (columnOption? inner))

def viewColumns : Reader Unit := do
  if ← atSign "(" then skip (inParentheses (commaListUntil ")" (viewColumn inner)))

def viewDefinition : Reader Unit := do
  skip (takeKeyword "SECURE")
  skip (takeKeyword "MATERIALIZED")
  expectKeyword "VIEW"
  let first ← takeKeywords ["IF", "NOT", "EXISTS"]
  skip objectName
  unless first do ifNotExists
  viewColumns inner
  skip (optionsBehind inner ["WITH"])
  if ← takeKeyword "CLUSTER" then
    expectKeyword "BY"
    skip columns?
  expectKeyword "AS"
  skip inner.query

def indexChange? : Reader (Option Unit) := do
  match ← takeOneOf ["ALGORITHM", "LOCK"] with
  | some "ALGORITHM" =>
    skip (takeSign "=")
    if (← takeOneOf ["DEFAULT", "INSTANT", "INPLACE", "COPY"]).isSome then pure (some ())
    else expected "DEFAULT, INSTANT, INPLACE, or COPY after ALGORITHM [=]"
  | some _ =>
    skip (takeSign "=")
    if (← takeOneOf ["DEFAULT", "EXCLUSIVE", "NONE", "SHARED"]).isSome then pure (some ())
    else expected "DEFAULT, EXCLUSIVE, NONE or SHARED after LOCK [=]"
  | none => pure none

def indexDefinition : Reader Unit := do
  skip (takeKeyword "CONCURRENTLY")
  let named ← takeKeywords ["IF", "NOT", "EXISTS"]
  let unnamed ← if named then pure false else takeKeyword "ON"
  unless unnamed do
    skip objectName
    skip indexKind?
    expectKeyword "ON"
  skip objectName
  skip indexKind?
  indexColumns inner
  skip (behind? ["INCLUDE"] (inParentheses (commaList ident)))
  nullsDistinct
  skip (behind? ["WHERE"] (expression inner))
  indexOptions
  skip (all indexChange?)

/-! ## Policies and roles -/

def policyUsers : Reader Unit :=
  skip (behind? ["TO"] (commaList ident))

/-- The rows that a policy is about, or nothing. -/
def policyRows : Reader Unit := do
  skip (behind? ["USING"] (inParentheses (expression inner)))
  skip (behind? ["WITH", "CHECK"] (inParentheses (expression inner)))

def policyDefinition : Reader Unit := do
  skip ident
  expectKeyword "ON"
  skip objectName
  if ← takeKeyword "AS" then skip (expectOneOf ["PERMISSIVE", "RESTRICTIVE"])
  if ← takeKeyword "FOR" then skip (expectOneOf ["ALL", "SELECT", "INSERT", "UPDATE", "DELETE"])
  policyUsers
  policyRows inner

def roleDefinition : Reader Unit := do
  ifNotExists
  skip (commaList objectName)
  skip (takeKeyword "WITH")
  if ← takeKeyword "AUTHORIZATION" then
    skip objectName
    let again ← place
    if ← takeKeyword "AUTHORIZATION" then stop (.spoken "Found multiple AUTHORIZATION" again)

def userOptionValue (nested : Reader Unit) : Reader Unit := do
  match ← peek with
  | some ⟨.text .plain _, _⟩ => skip next
  | some ⟨.word _ _, _⟩ => skip next
  | some ⟨.number _ _, _⟩ => skip next
  | some ⟨.sign "(", _⟩ =>
    if (← attempt? (inParentheses (commaListUntil ")" literal))).isNone then nested
  | _ => expected "expected option value"

/-- The options of a user up to one of some keywords or, in parentheses, up to the closing one.
Every step takes a token. -/
def userOptions (parenthesised : Bool) (terminals : List String) : Nat → Reader Unit
  | 0 => pure ()
  | steps + 1 => do
    match ← peek with
    | none => pure ()
    | some ⟨.sign ",", _⟩ =>
      skip next
      userOptions parenthesised terminals steps
    | some ⟨.sign ";", _⟩ => skip next
    | some ⟨.sign ")", _⟩ =>
      skip next
      unless parenthesised do expected " another option or EOF"
    | some ⟨.word text quote, _⟩ =>
      if terminals.contains (keywordOf (.word text quote)) then pure ()
      else
        skip next
        expectSign "="
        userOptionValue (do
          expectSign "("
          userOptions true [] steps)
        userOptions parenthesised terminals steps
    | _ =>
      skip next
      expected "another option, EOF, SemiColon, Comma or ')'"

def userDefinition : Reader Unit := do
  ifNotExists
  skip ident
  let ts ← get
  userOptions false ["WITH", "TAG"] (ts.length + 1)
  skip (takeKeyword "WITH")
  if ← takeKeyword "TAG" then
    expectSign "("
    userOptions true [] ts.length

/-! ## Schemas, sequences and types -/

def schemaDefinition : Reader Unit := do
  ifNotExists
  unless ← atKeyword "AUTHORIZATION" do skip objectName
  namedBy "AUTHORIZATION"
  skip (behind? ["DEFAULT", "COLLATE"] (expression inner))
  skip (optionsBehind inner ["WITH"])
  skip (optionsBehind inner ["OPTIONS"])
  skip (behind? ["CLONE"] objectName)

def databasePlace? : Reader (Option Unit) := do
  if (← takeOneOf ["LOCATION", "MANAGEDLOCATION"]).isSome then pure (some (← skip literalString))
  else pure none

def databaseDefinition : Reader Unit := do
  ifNotExists
  skip objectName
  skip (all databasePlace?)
  skip (behind? ["CLONE"] objectName)

def sequenceDefinition : Reader Unit := do
  ifNotExists
  skip objectName
  skip (behind? ["AS"] (dataType inner))
  skip sequenceOptions
  if ← takeKeywords ["OWNED", "BY"] then
    unless ← takeKeyword "NONE" do skip objectName

def typeAttribute : Reader Unit := do
  skip ident
  skip (dataType inner)
  skip (behind? ["COLLATE"] objectName)

def typeDefinition : Reader Unit := do
  skip objectName
  if ← takeKeyword "AS" then
    if ← takeKeyword "ENUM" then skip (inParentheses (commaListUntil ")" ident))
    else if ← atSign "(" then skip (inParentheses (commaListUntil ")" (typeAttribute inner)))
    else expected "ENUM, RANGE, or '(' after AS"

def domainDefinition : Reader Unit := do
  skip objectName
  expectKeyword "AS"
  skip (dataType inner)
  namedBy "COLLATE"
  skip (behind? ["DEFAULT"] (expression inner))
  skip (all (tableConstraint? inner))

/-! ## Connections to other systems -/

def extensionDefinition : Reader Unit := do
  ifNotExists
  skip ident
  if ← takeKeyword "WITH" then
    namedBy "SCHEMA"
    namedBy "VERSION"
    skip (takeKeyword "CASCADE")

def connectorDefinition : Reader Unit := do
  ifNotExists
  skip ident
  skip (behind? ["TYPE"] literalString)
  skip (behind? ["URL"] literalString)
  if ← takeKeyword "COMMENT" then
    skip (takeSign "=")
    skip commentText
  skip (optionsBehind inner ["WITH", "DCPROPERTIES"])

/-- Two names: those of an option and of its value. -/
def namePair : Reader Unit := do
  skip ident
  skip ident

def serverDefinition : Reader Unit := do
  ifNotExists
  skip objectName
  namedBy "TYPE"
  namedBy "VERSION"
  expectKeywords ["FOREIGN", "DATA", "WRAPPER"]
  skip objectName
  skip (behind? ["OPTIONS"] (inParentheses (commaList namePair)))

def secretDefinition : Reader Unit := do
  ifNotExists
  unless ← atSign "(" do
    unless ← atKeyword "IN" do skip (attempt? ident)
    if ← takeKeyword "IN" then skip (attempt? ident)
  inParentheses (do
    expectKeyword "TYPE"
    skip ident
    if ← takeSign "," then skip (commaList namePair))

def virtualTable : Reader Unit := do
  expectKeyword "TABLE"
  ifNotExists
  skip objectName
  expectKeyword "USING"
  skip ident
  skip columns?

/-! ## Definitions -/

/-- The reader of what stands behind the kind of an object that is defined. Some kinds cannot
replace an object of their name. -/
def definition? (replacing : Bool) (kind : String) : Option (Reader Unit) :=
  match kind with
  | "TABLE" => some (tableDefinition inner)
  | "POLICY" => some (policyDefinition inner)
  | "EXTERNAL" => some (externalTable inner)
  | "FUNCTION" => some (functionDefinition inner)
  | "DOMAIN" => some (domainDefinition inner)
  | "TRIGGER" => some (eventTriggerDefinition inner)
  | "SECRET" => some secretDefinition
  | "USER" => some userDefinition
  | _ => if replacing then none else lasting? kind
where
  lasting? : String → Option (Reader Unit)
    | "EXTENSION" => some extensionDefinition
    | "INDEX" => some (indexDefinition inner)
    | "VIRTUAL" => some virtualTable
    | "SCHEMA" => some (schemaDefinition inner)
    | "DATABASE" => some databaseDefinition
    | "ROLE" => some roleDefinition
    | "SEQUENCE" => some (sequenceDefinition inner)
    | "TYPE" => some (typeDefinition inner)
    | "PROCEDURE" => some (procedureDefinition inner)
    | "CONNECTOR" => some (connectorDefinition inner)
    | "SERVER" => some serverDefinition
    | _ => none

def atView : Reader Bool := do
  if ["MATERIALIZED", "VIEW"].contains (← peekKeyword) then pure true
  else if ← atKeywords ["SECURE", "MATERIALIZED", "VIEW"] then pure true
  else atKeywords ["SECURE", "VIEW"]

/-- What is defined, behind the words that say how. -/
def definedObject (replacing : Bool) : Reader Unit := do
  viewParameters
  if ← atView then viewDefinition inner
  else if ← takeKeywords ["CONSTRAINT", "TRIGGER"] then eventTriggerDefinition inner
  else
    let unique ← if replacing then pure false else takeKeywords ["UNIQUE", "INDEX"]
    if unique then indexDefinition inner
    else
      match definition? inner replacing (← peekKeyword) with
      | some body =>
        skip next
        body
      | none =>
        if replacing then
          expected "[EXTERNAL] TABLE or [MATERIALIZED] VIEW or FUNCTION after CREATE OR REPLACE"
        else expected "an object type after CREATE"

def creation : Reader Unit := do
  if (← takePhrase ["TRIGGER", "OR ALTER TRIGGER"]).isSome then triggerDefinition inner
  else
    let replacing ← takeKeywords ["OR", "REPLACE"]
    skip (takeKeywords ["OR", "ALTER"])
    skip (takeKeyword "LOCAL")
    skip (takeKeyword "GLOBAL")
    skip (takeKeyword "TRANSIENT")
    skip (takeOneOf ["TEMP", "TEMPORARY"])
    definedObject inner replacing

end Reader

end SemanticLayer.Tsql
