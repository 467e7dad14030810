import SemanticLayer.Tsql.TableDefinition
/-!
Reading definitions of functions, procedures and triggers.
-/
namespace SemanticLayer.Tsql

namespace Reader

variable (inner : Inner)

/-! ## Parameters -/

/-- A value behind `=`, or nothing. -/
def defaultValue : Reader Unit := do
  if ← takeSign "=" then skip (expression inner)

/-- A parameter with its type and the value it has where none is given. -/
def parameter : Reader Unit := do
  skip ident
  skip (dataType inner)
  defaultValue inner

def procedureParameter : Reader Unit := do
  match ← peek with
  | some ⟨.word _ _, _⟩ =>
    skip (takeOneOf ["IN", "OUT", "INOUT"])
    parameter inner
  | _ => pure ()

/-- The rest of the parameters of a procedure; every step takes a comma, and one may stand behind
the last. -/
def moreParameters : Nat → Reader Unit
  | 0 => pure ()
  | steps + 1 => do
    procedureParameter inner
    let comma ← takeSign ","
    if ← takeSign ")" then pure ()
    else if comma then moreParameters steps
    else expected "',' or ')' after parameter definition"

def procedureParameters : Reader Unit := do
  if ← takeSign "(" then
    unless ← takeSign ")" do
      let ts ← get
      moreParameters inner (ts.length + 1)

/-- The type of an argument by which a function is told from others, which may have a name. -/
def signatureArgument : Reader Unit := do
  skip (takeOneOf ["IN", "OUT", "INOUT"])
  let before ← get
  skip (dataType inner)
  let after ← get
  let named ← if ← atKeyword "DEFAULT" then pure false
    else (do pure (← attempt? (dataType inner)).isSome)
  let last := lastTaken before after
  let isWord := (last.map fun l => l.token.isWord).getD false
  if named && !isWord then stop (.expected "a name or type" last)
  if ← takeKeyword "DEFAULT" then skip (expression inner) else defaultValue inner

def signature : Reader Unit := do
  skip objectName
  if ← atSign "(" then skip (inParentheses (commaListUntil ")" (signatureArgument inner)))

/-! ## Functions and procedures -/

/-- A table that a function fills under a name of its own. -/
def returnedTable : Reader Unit := do
  skip ident
  if ← atKeyword "TABLE" then
    let t ← dataType inner
    unless t.kind = .columns do
      refuse "Expected table column definitions after TABLE keyword"
  else expected "TABLE"

def functionBody : Reader Unit := do
  if ← takeKeyword "BEGIN" then
    statementList inner ["END"]
    expectKeyword "END"
  else if ← takeKeyword "RETURN" then
    if ← atSign "(" then skip (expression inner)
    else if ← atKeyword "SELECT" then skip (selection inner)
    else refuse "Expected a subquery (or bare SELECT statement) after RETURN"
  else refuse "Unparsable function body"

def functionDefinition : Reader Unit := do
  skip objectName
  skip (inParentheses (commaListUntil ")" (parameter inner)))
  expectKeyword "RETURNS"
  if (← attempt? (returnedTable inner)).isNone then skip (dataType inner)
  skip (takeKeyword "AS")
  functionBody inner

def procedureDefinition : Reader Unit := do
  skip objectName
  procedureParameters inner
  namedBy "LANGUAGE"
  expectKeyword "AS"
  statementBody inner ["END"]

/-! ## Triggers -/

/-- When a trigger comes into effect. -/
def triggerPeriod : Reader Unit := do
  if (← expectOneOf ["FOR", "BEFORE", "AFTER", "INSTEAD"]) = "INSTEAD" then expectKeyword "OF"

/-- What a trigger waits for. -/
def triggerEvent : Reader Unit := do
  if (← expectOneOf ["INSERT", "UPDATE", "DELETE", "TRUNCATE"]) = "UPDATE" then
    skip (behind? ["OF"] (commaList ident))

/-- What stands behind `CREATE TRIGGER`: the table, what the trigger waits for and what it does. -/
def triggerDefinition : Reader Unit := do
  skip objectName
  expectKeyword "ON"
  skip objectName
  triggerPeriod
  skip (commaList triggerEvent)
  expectKeyword "AS"
  statementBody inner ["END"]

/-- The name under which a trigger sees a table before or after a change, if one comes next. -/
def transition? : Reader (Option Unit) := do
  match ← takePhrase ["OLD TABLE", "NEW TABLE"] with
  | some _ =>
    skip (takeKeyword "AS")
    pure (some (← skip objectName))
  | none => pure none

/-- How often a trigger acts. -/
def triggerScope : Reader Unit := do
  skip (takeKeyword "EACH")
  skip (expectOneOf ["ROW", "STATEMENT"])

/-- What stands behind `TRIGGER` where other words than `OR ALTER` stand in front: what the trigger
waits for, the table and what it does. -/
def eventTriggerDefinition : Reader Unit := do
  skip objectName
  skip (attempt? triggerPeriod)
  triggerEvent
  skip (all (behind? ["OR"] triggerEvent))
  expectKeyword "ON"
  skip objectName
  if ← takeKeyword "FROM" then skip (attempt? objectName)
  skip characteristics
  skip (behind? ["REFERENCING"] (all transition?))
  skip (behind? ["FOR"] triggerScope)
  skip (behind? ["WHEN"] (expression inner))
  if ← takeKeyword "EXECUTE" then
    skip (expectOneOf ["FUNCTION", "PROCEDURE"])
    signature inner
  else statementBody inner ["END"]

end Reader

end SemanticLayer.Tsql
