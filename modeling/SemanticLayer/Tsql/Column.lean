import SemanticLayer.Tsql.Window
/-!
Reading the columns and constraints of tables that are defined.
-/
namespace SemanticLayer.Tsql

namespace Reader

variable (inner : Inner)

/-! ## Constraints -/

/-- When a constraint is checked and whether it is, each said once at most. -/
structure Characteristics where
  deferrable : Option String
  initially : Option String
  enforced : Option String

def moreCharacteristics : Nat → Characteristics → Reader Characteristics
  | 0, read => pure read
  | steps + 1, read => do
    let deferrable ← if read.deferrable.isNone then takePhrase ["NOT DEFERRABLE", "DEFERRABLE"]
      else pure none
    if deferrable.isSome then moreCharacteristics steps { read with deferrable := deferrable }
    else if ← (if read.initially.isNone then takeKeyword "INITIALLY" else pure false) then
      match ← takeOneOf ["DEFERRED", "IMMEDIATE"] with
      | some moment => moreCharacteristics steps { read with initially := some ("INITIALLY " ++ moment) }
      | none => expected "one of DEFERRED or IMMEDIATE"
    else
      let enforced ← if read.enforced.isNone then takePhrase ["ENFORCED", "NOT ENFORCED"]
        else pure none
      if enforced.isSome then moreCharacteristics steps { read with enforced := enforced }
      else pure read

def characteristics : Reader String := do
  let read ← moreCharacteristics 4 ⟨none, none, none⟩
  pure (spaced read.deferrable ++ spaced read.initially ++ spaced read.enforced)

/-- What becomes of a row when the one that it refers to changes. -/
def referentialAction : Reader String := do
  match ← takePhrase ["RESTRICT", "CASCADE", "SET NULL", "NO ACTION", "SET DEFAULT"] with
  | some action => pure action
  | none => expected "one of RESTRICT, CASCADE, SET NULL, NO ACTION or SET DEFAULT"

/-- How a reference matches and what follows from changes, each said once at most. -/
structure ReferenceRules where
  kind : Option String
  deletion : Option String
  update : Option String

def moreReferenceRules : Nat → ReferenceRules → Reader ReferenceRules
  | 0, read => pure read
  | steps + 1, read => do
    if ← (if read.kind.isNone then takeKeyword "MATCH" else pure false) then
      match ← takeOneOf ["FULL", "PARTIAL", "SIMPLE"] with
      | some kind => moreReferenceRules steps { read with kind := some ("MATCH " ++ kind) }
      | none => expected "one of FULL, PARTIAL or SIMPLE"
    else if ← (if read.deletion.isNone then takeKeywords ["ON", "DELETE"] else pure false) then
      let action ← referentialAction
      moreReferenceRules steps { read with deletion := some ("ON DELETE " ++ action) }
    else if ← (if read.update.isNone then takeKeywords ["ON", "UPDATE"] else pure false) then
      let action ← referentialAction
      moreReferenceRules steps { read with update := some ("ON UPDATE " ++ action) }
    else pure read

def reference : Reader String := do
  let table ← objectText
  let names ← columns?
  let rules ← moreReferenceRules 4 ⟨none, none, none⟩
  let more ← characteristics
  pure ("REFERENCES " ++ table ++ enclosed (commas (names.map Ident.text)) ++ spaced rules.kind ++
    spaced rules.deletion ++ spaced rules.update ++ more)

def indexKind? : Reader (Option Unit) :=
  behind? ["USING"] (skip ident)

def indexOptions : Reader Unit :=
  skip (all (do
    match ← indexKind? with
    | some _ => pure (some ())
    | none => behind? ["COMMENT"] (skip literalString)))

def indexColumns : Reader Unit :=
  skip (columnsOf (indexColumn inner))

/-- What stands behind `UNIQUE` or `PRIMARY KEY` in a table: a name, a kind, columns and options. -/
def keyConstraint : Reader Unit := do
  skip (attempt? ident)
  skip indexKind?
  indexColumns inner
  indexOptions
  skip characteristics

/-- Whether rows with nulls are told apart, or nothing. -/
def nullsDistinct : Reader Unit := do
  if ← takeKeyword "NULLS" then
    skip (takeKeyword "NOT")
    expectKeyword "DISTINCT"

def tableConstraint? : Reader (Option Unit) := do
  let named ← takeKeyword "CONSTRAINT"
  if named then skip ident
  match ← takeOneOf ["UNIQUE", "PRIMARY", "FOREIGN", "CHECK"] with
  | some "UNIQUE" =>
    if (← takeOneOf ["KEY", "INDEX"]).isSome then
      expected "\x60index_name\x60 or \x60(column_name [, ...])\x60"
    else
      nullsDistinct
      pure (some (← keyConstraint inner))
  | some "PRIMARY" =>
    expectKeyword "KEY"
    pure (some (← keyConstraint inner))
  | some "FOREIGN" =>
    expectKeyword "KEY"
    skip (attempt? ident)
    skip columns
    expectKeyword "REFERENCES"
    pure (some (← skip reference))
  | some _ =>
    skip (inParentheses (expression inner))
    pure (some (← skip (takePhrase ["ENFORCED", "NOT ENFORCED"])))
  | none => if named then expected "PRIMARY, UNIQUE, FOREIGN, or CHECK" else pure none

/-! ## Sequences -/

/-- A number that one of some phrases says, or nothing. -/
def sequenceNumber (phrases : List String) : Reader String := do
  match ← takePhrase phrases with
  | some phrase => pure (" " ++ phrase ++ " " ++ (← number))
  | none => pure ""

/-- The least or the greatest number of a sequence, or nothing. -/
def sequenceBound (keyword : String) : Reader String := do
  let bound ← sequenceNumber [keyword]
  if bound.isEmpty then pure (spaced (← takePhrase ["NO " ++ keyword])) else pure bound

/-- How a sequence counts. -/
def sequenceOptions : Reader String := do
  let step ← sequenceNumber ["INCREMENT BY", "INCREMENT"]
  let least ← sequenceBound "MINVALUE"
  let greatest ← sequenceBound "MAXVALUE"
  let start ← sequenceNumber ["START WITH", "START"]
  let cache ← sequenceNumber ["CACHE"]
  let cycle ← takePhrase ["NO CYCLE", "CYCLE"]
  pure (step ++ least ++ greatest ++ start ++ cache ++ spaced cycle)

/-! ## Columns -/

/-- What stands behind `GENERATED`, if it says how. -/
def generation? : Reader (Option String) := do
  match ← takePhrase ["ALWAYS AS IDENTITY", "BY DEFAULT AS IDENTITY", "ALWAYS AS"] with
  | none => pure none
  | some "ALWAYS AS" =>
    if ← atSign "(" then
      let e ← inParentheses (expressionText (inner.within .plain))
      let storage ← takeOneOf ["STORED", "VIRTUAL"]
      pure (some ("GENERATED ALWAYS AS (" ++ e ++ ")" ++ spaced storage))
    else pure none
  | some phrase =>
    let options ← if ← atSign "(" then inParentheses sequenceOptions else pure ""
    pure (some ("GENERATED " ++ phrase ++ (if options.isEmpty then "" else " (" ++ options ++ " )")))

/-- The first and the next number of a column that counts itself. -/
def identityNumbers : Reader String := do
  if ← takeSign "(" then
    let seed ← number
    expectSign ","
    let increment ← number
    expectSign ")"
    pure ("(" ++ seed ++ ", " ++ increment ++ ")")
  else pure ""

/-- The option of a column that comes next, if one does. Some keywords of other engines are taken
and forgotten on the way. -/
def columnOption? : Reader (Option String) := do
  let inner := inner.within .defining
  match ← takePhrase ["CHARACTER SET", "COLLATE", "NOT NULL", "COMMENT", "NULL", "DEFAULT",
      "PRIMARY KEY", "UNIQUE", "REFERENCES", "CHECK"] with
  | some "COMMENT" => pure (some ("COMMENT " ++ inQuotes '\'' (← commentText)))
  | some "DEFAULT" => pure (some ("DEFAULT " ++ (← expressionText inner)))
  | some "REFERENCES" => pure (some (← reference))
  | some "CHECK" =>
    pure (some ("CHECK (" ++ (← inParentheses (expressionText (inner.within .plain))) ++ ")"))
  | some phrase =>
    if ["NOT NULL", "NULL"].contains phrase then pure (some phrase)
    else if ["PRIMARY KEY", "UNIQUE"].contains phrase then
      pure (some (phrase ++ (← characteristics)))
    else pure (some (phrase ++ " " ++ (← objectText)))
  | none =>
    for keyword in ["AUTO_INCREMENT", "AUTOINCREMENT", "ASC", "DESC"] do
      skip (takeKeyword keyword)
    skip (takeKeywords ["ON", "UPDATE"])
    if ← takeKeyword "GENERATED" then generation? inner
    else
      skip (takeKeyword "AS")
      skip (takeKeyword "SRID")
      if ← takeKeyword "IDENTITY" then pure (some ("IDENTITY" ++ (← identityNumbers)))
      else takePhrase ["INVISIBLE"]

def namedColumnOption? : Reader (Option String) := do
  if ← takeKeyword "CONSTRAINT" then
    let name ← identText
    match ← columnOption? inner with
    | some option => pure (some ("CONSTRAINT " ++ name ++ " " ++ option))
    | none => expected "constraint details after CONSTRAINT <name>"
  else columnOption? inner

def columnDefinition (type : Reader String) : Reader String := do
  let name ← identText
  let t ← type
  let options ← all (namedColumnOption? inner)
  pure (String.intercalate " " ([name, t] ++ options))

end Reader

end SemanticLayer.Tsql
