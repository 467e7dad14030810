import SemanticLayer.Tsql.Privilege
/-!
Reading statements that are made of other statements: conditions, loops and bodies of procedures.
-/
namespace SemanticLayer.Tsql

namespace Reader

variable (inner : Inner)

/-! ## Lists of statements -/

/-- Semicolons, as many as there are, and whether there is one. -/
def semicolons : Reader Bool := do
  let taken ← all (do if ← takeSign ";" then pure (some ()) else pure none)
  pure !taken.isEmpty

/-- Whether a list of statements ends, because one of some keywords comes next or nothing does. -/
def atEndOf (terminals : List String) : Reader Bool := do
  match ← peek with
  | some l => pure (terminals.contains (keywordOf l.token))
  | none => pure true

def statementList (terminals : List String) : Reader Unit :=
  skip (all (do
    if ← atEndOf terminals then pure none
    else
      skip inner.statement
      expectSign ";"
      pure (some ())))

/-- Statements up to `END`, which semicolons may stand behind. -/
def looseStatements : Reader Unit :=
  skip (all (do
    if ← atEndOf ["END"] then pure none
    else
      skip inner.statement
      skip semicolons
      pure (some ())))

/-- Statements up to one of some keywords, or between `BEGIN` and `END`. -/
def statementBody (terminals : List String) : Reader Unit := do
  if ← takeKeyword "BEGIN" then
    statementList inner terminals
    expectKeyword "END"
  else statementList inner terminals

/-! ## Conditions and loops -/

/-- What a condition decides about: a statement, or statements between `BEGIN` and `END`. -/
def branchBody : Reader Unit := do
  if ← takeKeyword "BEGIN" then
    looseStatements inner
    expectKeyword "END"
  else skip inner.statement

/-- What stands behind `IF`. A semicolon in front of `ELSE` does not end the statement; without
`ELSE` one semicolon stays. -/
def conditional : Reader Unit := do
  skip (expression inner)
  branchBody inner
  let before ← get
  let separated ← semicolons
  let after ← get
  if ← takeKeyword "ELSE" then branchBody inner
  else if separated then set ((lastTaken before after).toList ++ after)

def loop : Reader Unit := do
  skip (expression inner)
  statementBody inner ["END"]

def caseBranch : Reader Unit := do
  skip (expression inner)
  expectKeyword "THEN"
  statementBody inner ["WHEN", "ELSE", "END"]

/-- What stands behind a `CASE` that decides about statements. -/
def caseStatement : Reader Unit := do
  unless ← atKeyword "WHEN" do skip (expression inner)
  expectKeyword "WHEN"
  caseBranch inner
  skip (all (behind? ["WHEN"] (caseBranch inner)))
  skip (behind? ["ELSE"] (statementBody inner ["END"]))
  expectKeyword "END"
  skip (takeKeyword "CASE")

end Reader

end SemanticLayer.Tsql
