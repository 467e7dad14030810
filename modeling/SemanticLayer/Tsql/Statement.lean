import SemanticLayer.Tsql.Command
/-!
Reading statements. The readers of one level are built from those of the level inside, and a
statement may be fifty levels deep.
-/
namespace SemanticLayer.Tsql

open Sql (Token Lexeme Place)

namespace Reader

variable (inner : Inner)

/-! ## Statements -/

def statement : Reader Statement := do
  let keyword ← peekKeyword
  if ["SELECT", "WITH", "VALUES", "FROM"].contains keyword then pure (.query (← inner.query))
  else if ← atSign "(" then pure (.query (← inner.query))
  else if (← takeOneOf ["EXPLAIN", "DESC", "DESCRIBE"]).isSome then
    explanation inner
    pure .explanation
  else
    match ← change? inner with
    | some _ => pure .other
    | none =>
      match command? inner keyword with
      | some body =>
        skip next
        body
        pure .other
      | none => expected "an SQL statement"

/-- The statements up to the end, with semicolons between them; every step takes a statement.
Where one ends, `END` ends the whole text. -/
def statements : Nat → List Statement → Reader (List Statement)
  | 0, read => pure read
  | steps + 1, read => do
    let separated ← semicolons
    let free := separated || read.isEmpty
    match ← peek with
    | none => pure read
    | some l =>
      if free then
        let next ← statement inner
        statements steps (read ++ [next])
      else if keywordOf l.token = "END" then pure read
      else expected "end of statement"

end Reader

/-! ## Levels -/

/-- The readers with the given number of levels left to nest. -/
def Inner.ofDepth : Nat → Inner
  | 0 =>
    { mode := .plain
      expressionIn := fun _ _ => Reader.stop .tooDeep
      queryIn := fun _ => Reader.stop .tooDeep
      tableIn := fun _ => Reader.stop .tooDeep
      statementIn := fun _ => Reader.stop .tooDeep }
  | depth + 1 =>
    let below := ofDepth depth
    { mode := .plain
      expressionIn := fun mode => Reader.subexpression (below.within mode)
      queryIn := fun mode => Reader.query (below.within mode)
      tableIn := fun mode => Reader.tableFactor (below.within mode)
      statementIn := fun mode => Reader.statement (below.within mode) }

/-- How many levels deep a statement may be, itself among them. -/
def maxDepth : Nat := 50

/-! ## Texts -/

inductive TextFault where
  | lexical (fault : Sql.LexicalFault) (place : Place)
  | syntactic (fault : Fault)

def TextFault.reason : TextFault → String
  | lexical fault place => Sql.describeFault (fault, place)
  | syntactic fault => fault.reason

def parse (s : List Char) : Except TextFault (List Statement) :=
  match Sql.LexicalRules.mssql.lexemes s with
  | .error (fault, place) => .error (.lexical fault place)
  | .ok ts =>
    match Reader.statements (Inner.ofDepth (maxDepth - 1)) (ts.length + 1) [] ts with
    | .ok (read, _) => .ok read
    | .error fault => .error (.syntactic fault)

end SemanticLayer.Tsql
