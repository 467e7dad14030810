import SemanticLayer.Tsql.Reader
/-!
What readers of one level of nesting know about the level inside. There are only so many levels, so
that a reader never has to refer to itself.
-/
namespace SemanticLayer.Tsql

/-- A table as it is written, with its alias. -/
structure Table where
  text : String
  /-- Tables with joins in parentheses. -/
  nested : Bool
  deriving DecidableEq, Repr

/-- What surrounds an expression and changes the meaning of some words in it. -/
inductive Mode where
  | plain
  /-- Behind `CONNECT BY`, where `PRIOR` is an operator. -/
  | connecting
  /-- In the option of a column, where `COLLATE` and `NOT NULL` are options of their own. -/
  | defining
  deriving DecidableEq, Repr

/-- The readers of the level inside the present one. -/
structure Inner where
  mode : Mode
  expressionIn : Mode → Nat → Reader Expression
  queryIn : Mode → Reader Query
  tableIn : Mode → Reader Table
  statementIn : Mode → Reader Statement

namespace Inner

/-- The same level in other surroundings. -/
def within (inner : Inner) (mode : Mode) : Inner :=
  { inner with mode := mode }

/-- An expression whose operators bind tighter than the given strength. -/
def expression (inner : Inner) (strength : Nat) : Reader Expression :=
  inner.expressionIn inner.mode strength

def query (inner : Inner) : Reader Query :=
  inner.queryIn inner.mode

/-- A table that a join can stand beside. -/
def table (inner : Inner) : Reader Table :=
  inner.tableIn inner.mode

def statement (inner : Inner) : Reader Statement :=
  inner.statementIn inner.mode

end Inner

/-! ## How tight operators bind -/

namespace Strength

def none : Nat := 0
def disjunction : Nat := 5
def conjunction : Nat := 10
def negation : Nat := 15
def jsonOperator : Nat := 16
def isTest : Nat := 17
def pattern : Nat := 19
def comparison : Nat := 20
def range : Nat := 20
def bitOr : Nat := 21
def bitXor : Nat := 22
def bitAnd : Nat := 23
def exclusive : Nat := 24
def sum : Nat := 30
def product : Nat := 40
def timeZone : Nat := 41
def typeCast : Nat := 50
def access : Nat := 100

end Strength

namespace Reader

variable (inner : Inner)

def expression : Reader Expression :=
  inner.expression Strength.none

def expressionText : Reader String := do
  pure (← expression inner).text

def expressionList : Reader String := do
  pure (commas (← commaList (expressionText inner)))

def expressionsInParentheses : Reader String :=
  inParentheses (expressionList inner)

/-- Whether a query comes next that is told by its first word. -/
def atQuery : Reader Bool := do
  pure (["SELECT", "WITH"].contains (← peekKeyword))

end Reader

end SemanticLayer.Tsql
