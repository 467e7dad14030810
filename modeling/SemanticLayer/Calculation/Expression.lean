import SemanticLayer.Decimal.Binary
import SemanticLayer.Decimal.Notation
/-!
Arithmetic expressions over the columns of one row: their trees, the variables in them and their
values.
-/
namespace SemanticLayer.Calculation

inductive Operator where
  | add
  | subtract
  | multiply
  | divide
  | remainder
  deriving DecidableEq, Repr

def Operator.sign : Operator → Char
  | add => '+'
  | subtract => '-'
  | multiply => '*'
  | divide => '/'
  | remainder => '%'

/-- The value of an operation. A division by zero gives a number that is not finite. -/
def Operator.apply : Operator → Float → Float → Float
  | add, a, b => a + b
  | subtract, a, b => a - b
  | multiply, a, b => a * b
  | divide, a, b => a / b
  | remainder, a, b => Decimal.remainder a b

inductive Expression where
  | number (value : Float)
  | variable (name : String)
  | negate (inner : Expression)
  | binary (operator : Operator) (left right : Expression)
  deriving Inhabited

namespace Expression

/-- The value under a valuation of the variables; none where a variable has no value. -/
def eval (lookup : String → Option Float) : Expression → Option Float
  | number value => some value
  | «variable» name => lookup name
  | negate inner => (eval lookup inner).map fun v => -v
  | binary operator left right => do
    let l ← eval lookup left
    let r ← eval lookup right
    pure (operator.apply l r)

/-- All occurrences of variables from left to right. -/
def occurrences : Expression → List String
  | number _ => []
  | «variable» name => [name]
  | negate inner => inner.occurrences
  | binary _ left right => left.occurrences ++ right.occurrences

/-- Adds the names that are not yet listed, in order. -/
def collect (listed : List String) (names : List String) : List String :=
  names.foldl (fun ns n => if ns.contains n then ns else ns ++ [n]) listed

/-- The variables, each once, in the order of their first occurrence. -/
def variableNames (e : Expression) : List String :=
  collect [] e.occurrences

/-- The number of nodes on the longest path from the root. -/
def height : Expression → Nat
  | number _ => 1
  | «variable» _ => 1
  | negate inner => inner.height + 1
  | binary _ left right => max left.height right.height + 1

/-- The expression with each operator in front of its operands, between parentheses. -/
def prefixForm : Expression → String
  | number value => Decimal.write value
  | «variable» name => "\x7b" ++ name ++ "\x7d"
  | negate inner => "(neg " ++ inner.prefixForm ++ ")"
  | binary operator left right =>
    "(" ++ String.singleton operator.sign ++ " " ++ left.prefixForm ++ " " ++ right.prefixForm ++ ")"

end Expression

end SemanticLayer.Calculation
