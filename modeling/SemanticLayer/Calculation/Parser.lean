import SemanticLayer.Calculation.Token
import SemanticLayer.Failure
/-!
Reading arithmetic expressions:

    expr    := term (('+' | '-') term)*
    term    := unary (('*' | '/' | '%') unary)*
    unary   := '-' unary | primary
    primary := number | name | '(' expr ')'

Parentheses and minus signs may nest 64 levels deep. A reader of one level is built from the
readers of the level inside it, so the levels are what the recursion is on.
-/
namespace SemanticLayer.Calculation

/-- Why a token list is not an expression. -/
inductive Refusal where
  | expectedClosing
  | unexpectedToken
  | unexpectedEnd
  | nestedTooDeeply
  deriving DecidableEq, Repr

def Refusal.reason : Refusal → String
  | expectedClosing => "expected ')'"
  | unexpectedToken => "unexpected token"
  | unexpectedEnd => "unexpected end of expression"
  | nestedTooDeeply => "expression nested too deeply"

/-- A refusal with the number of tokens left behind the place it was met at; none stands for the
place behind the end. -/
structure Stop where
  refusal : Refusal
  left : Option Nat

abbrev Reader := List Token → Except Stop (Expression × List Token)

/-- The readers of the level inside the present one. -/
structure Inner where
  expression : Reader
  unary : Reader

def primary (inner : Inner) : Reader
  | [] => .error ⟨.unexpectedEnd, none⟩
  | .number value :: rest => .ok (.number value, rest)
  | .variable name :: rest => .ok (.variable name, rest)
  | .opening :: rest => do
    let (e, rest) ← inner.expression rest
    match rest with
    | .closing :: rest => pure (e, rest)
    | _ :: rest => throw ⟨.expectedClosing, some rest.length⟩
    | [] => throw ⟨.expectedClosing, none⟩
  | _ :: rest => .error ⟨.unexpectedToken, some rest.length⟩

/-- Minus signs in front of a primary. -/
def unary (inner : Inner) : Reader
  | .operator .subtract :: rest => do
    let (e, rest) ← inner.unary rest
    pure (.negate e, rest)
  | ts => primary inner ts

def isAdditive : Operator → Bool
  | .add => true
  | .subtract => true
  | _ => false

/-- Operands joined to the left by operators of one class; every step takes an operator. -/
def chain (operand : Reader) (joins : Operator → Bool) :
    Nat → Expression → List Token → Except Stop (Expression × List Token)
  | 0, left, ts => .ok (left, ts)
  | steps + 1, left, .operator op :: rest =>
    if joins op then do
      let (right, rest) ← operand rest
      chain operand joins steps (.binary op left right) rest
    else .ok (left, .operator op :: rest)
  | _ + 1, left, ts => .ok (left, ts)

/-- A product of unaries. -/
def term (inner : Inner) : Reader := fun ts => do
  let (left, rest) ← unary inner ts
  chain (unary inner) (fun op => !isAdditive op) rest.length left rest

def sum (inner : Inner) : Reader := fun ts => do
  let (left, rest) ← term inner ts
  chain (term inner) isAdditive rest.length left rest

/-- The readers with `depth` levels left to nest. -/
def Inner.ofDepth : Nat → Inner
  | 0 =>
    let tooDeep : Reader := fun ts => .error ⟨.nestedTooDeeply, some ts.length⟩
    ⟨tooDeep, tooDeep⟩
  | depth + 1 => ⟨sum (ofDepth depth), Calculation.unary (ofDepth depth)⟩

/-- How deep parentheses and minus signs may nest. -/
def maxDepth : Nat := 64

inductive ParseFailure where
  | tokens (failure : TokenFailure)
  /-- The refusal and how many tokens had been taken. -/
  | refused (refusal : Refusal) (position : Nat)
  | trailing

/-- The expression that a whole text stands for. -/
def parse (s : String) : Except ParseFailure Expression := do
  let ts ← (tokens s.toList).mapError .tokens
  match sum (Inner.ofDepth maxDepth) ts with
  | .ok (e, []) => pure e
  | .ok (_, _ :: _) => throw .trailing
  | .error ⟨refusal, some left⟩ => throw (.refused refusal (ts.length - left))
  | .error ⟨refusal, none⟩ => throw (.refused refusal (ts.length + 1))

def ParseFailure.toFailure (text : String) : ParseFailure → Failure
  | tokens failure =>
    .validation ("invalid calculated expression '" ++ text ++ "': " ++ failure.reason)
  | refused refusal position =>
    .validation ("invalid calculated expression: " ++ refusal.reason ++ " at token " ++
      toString position)
  | trailing =>
    .validation ("invalid calculated expression '" ++ text ++ "': unexpected trailing input")

end SemanticLayer.Calculation
