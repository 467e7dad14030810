import SemanticLayer.Calculation.Expression
import SemanticLayer.Decimal.Reading
import SemanticLayer.Text.Blank
/-!
The tokens of arithmetic expressions: decimal numbers, names in braces, operators and parentheses,
with white space between them.
-/
namespace SemanticLayer.Calculation

inductive Token where
  | number (value : Float)
  | variable (name : String)
  | operator (operator : Operator)
  | opening
  | closing

inductive TokenFailure where
  | empty
  /-- A brace is not closed, or there is nothing but white space in the braces. -/
  | malformedVariable
  | badNumber (literal : String)
  | unexpectedCharacter (c : Char)
  deriving DecidableEq, Repr

def TokenFailure.reason : TokenFailure → String
  | empty => "empty expression"
  | malformedVariable => "malformed variable reference"
  | badNumber literal => "bad number '" ++ literal ++ "'"
  | unexpectedCharacter c => "unexpected character '" ++ String.singleton c ++ "'"

def Operator.ofSign? : Char → Option Operator
  | '+' => some .add
  | '-' => some .subtract
  | '*' => some .multiply
  | '/' => some .divide
  | '%' => some .remainder
  | _ => none

def isNumberPart (c : Char) : Bool :=
  c.isDigit || c == '.'

/-- A number's value, which is infinite beyond the range. -/
def readNumber (literal : List Char) : Except TokenFailure Token :=
  match Decimal.Literal.read? literal with
  | some l => .ok (.number l.toFloat)
  | none => .error (.badNumber (String.ofList literal))

/-- The name in braces, of which the opening one is read already, and the text behind them. -/
def readVariable (s : List Char) : Except TokenFailure (Token × List Char) :=
  let name := Text.trim (s.takeWhile (· != '\x7d'))
  match s.dropWhile (· != '\x7d') with
  | _ :: rest =>
    if name.isEmpty then .error .malformedVariable
    else .ok (.variable (String.ofList name), rest)
  | [] => .error .malformedVariable

/-- The tokens of a text; every step takes at least one character. -/
def tokensFrom : Nat → List Char → Except TokenFailure (List Token)
  | _, [] => .ok []
  | 0, _ :: _ => .ok []
  | steps + 1, c :: rest =>
    if Text.isBlank c then tokensFrom steps rest
    else if c == '(' then (tokensFrom steps rest).map (.opening :: ·)
    else if c == ')' then (tokensFrom steps rest).map (.closing :: ·)
    else if c == '\x7b' then do
      let (token, rest) ← readVariable rest
      let tokens ← tokensFrom steps rest
      pure (token :: tokens)
    else if isNumberPart c then do
      let token ← readNumber ((c :: rest).takeWhile isNumberPart)
      let tokens ← tokensFrom steps ((c :: rest).dropWhile isNumberPart)
      pure (token :: tokens)
    else
      match Operator.ofSign? c with
      | some operator => (tokensFrom steps rest).map (.operator operator :: ·)
      | none => .error (.unexpectedCharacter c)

def tokens (s : List Char) : Except TokenFailure (List Token) := do
  let ts ← tokensFrom s.length s
  if ts.isEmpty then throw .empty else pure ts

end SemanticLayer.Calculation
