import SemanticLayer.Tsql.Level
/-!
Reading names and literals, and their usual form.
-/
namespace SemanticLayer.Tsql

open Sql (Token Lexeme Place)

namespace Reader

/-! ## Names -/

/-- A name, which any word or text in single quotes can be. -/
def ident : Reader Ident := do
  match ← peek with
  | some ⟨.word text quote, _⟩ =>
    skip next
    pure ⟨text, quote⟩
  | some ⟨.text .plain s, _⟩ =>
    skip next
    pure ⟨s, some '\''⟩
  | _ => expected "identifier"

def identText : Reader String := do
  pure (← ident).text

/-- More parts of a dotted name; every step takes a point. A second point in a row leaves the
schema out. -/
def moreParts (part : Reader Ident) : Nat → List Ident → Reader (List Ident)
  | 0, parts => pure parts
  | steps + 1, parts => do
    if ← takeSign "." then
      let again ← if parts.length = 1 then takeSign "." else pure false
      let i ← part
      moreParts part steps (parts ++ (if again then [⟨"", none⟩, i] else [i]))
    else pure parts

def dottedName (part : Reader Ident) : Reader (List Ident) := do
  let first ← part
  let ts ← get
  moreParts part ts.length [first]

def objectName : Reader (List Ident) :=
  dottedName ident

def objectText : Reader String := do
  pure (dotted (← objectName))

/-- The name of an object, parts of which may be `*`. -/
def objectPattern : Reader (List Ident) :=
  dottedName do if ← takeSign "*" then pure ⟨"*", none⟩ else ident

def columns : Reader (List Ident) :=
  columnsOf ident

def columns? : Reader (List Ident) :=
  columnsOf? ident

def namedBy (keyword : String) : Reader Unit :=
  skip (behind? [keyword] ident)

/-! ## Numbers -/

def digitsBelow (bound : Nat) (kind digits : String) (place : Place) : Reader Nat :=
  if digits.toList.all Char.isDigit && digits.toNat?.all (· < bound) then
    pure (digits.toNat?.getD 0)
  else
    let why := if digits.toList.all Char.isDigit then "number too large to fit in target type"
      else "invalid digit found in string"
    stop (.spoken ("Could not parse '" ++ digits ++ "' as " ++ kind ++ ": " ++ why) (some place))

def wholeNumber : Reader Nat := do
  match ← peek with
  | some ⟨.number digits _, place⟩ =>
    skip next
    digitsBelow (Nat.pow 2 64) "u64" digits place
  | _ => expected "literal int"

def signedNumber : Reader String := do
  let negative ← takeSign "-"
  unless negative do skip (takeSign "+")
  match ← peek with
  | some ⟨.number digits _, place⟩ =>
    skip next
    let n ← digitsBelow (Nat.pow 2 63) "i64" digits place
    pure (if negative && n ≠ 0 then "-" ++ toString n else toString n)
  | _ => expected "number"

def precision? : Reader (Option Nat) := do
  if ← atSign "(" then pure (some (← inParentheses wholeNumber)) else pure none

/-- A number in parentheses right behind a type, or nothing. -/
def precision : Reader String := do
  pure (((← precision?).map fun n => "(" ++ toString n ++ ")").getD "")

/-! ## Literals -/

/-- The quoted text of a token that stands for a value. -/
def literalText : Sql.TextKind → String → String
  | .plain, s => inQuotes '\'' s
  | kind, s => textToken kind s

/-- A placeholder that a colon or an at sign opens: a name or number right behind it. -/
def placeholder (sign : String) : Reader String := do
  match ← nextBeside with
  | some ⟨.word text _, _⟩ => pure (sign ++ text)
  | some ⟨.number digits false, _⟩ => pure (sign ++ digits)
  | found => stop (.expected "placeholder" found)

/-- A literal as it is written. A name in double quotes counts as a text. -/
def literal : Reader String := do
  match ← peek with
  | some ⟨.word text quote, place⟩ =>
    if quote = some '"' then
      skip next
      pure (inQuotes '"' text)
    else if keywordOf (.word text quote) == "NULL" then
      skip next
      pure "NULL"
    else
      let what := if quote = none then "a concrete value" else "A value?"
      stop (.expected what (some ⟨.word text quote, place⟩))
  | some ⟨.number digits long, _⟩ =>
    skip next
    pure (digits ++ (if long then "L" else ""))
  | some ⟨.text kind s, _⟩ =>
    skip next
    pure (literalText kind s)
  | some ⟨.placeholder text, _⟩ =>
    skip next
    pure text
  | some ⟨.sign sign, place⟩ =>
    if sign = ":" || sign = "@" then
      skip next
      placeholder sign
    else stop (.expected "a value" (some ⟨.sign sign, place⟩))
  | found => stop (.expected "a value" found)

def isNumeric : Token → Bool
  | .number _ _ => true
  | .placeholder _ => true
  | .sign _ => true
  | _ => false

def numericLiteral : Reader String := do
  let here ← peek
  let text ← literal
  if (here.map fun l => isNumeric l.token).getD false then pure text
  else stop (.expected "literal number" here)

def number : Reader String := do
  if ← takeSign "+" then pure ("+" ++ (← numericLiteral))
  else if ← takeSign "-" then pure ("-" ++ (← numericLiteral))
  else numericLiteral

/-- The value of a text in quotes, or of a word that is no keyword. -/
def literalString : Reader String := do
  match ← peek with
  | some ⟨.text .plain s, _⟩ =>
    skip next
    pure s
  | some ⟨.word text quote, _⟩ =>
    if quote = none && isKeyword (keywordOf (.word text none)) then expected "literal string"
    else
      skip next
      pure text
  | _ => expected "literal string"

def literalByte : Reader Unit := do
  let here ← place
  let s ← literalString
  unless s.utf8ByteSize = 1 do
    stop (.spoken ("Expect a char, found \"" ++ s ++ "\"") here)

def atText : Reader Bool := do
  match ← peek with
  | some ⟨.text .plain _, _⟩ => pure true
  | _ => pure false

def commentText : Reader String := do
  match ← peek with
  | some ⟨.text .plain s, _⟩ =>
    skip next
    pure s
  | some ⟨.text (.dollar _) s, _⟩ =>
    skip next
    pure s
  | _ => expected "string literal"

end Reader

end SemanticLayer.Tsql
