import SemanticLayer.Tsql.Call
/-!
Reading expressions without operators: names, literals, calls, and what a keyword or a bracket
opens.
-/
namespace SemanticLayer.Tsql

open Sql (Token Lexeme Place)

namespace Reader

variable (inner : Inner)

/-! ## Expressions that a keyword opens -/

/-- The branches of a `CASE`; every step takes a `WHEN`, whose keyword is taken already. -/
def branches : Nat → String → Reader String
  | 0, read => pure read
  | steps + 1, read => do
    let condition ← expressionText inner
    expectKeyword "THEN"
    let result ← expressionText inner
    let read := read ++ " WHEN " ++ condition ++ " THEN " ++ result
    if ← takeKeyword "WHEN" then branches steps read else pure read

def caseBody : Reader String := do
  let operand ←
    if ← takeKeyword "WHEN" then pure ""
    else (do
      let e ← expressionText inner
      expectKeyword "WHEN"
      pure (" " ++ e))
  let ts ← get
  let read ← branches inner (ts.length + 1) ("CASE" ++ operand)
  let otherwise ← behind? ["ELSE"] (expressionText inner)
  expectKeyword "END"
  pure (read ++ ((otherwise.map (" ELSE " ++ ·)).getD "") ++ " END")

/-- `CAST` or one of its kin. -/
def castBody (keyword : String) : Reader String :=
  inParentheses (do
    let e ← expressionText inner
    expectKeyword "AS"
    let t ← typeText inner
    let format ← behind? ["FORMAT"] (do
      let format ← literal
      let zone ← clause ["AT", "TIME", "ZONE"] literal
      pure (format ++ spaced zone.head?))
    pure (keyword ++ "(" ++ e ++ " AS " ++ t ++ ((format.map (" FORMAT " ++ ·)).getD "") ++ ")"))

/-- `CONVERT` or `TRY_CONVERT`, with the type in front. -/
def convertBody (keyword : String) : Reader String :=
  inParentheses (do
    let t ← typeText inner
    expectSign ","
    let e ← expressionText inner
    let styles ← if ← takeSign "," then (do pure (", " ++ (← expressionList inner))) else pure ""
    pure (keyword ++ "(" ++ t ++ ", " ++ e ++ styles ++ ")"))

def extractBody : Reader String :=
  inParentheses (do
    let field ← timeField
    if ← takeKeyword "FROM" then
      pure ("EXTRACT(" ++ field ++ " FROM " ++ (← expressionText inner) ++ ")")
    else stop (.spoken "Expected 'FROM' or ','" none))

/-- The number of digits that are left when a number is rounded. -/
def scale : Reader String := do
  match ← peek with
  | some ⟨.number _ _, _⟩ => literal
  | _ =>
    skip literal
    stop (.spoken "Scale field can only be of number type" none)

/-- `CEIL` or `FLOOR`. -/
def roundingBody (keyword : String) : Reader String :=
  inParentheses (do
    let e ← expressionText inner
    let how ←
      if ← takeKeyword "TO" then (do pure (" TO " ++ (← timeField)))
      else if ← takeSign "," then (do pure (", " ++ (← scale)))
      else pure ""
    pure (keyword ++ "(" ++ e ++ how ++ ")"))

/-- `SUBSTRING` or `SUBSTR`, with commas or words between its arguments. -/
def substringBody (keyword : String) : Reader String :=
  inParentheses (do
    let e ← expressionText inner
    let comma ← takeSign ","
    let hasStart ← if comma then pure true else takeKeyword "FROM"
    let start ← if hasStart then (do pure (some (← expressionText inner))) else pure none
    let hasLength ← if ← takeKeyword "FOR" then pure true else takeSign ","
    let size ← if hasLength then (do pure (some (← expressionText inner))) else pure none
    let from? := start.map ((if comma then ", " else " FROM ") ++ ·)
    let for? := size.map ((if comma then ", " else " FOR ") ++ ·)
    pure (keyword ++ "(" ++ e ++ from?.getD "" ++ for?.getD "" ++ ")"))

def overlayBody : Reader String :=
  inParentheses (do
    let e ← expressionText inner
    expectKeyword "PLACING"
    let what ← expressionText inner
    expectKeyword "FROM"
    let start ← expressionText inner
    let size ← clause ["FOR"] (expressionText inner)
    pure ("OVERLAY(" ++ e ++ " PLACING " ++ what ++ " FROM " ++ start ++ spaced size.head? ++ ")"))

/-- `TRIM`. A comma behind what is trimmed counts for nothing. -/
def trimBody : Reader String :=
  inParentheses (do
    let side ← takeOneOf ["BOTH", "LEADING", "TRAILING"]
    let side := (side.map (· ++ " ")).getD ""
    let e ← expressionText inner
    if ← takeKeyword "FROM" then
      pure ("TRIM(" ++ side ++ e ++ " FROM " ++ (← expressionText inner) ++ ")")
    else
      skip (takeSign ",")
      pure ("TRIM(" ++ side ++ e ++ ")"))

def positionBody : Reader String :=
  inParentheses (do
    let e ← inner.expression Strength.range
    expectKeyword "IN"
    pure ("POSITION(" ++ e.text ++ " IN " ++ (← expressionText inner) ++ ")"))

def existsBody (start : String) : Reader String := do
  let q ← inParentheses inner.query
  pure (start ++ "EXISTS (" ++ q.text ++ ")")

def notBody : Reader String := do
  if ← takeKeyword "EXISTS" then existsBody inner "NOT "
  else pure ("NOT " ++ (← inner.expression Strength.negation).text)

/-! ## Words -/

def takeOuterJoin : Reader Bool := do
  let mark ← attempt? (do
    expectSign "("
    expectSign "+"
    expectSign ")")
  pure mark.isSome

def atOuterJoin : Reader Bool :=
  fun ts => (takeOuterJoin ts).map fun r => (r.1, ts)

/-- A word as the name of a column or a function. -/
def plainWord (word : Ident) : Reader Expression := do
  if (← atSign "(") && !(← atOuterJoin) then call inner [word]
  else
    match ← peek with
    | some ⟨.text kind s, _⟩ =>
      if word.value.startsWith "_" && (kind = .plain || kind = .hex) then
        skip next
        pure (.other (word.text ++ " " ++ literalText kind s))
      else pure (.name [word])
    | _ => pure (.name [word])

/-- A function of the present moment, which needs no parentheses. -/
def timeFunction (word : Ident) : Reader Expression := do
  if ← takeSign "(" then pure (.call (word.text ++ "(" ++ (← arguments inner) ++ ")"))
  else pure (.call word.text)

/-- The array of what a query gives. -/
def arrayBody (word : Ident) : Reader Expression := do
  if ← atSign "(" then
    let q ← inParentheses inner.query
    pure (.call (word.text ++ "(" ++ q.text ++ ")"))
  else plainWord inner word

/-- The reader of what stands behind a keyword that opens an expression. An interval has the given
reader for its value. -/
def special? (intervalValue : Reader Expression) (word : Ident) (keyword : String) :
    Option (Reader Expression) :=
  let other (r : Reader String) : Option (Reader Expression) := some (do pure (.other (← r)))
  match keyword with
  | "NULL" => some (pure (.value "NULL"))
  | "CURRENT_TIMESTAMP" => some (timeFunction inner word)
  | "CURRENT_TIME" => some (timeFunction inner word)
  | "CURRENT_DATE" => some (timeFunction inner word)
  | "LOCALTIME" => some (timeFunction inner word)
  | "LOCALTIMESTAMP" => some (timeFunction inner word)
  | "CASE" => other (caseBody inner)
  | "CONVERT" => other (convertBody inner keyword)
  | "TRY_CONVERT" => other (convertBody inner keyword)
  | "CAST" => other (castBody inner keyword)
  | "TRY_CAST" => other (castBody inner keyword)
  | "SAFE_CAST" => other (castBody inner keyword)
  | "EXISTS" => other (existsBody inner "")
  | "EXTRACT" => other (extractBody inner)
  | "CEIL" => other (roundingBody inner keyword)
  | "FLOOR" => other (roundingBody inner keyword)
  | "SUBSTR" => other (substringBody inner keyword)
  | "SUBSTRING" => other (substringBody inner keyword)
  | "OVERLAY" => other (overlayBody inner)
  | "TRIM" => other (trimBody inner)
  | "INTERVAL" => other (do intervalOf (← intervalValue).text)
  | "NOT" => other (notBody inner)
  | "ARRAY" => some (arrayBody inner word)
  | "POSITION" =>
    some (do
      if ← atSign "(" then
        match ← attempt? (positionBody inner) with
        | some text => pure (.other text)
        | none => call inner [word]
      else plainWord inner word)
  | "PRIOR" =>
    if inner.mode = .connecting then
      other (do pure ("PRIOR " ++ (← inner.expression Strength.sum).text))
    else none
  | _ => none

/-- The keywords that cannot be a name, whatever follows. -/
def reservedWords : List String :=
  ["EXISTS", "INTERVAL", "STRUCT", "TRIM"]

/-- An expression that a word opens, which is taken already. Where the special meaning of the word
does not fit, it is a name, behind which no collation is read. -/
def wordExpression (intervalValue : Reader Expression) (word : Ident) (keyword : String) :
    Reader Expression :=
  match special? inner intervalValue word keyword with
  | none => do collated inner (← plainWord inner word)
  | some r => fun ts =>
    match r ts with
    | .ok (e, rest) => collated inner e rest
    | .error fault =>
      if reservedWords.contains keyword then .error fault
      else
        match plainWord inner word ts with
        | .ok result => .ok result
        | .error _ => .error fault

/-! ## Brackets and signs -/

/-- A literal with its type in front, where the type is known by a keyword. -/
def typedLiteral (intervalValue : Reader Expression) : Reader Expression := do
  let t ← dataType inner
  match t.kind with
  | .custom => expected "a data type name"
  | .interval => pure (.other (← intervalOf (← intervalValue).text))
  | _ => pure (.other (t.text ++ " " ++ (← literal)))

/-- What stands behind an opening parenthesis: a subquery, or expressions with commas. -/
def parenthesised : Reader Expression := do
  if ← atQuery then
    let q ← inner.query
    expectSign ")"
    pure (.subquery ("(" ++ q.text ++ ")"))
  else
    let text ← expressionList (inner.within .plain)
    expectSign ")"
    pure (.other ("(" ++ text ++ ")"))

/-- A function in braces, behind the opening one. -/
def bracedCall : Reader Expression := do
  expectKeyword "FN"
  let name ← objectText
  pure (.call ("\x7bfn " ++ name ++ (← callBody inner) ++ "\x7d"))

def bracedMoment : Reader Expression := do
  let found ← next
  let mark := (found.map fun l => showToken l.token).getD ""
  if ["t", "d", "ts"].contains mark then
    pure (.other ("\x7b" ++ mark ++ " " ++ (← literal) ++ "\x7d"))
  else stop (.expected "ODBC datetime keyword (t, d, or ts)" found)

def braced (brace : Lexeme) : Reader Expression := do
  let e? ← match ← attempt? (bracedCall inner) with
    | some e => pure (some e)
    | none => attempt? bracedMoment
  match e? with
  | some e =>
    expectSign "\x7d"
    pure e
  | none => stop (.expected "an expression" (some brace))

/-- An expression behind a sign that binds as tight as given. -/
def signed (sign : String) (strength : Nat) : Reader Expression := do
  skip next
  pure (.other (sign ++ (← inner.expression strength).text))

/-- An expression that a token other than a word opens. -/
def signExpression : Reader Expression := do
  match ← peek with
  | some ⟨.sign "-", _⟩ => signed inner "-" Strength.product
  | some ⟨.sign "+", _⟩ => signed inner "+" Strength.product
  | some ⟨.sign "~", _⟩ => signed inner "~" Strength.sum
  | some ⟨.sign "(", _⟩ =>
    skip next
    parenthesised inner
  | some ⟨.sign "\x7b", place⟩ =>
    skip next
    braced inner ⟨.sign "\x7b", place⟩
  | some ⟨.sign ":", _⟩ => pure (.value (← literal))
  | some ⟨.sign "@", _⟩ => pure (.value (← literal))
  | some ⟨.number _ _, _⟩ => pure (.value (← literal))
  | some ⟨.text _ _, _⟩ => pure (.value (← literal))
  | some ⟨.placeholder _, _⟩ => pure (.value (← literal))
  | _ => expected "an expression"

/-! ## Operands -/

/-- An expression without operators, given the reader of the value of an interval. -/
def operandWith (intervalValue : Reader Expression) : Reader Expression := do
  match ← attempt? (typedLiteral inner intervalValue) with
  | some e => pure e
  | none =>
    match ← peek with
    | some ⟨.word text quote, _⟩ =>
      skip next
      wordExpression inner intervalValue ⟨text, quote⟩ (keywordOf (.word text quote))
    | _ => collated inner (← signExpression inner)

/-- An expression without operators. The value of an interval is one too; every step takes an
`INTERVAL`. -/
def operandIn : Nat → Reader Expression
  | 0 => expected "an expression"
  | steps + 1 => operandWith inner (operandIn steps)

def operand : Reader Expression := do
  let ts ← get
  operandIn inner (ts.length + 1)

end Reader

end SemanticLayer.Tsql
