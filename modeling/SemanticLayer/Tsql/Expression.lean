import SemanticLayer.Tsql.Operand
/-!
Reading expressions: operands with access to their parts, and the operators between them. A reader
of one level is built from the readers of the level inside it.
-/
namespace SemanticLayer.Tsql

open Sql (Token Lexeme Place)

/-! ## Parts behind points -/

/-- The names that an expression is made of, where it is made of nothing else. -/
def Expression.names? : Expression → Option (List Ident)
  | .name parts => some parts
  | _ => none

/-- Whether an expression can stand behind a point. -/
def Expression.isPart : Expression → Bool
  | .name _ => true
  | .value _ => true
  | .call _ => true
  | .part _ => true
  | _ => false

def Expression.isCall : Expression → Bool
  | .call _ => true
  | _ => false

/-- An expression with the parts behind its points. Names behind a name are one name, and a call
behind names is the call of a function by its whole name. -/
def Expression.withParts (root : Expression) (parts : List Expression) : Expression :=
  if parts.isEmpty then root
  else
    let text := String.intercalate "." ((root :: parts).map Expression.text)
    match (root :: parts).mapM Expression.names? with
    | some names => .name names.flatten
    | none =>
      if ((root :: parts).dropLast.all fun e => e.names?.isSome) &&
          (parts.getLast?.any Expression.isCall) then .call text
      else .part text

namespace Reader

variable (inner : Inner)

/-- What stands behind a point. What cannot be a part by itself may still be a name. -/
def accessedPart : Reader Expression := do
  let part? ← attempt? (do
    let e ← inner.expression Strength.access
    if e.isPart then pure e else expected "an identifier or value")
  match part? with
  | some part => pure part
  | none => pure (.name [← ident])

/-- The parts behind points; every step takes a point. A point in front of `*` stays. -/
def accesses : Nat → List Expression → Reader (List Expression)
  | 0, parts => pure parts
  | steps + 1, parts => do
    match ← peekTwo with
    | (some (.sign "."), some (.sign "*")) => pure parts
    | (some (.sign "."), some (.text .plain s)) =>
      skip next
      skip next
      accesses steps (parts ++ [.name [⟨s, some '\''⟩]])
    | (some (.sign "."), _) =>
      skip next
      let part ← accessedPart inner
      accesses steps (parts ++ [part])
    | _ => pure parts

/-- An operand with access to its parts. Only a column can be marked for an outer join. -/
def compound : Reader Expression := do
  let before ← get
  let root ← operand inner
  let ts ← get
  let parts ← accesses inner ts.length []
  let e := root.withParts parts
  let ts ← get
  if ← takeOuterJoin then
    match e with
    | .name _ => pure (.other (e.text ++ " (+)"))
    | _ => stop (.expected "column identifier before (+)" (lastTaken before ts))
  else pure e

/-! ## How tight operators bind -/

/-- How tight an operator sign binds, where it is one. -/
def signStrength (sign : String) : Nat :=
  if ["=", "==", "<", "<=", "<>", ">", ">=", ":=", "<=>", "~", "~*", "!~", "!~*", "~~", "~~*",
      "!~~", "!~~*"].contains sign then Strength.comparison
  else if sign = "|" then Strength.bitOr
  else if ["^", "#", "<<", ">>"].contains sign then Strength.bitXor
  else if sign = "&" then Strength.bitAnd
  else if ["+", "-"].contains sign then Strength.sum
  else if ["*", "/", "%", "||"].contains sign then Strength.product
  else if ["::", "!", "&&", "^@"].contains sign then Strength.typeCast
  else if ["->", "->>", "#>", "#>>", "@>", "<@", "#-", "@?", "@@"].contains sign then
    Strength.jsonOperator
  else Strength.none

/-- The name of a sign that binds like an operator but is none in T-SQL. -/
def deadSign? (sign : String) : Option String :=
  match sign with
  | "<<" => some "ShiftLeft"
  | ">>" => some "ShiftRight"
  | "#" => some "Sharp"
  | "&&" => some "Overlap"
  | "^@" => some "CaretAt"
  | "!" => some "ExclamationMark"
  | _ => none

/-- The keywords that match a text with a pattern. -/
def patternWords : List String :=
  ["LIKE", "ILIKE", "RLIKE", "REGEXP", "MATCH", "SIMILAR", "MEMBER"]

def keywordStrength (keyword : String) : Nat :=
  match keyword with
  | "OR" => Strength.disjunction
  | "AND" => Strength.conjunction
  | "XOR" => Strength.exclusive
  | "IS" => Strength.isTest
  | "DIV" => Strength.product
  | _ =>
    if ["IN", "BETWEEN", "OVERLAPS", "OPERATOR"].contains keyword then Strength.range
    else if patternWords.contains keyword then Strength.pattern
    else Strength.none

/-- How tight what follows `NOT` binds behind an expression. -/
def negatedStrength (mode : Mode) (keyword : String) : Nat :=
  if ["IN", "BETWEEN"].contains keyword then Strength.range
  else if patternWords.contains keyword then Strength.pattern
  else if keyword = "NULL" && mode ≠ .defining then Strength.isTest
  else Strength.none

def nextStrength : Reader Nat := do
  match ← peekTwo with
  | (some (.sign sign), _) => pure (signStrength sign)
  | (some (.word text none), second) =>
    let keyword := keywordOf (.word text none)
    if keyword = "NOT" then
      pure (negatedStrength inner.mode ((second.map keywordOf).getD ""))
    else if keyword = "AT" then
      pure (if ← atKeywords ["AT", "TIME", "ZONE"] then Strength.timeZone else Strength.none)
    else pure (keywordStrength keyword)
  | _ => pure Strength.none

/-! ## Operators -/

/-- The comparison signs that `ANY` and `ALL` go with. -/
def quantifiedSigns : List String :=
  ["=", "<>", ">", "<", ">=", "<=", "~", "~*", "!~", "!~*", "~~", "~~*", "!~~", "!~~*"]

/-- What stands behind `ANY`, `ALL` or `SOME`: an expression in parentheses or a subquery, which
operators may follow. -/
def quantified (strength : Nat) : Reader String := do
  let ts ← get
  expectSign "("
  let right ←
    if ← atQuery then (do
      set ts
      inner.expression strength)
    else (do
      let right ← inner.expression strength
      expectSign ")"
      pure right)
  match right with
  | .subquery text => pure text
  | e => pure ("(" ++ e.text ++ ")")

/-- An operator with a right operand, or with `ANY`, `ALL` or `SOME` in front of one. -/
def binary (left : Expression) (sign : String) (strength : Nat) (here : Option Place) :
    Reader Expression := do
  match ← takeOneOf ["ANY", "ALL", "SOME"] with
  | some keyword =>
    let text ← quantified inner strength
    if quantifiedSigns.contains sign then
      pure (.other (left.text ++ " " ++ sign ++ " " ++ keyword ++ text))
    else
      stop (.spoken ("Expected one of [=, >, <, =>, =<, !=, ~, ~*, !~, !~*, ~~, ~~*, !~~, !~~*] " ++
        "as comparison operator, found: " ++ sign) here)
  | none =>
    let right ← inner.expression strength
    match left, sign with
    | .name [subject], "=" => pure (.equation subject right.text)
    | _, _ => pure (.other (left.text ++ " " ++ sign ++ " " ++ right.text))

/-- What stands behind `IS`. Words that begin a test of another kind stay taken. -/
def isBody (left : Expression) : Reader Expression := do
  let start := left.text ++ " IS "
  match ← takePhrase ["NULL", "NOT NULL", "TRUE", "NOT TRUE", "FALSE", "NOT FALSE", "UNKNOWN",
      "NOT UNKNOWN"] with
  | some test => pure (.other (start ++ test))
  | none =>
    match ← takePhrase ["DISTINCT FROM", "NOT DISTINCT FROM"] with
    | some test => pure (.other (start ++ test ++ " " ++ (← expressionText inner)))
    | none =>
      let negated ← takeKeyword "NOT"
      let form ← takeOneOf ["NFC", "NFD", "NFKC", "NFKD"]
      if ← takeKeyword "NORMALIZED" then
        pure (.other (start ++ (if negated then "NOT " else "") ++
          ((form.map (· ++ " ")).getD "") ++ "NORMALIZED"))
      else expected "[NOT] NULL | TRUE | FALSE | DISTINCT | [form] NORMALIZED FROM after IS"

def inBody (start : String) : Reader Expression := do
  if ← takeKeyword "UNNEST" then
    pure (.other (start ++ "IN UNNEST(" ++ (← inParentheses (expressionText inner)) ++ ")"))
  else
    let text ← inParentheses (do
      match ← attempt? inner.query with
      | some q => pure q.text
      | none => expressionList inner)
    pure (.other (start ++ "IN (" ++ text ++ ")"))

def likeBody (start keyword : String) : Reader Expression := do
  let any ← if keyword = "SIMILAR TO" then pure false else takeKeyword "ANY"
  let pattern ← inner.expression Strength.pattern
  let escape ← clause ["ESCAPE"] literal
  pure (.other (start ++ keyword ++ (if any then " ANY " else " ") ++ pattern.text ++
    spaced escape.head?))

/-- A test that `NOT` may stand in front of. -/
def testBody (left : Expression) : Reader Expression := do
  let negated ← takeKeyword "NOT"
  let start := left.text ++ (if negated then " NOT " else " ")
  let regexp ← takeKeyword "REGEXP"
  let rlike ← takeKeyword "RLIKE"
  let null ← if inner.mode = .defining then pure false else takeKeyword "NULL"
  if regexp || rlike then
    pure (.other (start ++ (if regexp then "REGEXP " else "RLIKE ") ++
      (← inner.expression Strength.pattern).text))
  else if negated && null then pure (.other (left.text ++ " IS NOT NULL"))
  else if ← takeKeyword "IN" then inBody inner start
  else if ← takeKeyword "BETWEEN" then
    let low ← inner.expression Strength.range
    expectKeyword "AND"
    let high ← inner.expression Strength.range
    pure (.other (start ++ "BETWEEN " ++ low.text ++ " AND " ++ high.text))
  else
    match ← takePhrase ["LIKE", "ILIKE", "SIMILAR TO"] with
    | some keyword => likeBody inner start keyword
    | none => expected "IN or BETWEEN after NOT"

def noOperator (name : String) (here : Option Place) : Reader Expression :=
  stop (.spoken ("No infix parser for token " ++ name) here)

def signOperation (left : Expression) (sign : String) (strength : Nat) (here : Option Place) :
    Reader Expression := do
  skip next
  if sign = "::" then pure (.other (left.text ++ "::" ++ (← typeText inner)))
  else
    match deadSign? sign with
    | some name => noOperator name here
    | none => binary inner left (if sign = "==" then "=" else sign) strength here

def keywordOperation (left : Expression) (text : String) (strength : Nat) (here : Option Place) :
    Reader Expression := do
  let keyword := keywordOf (.word text none)
  if ["AND", "OR", "XOR", "OVERLAPS"].contains keyword then
    skip next
    binary inner left keyword strength here
  else if keyword = "IS" then
    skip next
    isBody inner left
  else if keyword = "AT" then
    expectKeywords ["AT", "TIME", "ZONE"]
    pure (.other (left.text ++ " AT TIME ZONE " ++ (← inner.expression strength).text))
  else if keyword = "MEMBER" then
    skip next
    if ← takeKeyword "OF" then
      let e ← inParentheses (expressionText inner)
      pure (.other (left.text ++ " MEMBER OF(" ++ e ++ ")"))
    else expected "OF after MEMBER"
  else if ["DIV", "OPERATOR", "MATCH"].contains keyword then
    noOperator ("Word(Word \x7b value: \"" ++ text ++ "\", quote_style: None, keyword: " ++
      keyword ++ " \x7d)") here
  else testBody inner left

/-- An expression whose left operand is read already and whose operator comes next. -/
def operation (left : Expression) (strength : Nat) : Reader Expression := do
  match ← peek with
  | some ⟨.sign sign, here⟩ => signOperation inner left sign strength (some here)
  | some ⟨.word text _, here⟩ => keywordOperation inner left text strength (some here)
  | _ => expected "an expression"

/-- Operators behind an expression that bind tighter than the given strength; every step takes an
operator. -/
def operations (strength : Nat) : Nat → Expression → Reader Expression
  | 0, left => pure left
  | steps + 1, left => do
    let ahead ← nextStrength inner
    if strength < ahead then
      let left ← operation inner left ahead
      operations strength steps left
    else pure left

/-- An expression whose operators bind tighter than the given strength. -/
def subexpression (strength : Nat) : Reader Expression := do
  let e ← collated inner (← compound inner)
  let ts ← get
  operations inner strength ts.length e

end Reader

end SemanticLayer.Tsql
