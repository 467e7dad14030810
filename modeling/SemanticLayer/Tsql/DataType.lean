import SemanticLayer.Tsql.Column
/-!
Reading data types, and their usual form.
-/
namespace SemanticLayer.Tsql

inductive TypeKind where
  /-- By its keyword. -/
  | known
  /-- As the type of intervals, whose literals have a form of their own. -/
  | interval
  /-- By the columns of a table. -/
  | columns
  /-- Only by its name. -/
  | custom
  deriving DecidableEq, Repr

structure DataType where
  text : String
  kind : TypeKind
  /-- A second closing bracket was taken along with the type's own. -/
  closesTwice : Bool
  deriving DecidableEq, Repr

namespace Reader

/-! ## What stands behind a type's keyword -/

/-- A precision and a scale in parentheses, or nothing. -/
def precisionAndScale : Reader String := do
  if ← takeSign "(" then
    let p ← wholeNumber
    let s ← if ← takeSign "," then (do pure ("," ++ (← signedNumber))) else pure ""
    expectSign ")"
    pure ("(" ++ toString p ++ s ++ ")")
  else pure ""

/-- A length in parentheses, which may be `MAX`, or nothing. -/
def length (units : Bool) : Reader String := do
  if ← takeSign "(" then
    let n ← if ← takeKeyword "MAX" then pure "MAX" else (do
      let n ← wholeNumber
      let unit ← if units then takeOneOf ["CHARACTERS", "OCTETS"] else pure none
      pure (toString n ++ spaced unit))
    expectSign ")"
    pure ("(" ++ n ++ ")")
  else pure ""

def zone : Reader String := do
  match ← takeOneOf ["WITH", "WITHOUT"] with
  | some keyword =>
    expectKeywords ["TIME", "ZONE"]
    pure (" " ++ keyword ++ " TIME ZONE")
  | none => pure ""

def unsigned : Reader String := do
  pure (spaced (← takePhrase ["UNSIGNED"]))

/-- A member of an enumeration, which may have a number. -/
def enumMember : Reader String := do
  let name := inQuotes '\'' (← literalString)
  if ← takeSign "=" then pure (name ++ " = " ++ (← number)) else pure name

def setMembers : Nat → List String → Reader (List String)
  | 0, read => pure read
  | steps + 1, read => do
    if ← atText then
      let read := read ++ [inQuotes '\'' (← literalString)]
      if ← takeSign "," then setMembers steps read
      else if ← takeSign ")" then pure read
      else expected ", or \x7d"
    else expected "a string"

def preciseMoment : Reader String :=
  inParentheses (do
    let n ← wholeNumber
    if ← takeSign "," then pure (toString n ++ ", '" ++ (← literalString) ++ "'")
    else pure (toString n))

/-! ## Known types -/

def plainTypes : List String :=
  ["BOOLEAN", "BOOL", "FLOAT4", "FLOAT8", "HUGEINT", "UBIGINT", "UHUGEINT", "USMALLINT", "UTINYINT",
    "UUID", "DATE", "JSON", "JSONB", "REGCLASS", "TEXT", "TINYTEXT", "MEDIUMTEXT", "LONGTEXT",
    "BYTEA", "TINYBLOB", "MEDIUMBLOB", "LONGBLOB", "TRIGGER"]

/-- Types by a keyword alone that are not written in capitals. -/
def mixedTypes : List String :=
  ["Float32", "Float64", "Int16", "Int32", "Int64", "Int128", "Int256", "UInt8", "UInt16", "UInt32",
    "UInt64", "UInt128", "UInt256", "Date32"]

/-- Whole numbers, which may have a width and be unsigned. -/
def wholeTypes : List String :=
  ["TINYINT", "INT2", "SMALLINT", "MEDIUMINT", "INT", "INT4", "INT8", "INTEGER", "BIGINT"]

/-- Numbers that may have a precision and a scale. -/
def decimalTypes : List String :=
  ["NUMERIC", "BIGNUMERIC", "BIGDECIMAL"]

/-- Numbers that may have a precision and a scale and be unsigned. -/
def signedDecimalTypes : List String :=
  ["FLOAT", "DECIMAL", "DEC"]

def sizedTypes : List String :=
  ["CLOB", "BINARY", "BLOB", "BYTES", "VARBIT", "DATETIME", "TIMESTAMPTZ", "TIMESTAMP_NTZ", "TIMETZ",
    "STRING"]

def characterType (keyword : String) : Reader String := do
  if ← takeKeyword "VARYING" then
    pure (keyword ++ " VARYING" ++ (← length true))
  else if ← takeKeywords ["LARGE", "OBJECT"] then
    pure (keyword ++ " LARGE OBJECT" ++ (← precision))
  else pure (keyword ++ (← length true))

def typeOfKeyword? (keyword : String) : Option (Reader String) :=
  match keyword with
  | "REAL" => some (do pure (keyword ++ (← unsigned)))
  | "DOUBLE" =>
    some (do
      if ← takeKeyword "PRECISION" then
        pure ("DOUBLE PRECISION" ++ (← unsigned))
      else
        let p ← precisionAndScale
        pure (keyword ++ p ++ (← unsigned)))
  | "VARCHAR" => some (do pure (keyword ++ (← length true)))
  | "NVARCHAR" => some (do pure (keyword ++ (← length true)))
  | "VARBINARY" => some (do pure (keyword ++ (← length false)))
  | "CHAR" => some (characterType keyword)
  | "CHARACTER" => some (characterType keyword)
  | "BIT" =>
    some (do
      let varying ← takeKeyword "VARYING"
      pure ((if varying then "BIT VARYING" else "BIT") ++ (← precision)))
  | "TIME" =>
    some (do
      let p ← precision
      pure (keyword ++ p ++ (← zone)))
  | "TIMESTAMP" =>
    some (do
      let p ← precision
      pure (keyword ++ p ++ (← zone)))
  | "DATETIME64" => some (do pure ("DateTime64(" ++ (← preciseMoment) ++ ")"))
  | "FIXEDSTRING" =>
    some (do pure ("FixedString(" ++ toString (← inParentheses wholeNumber) ++ ")"))
  | "SIGNED" => some (do pure (if ← takeKeyword "INTEGER" then "SIGNED INTEGER" else keyword))
  | "UNSIGNED" => some (do pure (if ← takeKeyword "INTEGER" then "UNSIGNED INTEGER" else keyword))
  | "SET" =>
    some (do
      expectSign "("
      let ts ← get
      pure ("SET(" ++ commas (← setMembers (ts.length + 1) []) ++ ")"))
  | _ =>
    if ["ENUM", "ENUM8", "ENUM16"].contains keyword then
      some (do pure (keyword ++ "(" ++ commas (← inParentheses (commaList enumMember)) ++ ")"))
    else none

/-- What stands behind the keyword of a type that is known, if it is known. -/
def knownType? (keyword : String) : Option (Reader String) :=
  if plainTypes.contains keyword then some (pure keyword)
  else if wholeTypes.contains keyword then
    some (do
      let p ← precision
      pure (keyword ++ p ++ (← unsigned)))
  else if decimalTypes.contains keyword then some (do pure (keyword ++ (← precisionAndScale)))
  else if signedDecimalTypes.contains keyword then
    some (do
      let p ← precisionAndScale
      pure (keyword ++ p ++ (← unsigned)))
  else if sizedTypes.contains keyword then some (do pure (keyword ++ (← precision)))
  else
    match mixedTypes.find? fun name => String.ofList (Text.capitals name.toList) == keyword with
    | some name => some (pure name)
    | none => typeOfKeyword? keyword

/-! ## Custom types -/

/-- The words and numbers in the parentheses of a custom type; every step takes a token. -/
def modifiers : Nat → List String → Reader (List String)
  | 0, read => pure read
  | steps + 1, read => do
    match ← next with
    | some ⟨.sign ")", _⟩ => pure read
    | some ⟨.sign ",", _⟩ => modifiers steps read
    | some ⟨.word text quote, _⟩ => modifiers steps (read ++ [showToken (.word text quote)])
    | some ⟨.number digits long, _⟩ => modifiers steps (read ++ [showToken (.number digits long)])
    | some ⟨.text .plain s, _⟩ => modifiers steps (read ++ [s])
    | found => stop (.expected "type modifiers" found)

def customType : Reader String := do
  let name ← objectText
  if ← takeSign "(" then
    let ts ← get
    let ms ← modifiers (ts.length + 1) []
    pure (if ms.isEmpty then name else name ++ "(" ++ commas ms ++ ")")
  else pure name

/-! ## Types -/

variable (inner : Inner)

/-- The bracket that closes the items of an array, unless the items' own took it along. The flag
says whether the outer array's was taken along. -/
def closingBracket (closed : Bool) : Reader Bool := do
  if closed then pure false
  else if ← takeSign ">" then pure false
  else if ← takeSign ">>" then pure true
  else expected ">"

/-- A data type that may have taken along a closing bracket. Every step goes into a type. -/
def openType : Nat → Reader DataType
  | 0 => expected "a data type name"
  | steps + 1 => do
    match ← peekTwo with
    | (some (.word text quote), second) =>
      let keyword := keywordOf (.word text quote)
      match knownType? keyword with
      | some r =>
        skip next
        pure ⟨← r, .known, false⟩
      | none =>
        if keyword = "INTERVAL" then
          skip next
          pure ⟨"INTERVAL", .interval, false⟩
        else if keyword = "ARRAY" then
          skip next
          expectSign "<"
          let t ← openType steps
          let closesTwice ← closingBracket t.closesTwice
          pure ⟨"ARRAY<" ++ t.text ++ ">", .known, closesTwice⟩
        else if keyword = "ANY" && second.map keywordOf = some "TYPE" then
          skip (takeKeywords ["ANY", "TYPE"])
          pure ⟨"ANY TYPE", .known, false⟩
        else if keyword = "TABLE" then
          skip next
          if ← atSign "(" then
            let cs ← inParentheses (commaList (columnDefinition inner do
              pure (← openType steps).text))
            pure ⟨"TABLE(" ++ commas cs ++ ")", .columns, false⟩
          else pure ⟨"TABLE", .known, false⟩
        else pure ⟨← customType, .custom, false⟩
    | _ => expected "a data type name"

def dataType : Reader DataType := do
  let ts ← get
  let t ← openType inner (ts.length + 1)
  if t.closesTwice then
    let found := ((← peek).map fun l => showToken l.token).getD "EOF"
    stop (.spoken ("unmatched > after parsing data type " ++ t.text ++ found) none)
  else pure t

def typeText : Reader String := do
  pure (← dataType inner).text

end Reader

end SemanticLayer.Tsql
