import SemanticLayer.Tsql.Session
/-!
Reading statements that copy rows between tables and files.
-/
namespace SemanticLayer.Tsql

open Sql (Token Lexeme Place)

namespace Reader

variable (inner : Inner)

/-! ## Options of files -/

def copyOption : Reader Unit := do
  match ← takeOneOf ["FORMAT", "FREEZE", "DELIMITER", "NULL", "HEADER", "QUOTE", "ESCAPE",
      "FORCE_QUOTE", "FORCE_NOT_NULL", "FORCE_NULL", "ENCODING"] with
  | none => expected "option"
  | some keyword =>
    if keyword = "FORMAT" then skip ident
    else if ["FREEZE", "HEADER"].contains keyword then skip (takeOneOf ["TRUE", "FALSE"])
    else if ["DELIMITER", "QUOTE", "ESCAPE"].contains keyword then literalByte
    else if ["NULL", "ENCODING"].contains keyword then skip literalString
    else skip columns

/-- An option of comma-separated files, if one comes next. -/
def valuesOption? : Reader (Option Unit) :=
  attempt? (do
    match ← takePhrase ["HEADER", "QUOTE", "ESCAPE", "FORCE NOT NULL", "FORCE QUOTE"] with
    | some "HEADER" => pure ()
    | some "FORCE NOT NULL" => skip (commaList ident)
    | some "FORCE QUOTE" => skip (commaList ident)
    | some _ =>
      skip (takeKeyword "AS")
      literalByte
    | none => expected "csv option")

/-- Who has the right to write files. -/
def fileRole : Reader Unit := do
  unless ← takeKeyword "DEFAULT" do skip literalString

def fileSize : Reader Unit := do
  skip numericLiteral
  skip (takeOneOf ["MB", "GB"])

/-- Options of files without anything behind. -/
def bareOptions : List String :=
  ["ACCEPTANYDATE", "ADDQUOTES", "ALLOWOVERWRITE", "BINARY", "BLANKSASNULL", "BZIP2", "CLEANPATH",
    "EMPTYASNULL", "ESCAPE", "GZIP", "HEADER", "PARQUET", "REMOVEQUOTES", "TRUNCATECOLUMNS", "ZSTD"]

def fileOptionBody (keyword : String) : Reader Unit := do
  if bareOptions.contains keyword then pure ()
  else if ["COMPUPDATE", "PARALLEL", "STATUPDATE"].contains keyword then
    if keyword = "COMPUPDATE" then skip (takeKeyword "PRESET")
    skip (takeOneOf ["TRUE", "FALSE", "ON", "OFF"])
  else if ["CREDENTIALS", "EXTENSION", "FIXEDWIDTH"].contains keyword then skip literalString
  else
    match keyword with
    | "CSV" => skip (all valuesOption?)
    | "ENCRYPTED" => skip (takeKeyword "AUTO")
    | "IAM_ROLE" => fileRole
    | "MANIFEST" => skip (takeKeyword "VERBOSE")
    | "PARTITION" =>
      expectKeyword "BY"
      skip columns
      skip (takeKeyword "INCLUDE")
    | _ =>
      skip (takeKeyword "AS")
      if ["ACCEPTINVCHARS", "DATEFORMAT", "JSON", "TIMEFORMAT"].contains keyword then
        if ← atText then skip next
      else if keyword = "DELIMITER" then literalByte
      else if keyword = "IGNOREHEADER" then skip wholeNumber
      else if ["MAXFILESIZE", "ROWGROUPSIZE"].contains keyword then fileSize
      else skip literalString

/-- An option of files without parentheses, if one comes next. -/
def fileOption? : Reader (Option Unit) :=
  attempt? (do
    if ← takeKeyword "FORMAT" then skip (takeKeyword "AS")
    match ← takeOneOf (bareOptions ++ ["ACCEPTINVCHARS", "COMPUPDATE", "CREDENTIALS", "CSV",
        "DATEFORMAT", "DELIMITER", "ENCRYPTED", "EXTENSION", "FIXEDWIDTH", "IAM_ROLE",
        "IGNOREHEADER", "JSON", "MANIFEST", "MAXFILESIZE", "NULL", "PARALLEL", "PARTITION",
        "REGION", "ROWGROUPSIZE", "STATUPDATE", "TIMEFORMAT"]) with
    | some keyword => fileOptionBody keyword
    | none => expected "option")

/-! ## Copies -/

/-- Rows that stand in the text itself, up to their end mark; every step takes a token. -/
def inlineRows : Nat → Reader Unit
  | 0 => pure ()
  | steps + 1 => do
    match ← nextBeside with
    | none => pure ()
    | some l =>
      if l.token = .sign "\\" then
        unless ← takeSign "." do
          skip next
          inlineRows steps
      else inlineRows steps

/-- What is copied, and whether it is a query. -/
def copySource : Reader Bool := do
  if ← atSign "(" then
    skip (inParentheses inner.query)
    pure true
  else
    skip objectName
    skip columns?
    pure false

/-- Where a copy goes or comes from, and whether that is the text itself. -/
def copyTarget : Reader Bool := do
  match ← takeOneOf ["STDIN", "STDOUT", "PROGRAM"] with
  | some "STDIN" => pure true
  | some "STDOUT" => pure false
  | _ =>
    skip literalString
    pure false

def copying : Reader Unit := do
  let query ← copySource inner
  match ← takeOneOf ["FROM", "TO"] with
  | none => expected "FROM or TO"
  | some direction =>
    if query && direction = "FROM" then
      stop (.spoken "COPY ... FROM does not support query as a source" none)
    let inText ← copyTarget
    skip (takeKeyword "WITH")
    if ← atSign "(" then skip (inParentheses (commaList copyOption))
    skip (all fileOption?)
    if inText then
      expectSign ";"
      let ts ← get
      inlineRows ts.length

def unloading : Reader Unit := do
  inParentheses (do if ← atText then skip next else skip inner.query)
  expectKeyword "TO"
  skip ident
  skip (behind? ["IAM_ROLE"] fileRole)
  skip (optionsBehind inner ["WITH"])
  skip (all fileOption?)

def exporting : Reader Unit := do
  expectKeyword "DATA"
  skip (behind? ["WITH", "CONNECTION"] objectName)
  expectKeyword "OPTIONS"
  skip (inParentheses (commaList (objectOption inner)))
  expectKeyword "AS"
  skip inner.query

end Reader

end SemanticLayer.Tsql
