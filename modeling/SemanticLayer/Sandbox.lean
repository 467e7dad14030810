import SemanticLayer.Failure
import SemanticLayer.Sql.Lexer
import SemanticLayer.Sql.Statement
/-!
The gate for SQL that users write: one statement that reads. It looks at tokens, so a keyword in a
text, a quoted name or a comment does not count.
-/
namespace SemanticLayer.Sandbox

def openingWords : List String :=
  ["SELECT", "WITH"]

def blockedWords : List String :=
  ["INSERT", "UPDATE", "DELETE", "DROP", "ALTER", "CREATE", "TRUNCATE", "GRANT", "REVOKE",
    "EXEC", "EXECUTE", "MERGE", "CALL", "INTO"]

/-- The word of a list that a token spells without quotes, in letters of any case. -/
def listed? (words : List String) : Sql.Token → Option String
  | .word text none => words.find? fun w => Text.sameLetters w.toList text.toList
  | _ => none

inductive Refusal where
  | empty
  | unreadable (fault : Sql.LexicalFault) (place : Sql.Place)
  | notReading
  | severalStatements
  | blocked (word : String)
  deriving DecidableEq, Repr

def Refusal.reason : Refusal → String
  | empty => "empty statement"
  | unreadable fault place => "unable to read statement: " ++ Sql.describeFault (fault, place)
  | notReading => "only SELECT or WITH statements are allowed"
  | severalStatements => "multiple statements are not allowed"
  | blocked word => word ++ " is not allowed"

def Refusal.toFailure (r : Refusal) : Failure :=
  .sandbox r.reason

/-- Checks the tokens behind the opening word. Behind a semicolon there may be none. -/
def checkRest : List Sql.Token → Except Refusal Unit
  | [] => .ok ()
  | .sign ";" :: rest => if rest.isEmpty then .ok () else .error .severalStatements
  | token :: rest =>
    match listed? blockedWords token with
    | some word => .error (.blocked word)
    | none => checkRest rest

def checkTokens : List Sql.Token → Except Refusal Unit
  | [] => .error .notReading
  | token :: rest =>
    if (listed? openingWords token).isSome then checkRest rest else .error .notReading

def significant (db : Database) (s : List Char) : Except Refusal (List Sql.Token) :=
  match (Sql.LexicalRules.ofDatabase db).lexemes s with
  | .ok lexemes => .ok ((lexemes.map Sql.Lexeme.token).filter (· ≠ .gap))
  | .error (fault, place) => .error (.unreadable fault place)

/-- The statement that a text holds, without blanks around it and semicolons behind it. -/
def validate (db : Database) (sql : String) : Except Refusal String :=
  let statement := Statement.withoutSemicolons sql.toList
  if statement.isEmpty then .error .empty
  else do
    let tokens ← significant db statement
    checkTokens tokens
    pure (String.ofList statement)

end SemanticLayer.Sandbox
