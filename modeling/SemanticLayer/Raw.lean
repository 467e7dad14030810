import SemanticLayer.ResultSet
import SemanticLayer.Sandbox
import SemanticLayer.Settings
import SemanticLayer.Sql.RowLimit
/-!
Statements that users write, as they are run: let through the gate, limited in their rows, and with the
places that a database complains about found again in the text that was sent.
-/
namespace SemanticLayer

structure RawRequest where
  sql : String
  connectionId : Option String
  deriving DecidableEq

def RawRequest.ofDocument? (d : Document) : Option RawRequest := do
  let f ← d.fields? ["sql", "connectionId"]
  let sql ← f.need "sql" Document.text?
  let connectionId ← f.may "connectionId" Document.text?
  pure { sql, connectionId }

/-- The rows of a statement; `truncated` says that there may be more. -/
structure RawReply where
  result : ResultSet
  truncated : Bool
  database : Database

namespace Raw

/-- The statement in a text, and the form of it that is run. -/
structure Statement where
  own : String
  limited : String
  deriving DecidableEq

def prepare (db : Database) (settings : SandboxSettings) (sql : String) :
    Except Failure Statement := do
  let own ← (Sandbox.validate db sql).mapError Sandbox.Refusal.toFailure
  let limited ← db.limitRows own settings.rowLimit
  pure ⟨own, limited⟩

/-- The characters in front of the first occurrence of a text in another one. -/
def offset? (part : List Char) : List Char → Option Nat
  | [] => if part.isEmpty then some 0 else none
  | c :: rest =>
    if part.isPrefixOf (c :: rest) then some 0 else (offset? part rest).map (· + 1)

/-- The place in the request of a place in the statement that ran. Places in what was put around the
user's own statement have none. -/
def place? (sql : String) (s : Statement) (position : Nat) : Option Nat := do
  let front ← offset? s.own.toList s.limited.toList
  let leading := (offset? s.own.toList sql.toList).getD 0
  if front < position ∧ position ≤ front + s.own.length then some (position - front + leading)
  else none

/-- A failure of the statement that ran, told in terms of the request. -/
def explain (sql : String) (s : Statement) : Failure → Failure
  | .execution e => .execution { e with position := e.position.bind (place? sql s) }
  | f => f

/-- The reply to a request. As many rows as are allowed may not be all. -/
def reply (db : Database) (settings : SandboxSettings) (result : ResultSet) : RawReply where
  result := result
  truncated := settings.rowLimit ≤ result.rows.length
  database := db

def run (db : Database) (settings : SandboxSettings) (sql : String)
    (execute : String → Except Failure ResultSet) : Except Failure RawReply := do
  let s ← prepare db settings sql
  let result ← (execute s.limited).mapError (explain sql s)
  pure (reply db settings result)

end Raw

end SemanticLayer
