import SemanticLayer.Decimal.Reading
import SemanticLayer.Failure
/-!
What can go wrong while a statement runs, as each server and its driver say it. A report of a PostgreSQL server that
lacks a field it has to have, or whose position is no number, cannot be read.
-/
namespace SemanticLayer.Wire.MySql

inductive Fault where
  /-- The server reports a failure. -/
  | server (code : Nat) (message : String)
  /-- The connection fails; the text is the transport's. -/
  | io (text : String)
  /-- The client's side gives up. -/
  | client (text : String)
  deriving DecidableEq, Repr

/-- The text of a connection that is closed when a statement is to run on it. -/
def Fault.closed : Fault :=
  .client "Driver error: \x60Connection to the server is closed.'"

/-- The text that the transport puts in front of its own. -/
def ioText (text : String) : String :=
  "Input/output error: " ++ text

def Fault.toFailure : Fault → Failure
  | server code message => .execution ⟨message, some (toString code), none⟩
  | io text => .connection ("mysql io error: " ++ text)
  | client text => .execution (.ofText text)

end SemanticLayer.Wire.MySql

namespace SemanticLayer.Wire.SqlServer

inductive Fault where
  | server (code : Nat) (message : String)
  /-- The connection fails, in the way that the transport names. -/
  | io (way text : String)
  /-- The server refers to another one. -/
  | routing (host : String) (port : Nat)
  | protocol (text : String)
  | conversion (text : String)
  | tls (text : String)
  | utf8
  | utf16
  deriving DecidableEq, Repr

def Fault.toFailure : Fault → Failure
  | server code message => .execution ⟨message, some (toString code), none⟩
  | io way text => .connection ("sql server io error (" ++ way ++ "): " ++ text)
  | routing host port =>
    .connection ("sql server redirected to " ++ host ++ ":" ++ toString port)
  | protocol text => .execution (.ofText ("Protocol error: " ++ text))
  | conversion text => .execution (.ofText ("Conversion error: " ++ text))
  | tls text => .execution (.ofText ("Error forming TLS connection: " ++ text))
  | utf8 => .execution (.ofText "UTF-8 error")
  | utf16 => .execution (.ofText "UTF-16 error")

/-- The fault of a server that closes the connection in the middle of an answer. -/
def Fault.hangup : Fault :=
  .io "UnexpectedEof" "No more packets in the wire"

end SemanticLayer.Wire.SqlServer

namespace SemanticLayer.Wire.Postgres

/-- The fields of a report as they are sent. -/
structure Report where
  severity : Option String
  code : Option String
  message : Option String
  position : Option String
  /-- The place in a statement that the server made itself, and that statement. -/
  internalPosition : Option String
  internalQuery : Option String
  deriving DecidableEq, Repr

namespace Report

def readPosition? : Option String → Option (Option Nat)
  | none => some none
  | some s => (Decimal.readUnsigned? 32 s.toList).map some

/-- The failure that a readable report stands for. -/
def detail? (r : Report) : Option ExecutionFailure := do
  let _ ← r.severity
  let code ← r.code
  let text ← r.message
  let own ← readPosition? r.position
  let inner ← readPosition? r.internalPosition
  match own, inner with
  | none, some p =>
    let _ ← r.internalQuery
    pure ⟨text, some code, some p⟩
  | p, _ => pure ⟨text, some code, p⟩

def toFailure (r : Report) : Failure :=
  .execution (r.detail?.getD (.ofText "error parsing response from server"))

end Report

def hangup : Failure :=
  .connection "postgres connection closed: connection closed"

end SemanticLayer.Wire.Postgres
