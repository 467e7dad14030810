import SemanticLayer.Connection.Basic
import SemanticLayer.ResultSet
import SemanticLayer.Settings
import SemanticLayer.Wire.Fault
/-!
A pool of connections to a server, as statements that follow one another use it. A connection is made when
a statement needs one, and goes back to the pool behind the statement unless the engine cannot use it any
more.
-/
namespace SemanticLayer.Wire

/-- What keeps an attempt to connect from reaching a server. -/
inductive Barrier where
  | refused
  | unreachable
  deriving DecidableEq, Repr

/-- The text of the operating system. -/
def Barrier.text : Barrier → String
  | refused => "Connection refused (os error 111)"
  | unreachable => "Network is unreachable (os error 101)"

inductive Reach where
  | accepted
  | barred (barrier : Barrier)
  /-- The server accepts but never speaks. -/
  | silent
  deriving DecidableEq, Repr

inductive Response where
  | result (result : ResultSet)
  /-- It reports a failure; the connection stays. -/
  | fault (failure : Failure)
  /-- It closes the connection. -/
  | hangup
  | never

/-- A server without encryption. -/
structure Server where
  /-- What becomes of the attempt with the given number to connect. -/
  reach : Nat → Reach
  /-- Why nobody may log in, if so. -/
  login : Option Failure
  response : String → Response

/-- A connection that is open; `alive` says that the server has not closed it. -/
structure Session where
  number : Nat
  alive : Bool
  deriving DecidableEq

/-- A pool between statements. -/
structure Pool where
  connection : Connection
  settings : PoolSettings
  idle : Option Session
  attempts : Nat
  closed : Bool
  seen : List String

namespace Pool

/-- The pool of a connection. Nothing is sent yet. -/
def make (connection : Connection) (settings : PoolSettings) : Except Failure Pool :=
  if connection.database = .postgresql ∧ connection.catalogName = "" then
    .error (.connection
      "create postgres pool: Config: configuration property \"dbname\" not found")
  else .ok ⟨connection, settings, none, 0, false, []⟩

def see (p : Pool) (line : String) : Pool :=
  { p with seen := p.seen ++ [line] }

/-- A failure to get a connection, with the words that the engine puts in front. -/
def getFailure (p : Pool) (text : String) : Failure :=
  match p.connection.database with
  | .postgresql => .connection ("get postgres connection: " ++ text)
  | .mysql => .connection ("get mysql connection: " ++ text)
  | .mssql => .connection ("get sql server connection: " ++ text)

def barredFailure (p : Pool) (barrier : Barrier) : Failure :=
  match p.connection.database with
  | .postgresql =>
    p.getFailure "Error occurred while creating a new object: error connecting to server"
  | .mysql => p.getFailure (MySql.ioText (MySql.ioText barrier.text))
  | .mssql => .connection ("connect to sql server: " ++ barrier.text)

def silentFailure (p : Pool) : Failure :=
  let late := "timed out after " ++ toString p.settings.connectTimeout ++ " ms"
  match p.connection.database with
  | .postgresql => p.getFailure "Timeout occurred while creating a new object"
  | .mysql => p.getFailure late
  | .mssql => .connection ("connect to sql server: " ++ late)

def closedFailure (p : Pool) : Failure :=
  match p.connection.database with
  | .mysql => p.getFailure "Driver error: \x60Pool was disconnected.'"
  | _ => p.getFailure "Pool has been closed"

def loginLine (p : Pool) : String :=
  let c := p.connection
  match c.database with
  | .postgresql =>
    "login application_name=lumen database=" ++ c.catalogName ++ " user=" ++ c.username
  | .mysql => "login database=" ++ c.catalogName ++ " user=" ++ c.username
  | .mssql =>
    "login application_name=lumen database=" ++ c.catalogName ++ " password=" ++
      c.secret.getD "" ++ " user=" ++ c.username

/-- Why a server without encryption cannot serve a connection that asks for it. -/
def encryptionFailure? (p : Pool) : Option Failure :=
  if !p.connection.encrypted then none
  else
    match p.connection.database with
    | .postgresql =>
      some (p.getFailure
        "Error occurred while creating a new object: error performing TLS handshake")
    | .mysql =>
      some (p.getFailure
        "Driver error: \x60Client asked for SSL but server does not have this capability'")
    | .mssql => none

/-- Connects to the server. Only the first login is seen. -/
def connect (p : Pool) (server : Server) : Pool × Except Failure Session :=
  let tried := { p with attempts := p.attempts + 1 }
  match server.reach p.attempts with
  | .barred barrier => (tried, .error (p.barredFailure barrier))
  | .silent => (tried, .error p.silentFailure)
  | .accepted =>
    match p.encryptionFailure? with
    | some f =>
      (if p.connection.database = .postgresql then tried.see "tls request" else tried, .error f)
    | none =>
      -- the server keeps one line for all logins alike
      let greeted := if p.seen.contains p.loginLine then tried else tried.see p.loginLine
      match server.login with
      | some f => (greeted, .error f)
      | none => (greeted, .ok ⟨p.attempts, true⟩)

/-- Whether a connection that comes back from the pool can be used. SQL Server is asked. -/
def usable (p : Pool) (server : Server) (s : Session) : Pool × Bool :=
  match p.connection.database with
  | .mssql =>
    if s.alive then
      (p.see "SELECT 1", match server.response "SELECT 1" with | .result _ => true | _ => false)
    else (p, false)
  | _ => (p, s.alive)

def get (p : Pool) (server : Server) : Pool × Except Failure Session :=
  if p.closed then (p, .error p.closedFailure)
  else if p.connection.database = .postgresql ∧ p.settings.size = 0 then
    (p, .error (p.getFailure "Timeout occurred while waiting for a slot to become available"))
  else
    match p.idle with
    | none => p.connect server
    | some s =>
      let (asked, fine) := { p with idle := none }.usable server s
      if fine then (asked, .ok s) else asked.connect server

def hangupFailure (p : Pool) : Failure :=
  match p.connection.database with
  | .postgresql => Postgres.hangup
  | .mysql => (MySql.Fault.io (MySql.ioText "connection closed")).toFailure
  | .mssql => SqlServer.Fault.hangup.toFailure

/-- Stops a statement that has run out of its time. PostgreSQL is told by the way, MySQL on another
connection of the pool, and on SQL Server the connection is dropped. Where MySQL has no other connection
to give, the call waits for ever. -/
def stop (p : Pool) (server : Server) (s : Session) : Option Pool :=
  match p.connection.database with
  | .postgresql =>
    let tried := { p with attempts := p.attempts + 1, idle := some s }
    some (match server.reach p.attempts with
      | .accepted => tried.see "cancel request"
      | _ => tried)
  | .mysql =>
    -- the connection that runs the statement is the only one there is
    if p.settings.size ≤ 1 then none
    else
      match p.connect server with
      | (connected, .ok other) =>
        some { connected.see ("KILL QUERY " ++ toString (8 + s.number)) with idle := some other }
      | (failed, .error _) => some failed
  | .mssql => some p

/-- Runs a statement that may take `limit` milliseconds; there is no outcome if the call never comes
back. -/
def execute (p : Pool) (server : Server) (sql : String) (limit : Nat) :
    Pool × Option (Except Failure ResultSet) :=
  match p.get server with
  | (p, .error f) => (p, some (.error f))
  | (p, .ok s) =>
    let sent := p.see sql
    match server.response sql with
    | .result r => ({ sent with idle := some s }, some (.ok r))
    | .fault f => ({ sent with idle := some s }, some (.error f))
    | .hangup => ({ sent with idle := some { s with alive := false } }, some (.error p.hangupFailure))
    | .never =>
      match sent.stop server s with
      | some stopped => (stopped, some (.error (.timeout limit)))
      | none => (sent, none)

def close (p : Pool) : Pool :=
  { p with closed := true, idle := none }

def executeAll (p : Pool) (server : Server) (limit : Nat) :
    List String → Pool × List (Option (Except Failure ResultSet))
  | [] => (p, [])
  | sql :: rest =>
    let (p, outcome) := p.execute server sql limit
    let (p, outcomes) := p.executeAll server limit rest
    (p, outcome :: outcomes)

end Pool

end SemanticLayer.Wire
