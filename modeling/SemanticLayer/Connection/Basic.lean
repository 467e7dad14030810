import SemanticLayer.Calendar.Stamp
import SemanticLayer.Database
import SemanticLayer.Document
import SemanticLayer.Model.Request
import SemanticLayer.Text.Shown
/-!
Saved connections. The password is kept with a connection but never shown: neither the JSON form nor
the form for programmers holds it.
-/
namespace SemanticLayer

inductive ConnectionStatus where
  | untested
  | connected
  | failed
  deriving DecidableEq, Repr

def ConnectionStatus.name : ConnectionStatus → String
  | untested => "untested"
  | connected => "connected"
  | failed => "failed"

def ConnectionStatus.ofName? : String → Option ConnectionStatus
  | "untested" => some untested
  | "connected" => some connected
  | "failed" => some failed
  | _ => none

structure Connection where
  id : String
  name : String
  database : Database
  host : String
  port : Option Nat
  /-- The name of the database on the server. -/
  catalogName : String
  username : String
  secret : Option String
  encrypted : Bool
  isDefault : Bool
  isActive : Bool
  status : ConnectionStatus
  testedAt : Option Calendar.Stamp
  lastError : Option String
  deriving DecidableEq

namespace Connection

/-- A connection that was never tested, under its id as its name. -/
def new (id : String) (database : Database) (host catalogName username : String) : Connection where
  id := id
  name := id
  database := database
  host := host
  port := none
  catalogName := catalogName
  username := username
  secret := none
  encrypted := false
  isDefault := false
  isActive := true
  status := .untested
  testedAt := none
  lastError := none

/-- The port to connect to: the engine's own one unless another is set. -/
def effectivePort (c : Connection) : Nat :=
  c.port.getD c.database.defaultPort

/-- What decides which server a pool talks to and as whom. -/
structure Endpoint where
  database : Database
  host : String
  port : Nat
  catalogName : String
  username : String
  secret : Option String
  encrypted : Bool
  deriving DecidableEq

def endpoint (c : Connection) : Endpoint where
  database := c.database
  host := c.host
  port := c.effectivePort
  catalogName := c.catalogName
  username := c.username
  secret := c.secret
  encrypted := c.encrypted

/-- Whether a pool made for one connection serves the other. Names, flags and test results do not
matter. -/
def sameEndpoint (a b : Connection) : Bool :=
  a.endpoint = b.endpoint

def ofDocument? (d : Document) : Option Connection := do
  let f ← d.fields?
    ["id", "name", "dbType", "host", "port", "database", "username", "encryptedPassword", "ssl",
      "isDefault", "isActive", "status", "lastTestedAt", "lastError"]
  let id ← f.need "id" Document.text?
  let name ← f.need "name" Document.text?
  let database ← f.need "dbType" fun d => d.choice?.bind Database.ofExactName?
  let host ← f.need "host" Document.text?
  let port ← f.may "port" (Document.unsigned? 16)
  let catalogName ← f.need "database" Document.text?
  let username ← f.need "username" Document.text?
  let secret ← f.may "encryptedPassword" Document.text?
  let encrypted ← f.orElse "ssl" false Document.bool?
  let isDefault ← f.orElse "isDefault" false Document.bool?
  let isActive ← f.orElse "isActive" true Document.bool?
  let status ← f.orElse "status" .untested fun d => d.choice?.bind ConnectionStatus.ofName?
  let testedAt ← f.may "lastTestedAt" fun d => d.text?.bind Calendar.Stamp.read?
  let lastError ← f.may "lastError" Document.text?
  pure
    { id, name, database, host, port, catalogName, username, secret, encrypted, isDefault, isActive
      status, testedAt, lastError }

/-- All fields but the secret. -/
def fields (c : Connection) : Record :=
  [("id", .str c.id), ("name", .str c.name), ("dbType", .str c.database.name),
    ("host", .str c.host), ("port", .ofNat? c.port), ("database", .str c.catalogName),
    ("username", .str c.username), ("ssl", .bool c.encrypted), ("isDefault", .bool c.isDefault),
    ("isActive", .bool c.isActive), ("status", .str c.status.name),
    ("lastTestedAt", .ofText? (c.testedAt.map Calendar.Stamp.text)),
    ("lastError", .ofText? c.lastError)]

def toJson (c : Connection) : Json :=
  .obj c.fields

def shownDatabase : Database → String
  | .postgresql => "Postgresql"
  | .mssql => "Mssql"
  | .mysql => "Mysql"

def shownStatus : ConnectionStatus → String
  | .untested => "Untested"
  | .connected => "Connected"
  | .failed => "Failed"

/-- The form for programmers, which leaves the secret and the test's details out. -/
def shown (c : Connection) : String :=
  let port := match c.port with
    | some p => "Some(" ++ toString p ++ ")"
    | none => "None"
  let fields := [("id", Text.shown c.id), ("name", Text.shown c.name),
    ("db_type", shownDatabase c.database), ("host", Text.shown c.host), ("port", port),
    ("database", Text.shown c.catalogName), ("username", Text.shown c.username),
    ("ssl", toString c.encrypted), ("is_default", toString c.isDefault),
    ("is_active", toString c.isActive), ("status", shownStatus c.status)]
  "ConnectionDescriptor \x7b " ++ String.join (fields.map fun f => f.1 ++ ": " ++ f.2 ++ ", ") ++
    ".. \x7d"

end Connection

end SemanticLayer
