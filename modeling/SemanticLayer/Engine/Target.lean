import SemanticLayer.Connection.Catalog
import SemanticLayer.Raw
import SemanticLayer.Registry.Basic
/-!
What the engine is set up with, and what a request is bound to before a pool is touched: the connection
it runs on and the statement.
-/
namespace SemanticLayer

/-- How the catalog answers. Where it fails, it gives this failure. -/
structure CatalogAccess where
  get : Option Failure
  default : Option Failure
  /-- Whether outcomes of tests are kept; that they cannot be kept is passed over. -/
  records : Bool

def CatalogAccess.open : CatalogAccess :=
  ⟨none, none, true⟩

structure Engine where
  registry : Registry
  settings : Settings
  /-- The application's own database. -/
  application : Option Connection
  access : CatalogAccess

/-- A connection chosen for a request, and the key of its pool. -/
structure Target where
  key : PoolKey
  connection : Connection
  deriving DecidableEq

def Target.ofConnection (c : Connection) : Target :=
  ⟨.connection c.id, c⟩

/-- A compiled request and where it runs. -/
structure PreparedQuery where
  target : Target
  compiled : CompiledQuery

namespace Engine

/-- Sets an engine up. The password of the application's own database is looked up in the
environment. -/
def make (registry : Registry) (settings : Settings) (access : CatalogAccess)
    (environment : String → Option String) : Except Failure Engine := do
  let application ← settings.application.mapM fun a => a.connection environment
  pure ⟨registry, settings, application, access⟩

/-- Gives a value unless the catalog fails. -/
def unlessFailing {α : Type} (failure : Option Failure) (value : α) : Except Failure α :=
  match failure with
  | some f => .error f
  | none => .ok value

def saved (e : Engine) (catalog : Catalog) (id : String) : Except Failure (Option Connection) :=
  unlessFailing e.access.get (catalog.get? id)

def missing (id : String) : Failure :=
  .validation ("connection '" ++ id ++ "' does not exist")

/-- Chooses the connection of a request: the one it names, or else the default one, or else the
application's own database. -/
def resolve (e : Engine) (catalog : Catalog) (id : Option String) : Except Failure Target :=
  match id with
  | some id => do
    match ← e.saved catalog id with
    | none => throw (missing id)
    | some c =>
      if c.isActive then pure (.ofConnection c)
      else throw (.validation ("connection '" ++ id ++ "' is inactive"))
  | none => do
    match ← unlessFailing e.access.default catalog.default? with
    | some c => pure (.ofConnection c)
    | none =>
      match e.application with
      | some c => pure ⟨.application, c⟩
      | none =>
        throw (.config ("no connection given, no default connection and no application database " ++
          "configured"))

def settingsOf (e : Engine) (key : PoolKey) : ConnectionSettings :=
  e.settings.forConnection key.text

def source (e : Engine) (name : String) : Except Failure Source :=
  match e.registry.get? name with
  | some s => .ok s
  | none => .error (.validation ("unknown source '" ++ name ++ "'"))

def prepare (e : Engine) (catalog : Catalog) (request : Request) : Except Failure PreparedQuery := do
  let source ← e.source request.source
  let target ← e.resolve catalog (request.connectionId <|> source.connectionId)
  let limits := (e.settingsOf target.key).query.limits
  let compiled ← source.compile limits target.connection.database request
  pure ⟨target, compiled⟩

def prepareValues (e : Engine) (catalog : Catalog) (source field : String) (id : Option String) :
    Except Failure (Target × String) := do
  let source ← e.source source
  let target ← e.resolve catalog (id <|> source.connectionId)
  let limits := (e.settingsOf target.key).query.limits
  let select ← source.distinctValues limits field
  pure (target, select.render target.connection.database)

/-- The connection for a user's statement. A statement that the gate refuses makes no pool. -/
def prepareRaw (e : Engine) (catalog : Catalog) (request : RawRequest) : Except Failure Target := do
  let target ← e.resolve catalog request.connectionId
  let _ ← (Sandbox.validate target.connection.database request.sql).mapError
    Sandbox.Refusal.toFailure
  pure target

end Engine

end SemanticLayer
