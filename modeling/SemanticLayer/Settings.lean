import SemanticLayer.Connection.Basic
import SemanticLayer.Query.Compile
import SemanticLayer.Toml.Reader
/-!
Settings: time allowed, limits on rows and sizes of pools, for all connections and for single ones, and the
application's own database. Where a file gives a section, what it leaves out of it takes the values that
apply without any file.
-/
namespace SemanticLayer

/-- The id under which the application's own database is configured. -/
def applicationId : String := "__app__"

/-- What a pool is kept under: the application's own database, or the id of a saved connection. -/
inductive PoolKey where
  | application
  | connection (id : String)
  deriving DecidableEq, Repr

/-- The key as text, under which its settings are looked up. -/
def PoolKey.text : PoolKey → String
  | application => applicationId
  | connection id => id

/-- Settings of compiled queries; times are in milliseconds. -/
structure QuerySettings where
  timeout : Nat
  limits : QueryLimits
  deriving DecidableEq

structure SandboxSettings where
  timeout : Nat
  rowLimit : Nat
  deriving DecidableEq

structure PoolSettings where
  size : Nat
  connectTimeout : Nat
  deriving DecidableEq

/-- Settings of the cache of database descriptions; the lifetime is in seconds. -/
structure CacheSettings where
  lifetime : Nat
  capacity : Nat
  deriving DecidableEq

/-- The settings that apply where a connection has none of its own. -/
structure DefaultSettings where
  query : QuerySettings
  sandbox : SandboxSettings
  pool : PoolSettings
  cache : CacheSettings

/-- The sections that a connection has of its own. -/
structure OwnSettings where
  query : Option QuerySettings
  sandbox : Option SandboxSettings
  pool : Option PoolSettings

structure ConnectionSettings where
  query : QuerySettings
  sandbox : SandboxSettings
  pool : PoolSettings
  deriving DecidableEq

structure ApplicationDatabase where
  database : Database
  host : String
  port : Option Nat
  catalogName : String
  username : String
  password : Option String
  /-- The environment variable that holds the password; it goes before the password given. -/
  passwordVariable : Option String
  encrypted : Bool

structure Settings where
  defaults : DefaultSettings
  connections : Dictionary OwnSettings
  application : Option ApplicationDatabase

/-! ## Without a file -/

def QuerySettings.usual : QuerySettings :=
  ⟨30000, .usual⟩

def SandboxSettings.usual : SandboxSettings :=
  ⟨30000, 1000⟩

def PoolSettings.usual : PoolSettings :=
  ⟨10, 10000⟩

def CacheSettings.usual : CacheSettings :=
  ⟨300, 100⟩

def DefaultSettings.usual : DefaultSettings :=
  ⟨.usual, .usual, .usual, .usual⟩

def Settings.usual : Settings :=
  ⟨.usual, .empty, none⟩

/-! ## Decoding -/

def Document.Fields.section? {α : Type} (f : Document.Fields) (name : String)
    (decode : Document → Option α) : Option (Option α) :=
  f.orElse name none fun d => (decode d).map some

def QuerySettings.ofDocument? (d : Document) : Option QuerySettings := do
  let f ← d.fields? ["timeout_ms", "max_row_limit", "default_row_limit", "distinct_value_limit"]
  let timeout ← f.orElse "timeout_ms" usual.timeout (Document.unsigned? 64)
  let greatest ← f.orElse "max_row_limit" usual.limits.greatest (Document.unsigned? 64)
  let standard ← f.orElse "default_row_limit" usual.limits.standard (Document.unsigned? 64)
  let distinct ← f.orElse "distinct_value_limit" usual.limits.distinct (Document.unsigned? 64)
  pure ⟨timeout, { standard, greatest, distinct }⟩

def SandboxSettings.ofDocument? (d : Document) : Option SandboxSettings := do
  let f ← d.fields? ["timeout_ms", "row_limit"]
  let timeout ← f.orElse "timeout_ms" usual.timeout (Document.unsigned? 64)
  let rowLimit ← f.orElse "row_limit" usual.rowLimit (Document.unsigned? 64)
  pure { timeout, rowLimit }

def PoolSettings.ofDocument? (d : Document) : Option PoolSettings := do
  let f ← d.fields? ["size", "connect_timeout_ms"]
  let size ← f.orElse "size" usual.size (Document.unsigned? 64)
  let connectTimeout ← f.orElse "connect_timeout_ms" usual.connectTimeout (Document.unsigned? 64)
  pure { size, connectTimeout }

def CacheSettings.ofDocument? (d : Document) : Option CacheSettings := do
  let f ← d.fields? ["ttl_secs", "max_size"]
  let lifetime ← f.orElse "ttl_secs" usual.lifetime (Document.unsigned? 64)
  let capacity ← f.orElse "max_size" usual.capacity (Document.unsigned? 64)
  pure { lifetime, capacity }

def DefaultSettings.ofDocument? (d : Document) : Option DefaultSettings := do
  let f ← d.fields? ["query", "sandbox", "pool", "schema_cache"]
  let query ← f.orElse "query" .usual QuerySettings.ofDocument?
  let sandbox ← f.orElse "sandbox" .usual SandboxSettings.ofDocument?
  let pool ← f.orElse "pool" .usual PoolSettings.ofDocument?
  let cache ← f.orElse "schema_cache" .usual CacheSettings.ofDocument?
  pure { query, sandbox, pool, cache }

def OwnSettings.ofDocument? (d : Document) : Option OwnSettings := do
  let f ← d.fields? ["query", "sandbox", "pool"]
  let query ← f.section? "query" QuerySettings.ofDocument?
  let sandbox ← f.section? "sandbox" SandboxSettings.ofDocument?
  let pool ← f.section? "pool" PoolSettings.ofDocument?
  pure { query, sandbox, pool }

/-- An engine by its exact name, or by a table with nothing but an empty entry of that name. -/
def Database.ofDocument? (d : Document) : Option Database :=
  match d with
  | .members [(some name, .members [])] => ofExactName? name
  | .members [(some name, .items [])] => ofExactName? name
  | d => d.choice?.bind ofExactName?

def ApplicationDatabase.ofDocument? (d : Document) : Option ApplicationDatabase := do
  let f ← d.fields?
    ["db_type", "host", "port", "database", "username", "password", "password_env", "ssl"]
  let database ← f.need "db_type" Database.ofDocument?
  let host ← f.need "host" Document.text?
  let port ← f.may "port" (Document.unsigned? 16)
  let catalogName ← f.need "database" Document.text?
  let username ← f.need "username" Document.text?
  let password ← f.may "password" Document.text?
  let passwordVariable ← f.may "password_env" Document.text?
  let encrypted ← f.orElse "ssl" false Document.bool?
  pure { database, host, port, catalogName, username, password, passwordVariable, encrypted }

def Settings.ofDocument? (d : Document) : Option Settings := do
  let f ← d.fields? ["defaults", "connections", "app_database"]
  let defaults ← f.orElse "defaults" .usual DefaultSettings.ofDocument?
  let connections ← f.orElse "connections" .empty (Document.dictionaryOf? OwnSettings.ofDocument?)
  let application ← f.section? "app_database" ApplicationDatabase.ofDocument?
  pure { defaults, connections, application }

/-! ## Encoding -/

def QuerySettings.toJson (s : QuerySettings) : Json :=
  .obj [("timeout_ms", .int s.timeout), ("max_row_limit", .int s.limits.greatest),
    ("default_row_limit", .int s.limits.standard),
    ("distinct_value_limit", .int s.limits.distinct)]

def SandboxSettings.toJson (s : SandboxSettings) : Json :=
  .obj [("timeout_ms", .int s.timeout), ("row_limit", .int s.rowLimit)]

def PoolSettings.toJson (s : PoolSettings) : Json :=
  .obj [("size", .int s.size), ("connect_timeout_ms", .int s.connectTimeout)]

def CacheSettings.toJson (s : CacheSettings) : Json :=
  .obj [("ttl_secs", .int s.lifetime), ("max_size", .int s.capacity)]

def DefaultSettings.toJson (s : DefaultSettings) : Json :=
  .obj [("query", s.query.toJson), ("sandbox", s.sandbox.toJson), ("pool", s.pool.toJson),
    ("schema_cache", s.cache.toJson)]

/-! ## Use -/

namespace Settings

/-- The settings of a connection: its own sections, and the default ones where it has none. -/
def forConnection (s : Settings) (id : String) : ConnectionSettings :=
  let own := s.connections.get? id
  { query := (own.bind OwnSettings.query).getD s.defaults.query
    sandbox := (own.bind OwnSettings.sandbox).getD s.defaults.sandbox
    pool := (own.bind OwnSettings.pool).getD s.defaults.pool }

/-- Refuses settings under which no query returns a row or no pool has a connection. -/
def validate (s : Settings) : Except Failure Unit := do
  let own := s.connections.entries.map Prod.snd
  let queries := s.defaults.query :: own.filterMap OwnSettings.query
  if queries.any fun q => q.limits.greatest = 0 || q.limits.standard = 0 then
    throw (.config "query row limits must be positive")
  let pools := s.defaults.pool :: own.filterMap OwnSettings.pool
  if pools.any fun p => p.size = 0 then
    throw (.config "pool size must be positive")

def ofToml (text : String) : Except Failure Settings :=
  match (Toml.read? text).bind ofDocument? with
  | some s => do
    s.validate
    pure s
  | none => .error (.config "failed to parse config")

/-- The settings of the first file that is there and can be used. -/
def firstUsable : List (Option String) → Settings
  | [] => usual
  | none :: rest => firstUsable rest
  | some text :: rest =>
    match ofToml text with
    | .ok s => s
    | .error _ => firstUsable rest

end Settings

namespace ApplicationDatabase

def connection (a : ApplicationDatabase) (environment : String → Option String) :
    Except Failure Connection := do
  let secret ← match a.passwordVariable with
    | some name =>
      match environment name with
      | some value => pure (some value)
      | none => throw (.config ("app database password variable " ++ name ++ " is not set"))
    | none => pure a.password
  pure { Connection.new applicationId a.database a.host a.catalogName a.username with
    name := "application database"
    port := a.port
    secret := secret
    encrypted := a.encrypted }

end ApplicationDatabase

end SemanticLayer
