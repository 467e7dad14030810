import SemanticLayer.Connection.Basic
/-!
The catalog of saved connections. At most one connection is the default: a new one takes the flag
from every other.
-/
namespace SemanticLayer

structure Catalog where
  connections : Dictionary Connection

structure TestOutcome where
  status : ConnectionStatus
  testedAt : Calendar.Stamp
  error : Option String
  deriving DecidableEq

namespace Catalog

def empty : Catalog :=
  ⟨.empty⟩

def withoutDefault (c : Catalog) : Catalog :=
  ⟨c.connections.map fun _ d => { d with isDefault := false }⟩

def upsert (c : Catalog) (connection : Connection) : Catalog :=
  let others := if connection.isDefault then c.withoutDefault else c
  ⟨others.connections.insert connection.id connection⟩

def ofConnections (connections : List Connection) : Catalog :=
  connections.foldl upsert empty

def remove (c : Catalog) (id : String) : Catalog :=
  ⟨c.connections.erase id⟩

def get? (c : Catalog) (id : String) : Option Connection :=
  c.connections.get? id

/-- The default connection, if it is active. -/
def default? (c : Catalog) : Option Connection :=
  (c.connections.entries.map Prod.snd).find? fun d => d.isDefault && d.isActive

def tested (outcome : TestOutcome) (connection : Connection) : Connection :=
  { connection with
    status := outcome.status
    testedAt := some outcome.testedAt
    lastError := outcome.error }

/-- Keeps the outcome of a test with its connection, if there is one. -/
def record (c : Catalog) (id : String) (outcome : TestOutcome) : Catalog :=
  ⟨c.connections.alter id (tested outcome)⟩

end Catalog

end SemanticLayer
