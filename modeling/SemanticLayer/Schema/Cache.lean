/-!
A bounded cache whose entries expire. Into a full cache a new entry comes in place of those that
have expired, or else of the one that is to expire first.
-/
namespace SemanticLayer

/-- A value and the reading of the clock at which it expires. -/
structure Cached (α : Type) where
  value : α
  expires : Nat
  deriving DecidableEq

def Cached.isLive {α : Type} (c : Cached α) (now : Nat) : Bool :=
  now < c.expires

/-- Values by key, at most `capacity` of them, which expire `lifetime` after they came in. -/
structure Cache (κ α : Type) where
  capacity : Nat
  lifetime : Nat
  entries : List (κ × Cached α)

namespace Cache

variable {κ α : Type} [DecidableEq κ]

def empty (capacity lifetime : Nat) : Cache κ α :=
  ⟨capacity, lifetime, []⟩

/-- The number of entries, expired ones included. -/
def size (c : Cache κ α) : Nat :=
  c.entries.length

def entry? (c : Cache κ α) (key : κ) : Option (Cached α) :=
  c.entries.lookup key

/-- The value of a key that has not expired. -/
def get? (c : Cache κ α) (now : Nat) (key : κ) : Option α :=
  ((c.entry? key).filter fun e => e.isLive now).map Cached.value

def erase (c : Cache κ α) (key : κ) : Cache κ α :=
  { c with entries := c.entries.filter fun e => e.1 ≠ key }

def dropExpired (c : Cache κ α) (now : Nat) : Cache κ α :=
  { c with entries := c.entries.filter fun e => e.2.isLive now }

/-- The first of the entries that expire before all others. -/
def soonest? : List (κ × Cached α) → Option (κ × Cached α)
  | [] => none
  | e :: rest =>
    match soonest? rest with
    | none => some e
    | some f => if f.2.expires < e.2.expires then some f else some e

def dropSoonest (c : Cache κ α) : Cache κ α :=
  match soonest? c.entries with
  | some e => c.erase e.1
  | none => c

def makeRoom (c : Cache κ α) (now : Nat) : Cache κ α :=
  if c.size < c.capacity then c
  else
    -- expired entries go first, and only a cache that is full of live ones loses one of them
    let live := c.dropExpired now
    if live.size < live.capacity then live else live.dropSoonest

/-- Puts a value under a key. A key that is there already needs no room, and a cache without
capacity keeps nothing. -/
def insert (c : Cache κ α) (now : Nat) (key : κ) (value : α) : Cache κ α :=
  if c.capacity = 0 then c
  else
    let roomy := if (c.entry? key).isSome then c else c.makeRoom now
    { roomy with entries := (key, ⟨value, now + c.lifetime⟩) :: (roomy.erase key).entries }

def clear (c : Cache κ α) : Cache κ α :=
  { c with entries := [] }

end Cache

end SemanticLayer
