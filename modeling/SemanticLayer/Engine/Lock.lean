/-!
The locks that tasks hold while they look at something they share, or change it.
-/
namespace SemanticLayer

/-- A lock that several tasks may hold to read, or one to write. -/
structure SharedLock where
  readers : List Nat
  writer : Option Nat
  deriving DecidableEq

namespace SharedLock

def free : SharedLock :=
  ⟨[], none⟩

def holders (l : SharedLock) : List Nat :=
  l.writer.toList ++ l.readers

def read (l : SharedLock) (task : Nat) : SharedLock :=
  { l with readers := task :: l.readers }

def endRead (l : SharedLock) (task : Nat) : SharedLock :=
  { l with readers := l.readers.filter fun t => t ≠ task }

def write (l : SharedLock) (task : Nat) : SharedLock :=
  { l with writer := some task }

def endWrite (l : SharedLock) : SharedLock :=
  { l with writer := none }

end SharedLock

end SemanticLayer
