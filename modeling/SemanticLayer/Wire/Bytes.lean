import SemanticLayer.Text.Utf8
/-!
Numbers and identifiers in the byte sequences that servers send.
-/
namespace SemanticLayer.Wire

/-- The number whose digits to base 256 are given, the highest first. -/
def bigEndian (bytes : List UInt8) : Nat :=
  bytes.foldl (fun n b => n * 256 + b.toNat) 0

/-- The same with the highest bit as a sign. -/
def signedBigEndian (bytes : List UInt8) : Int :=
  (bigEndian bytes : Int).bmod (Nat.pow 2 (8 * bytes.length))

def sized? (length : Nat) (bytes : List UInt8) : Option (List UInt8) :=
  if bytes.length = length then some bytes else none

/-- The words of two bytes each; a last byte alone is left out. -/
def words : List UInt8 → List Nat
  | a :: b :: rest => bigEndian [a, b] :: words rest
  | _ => []

/-- The sixteen bytes of a unique identifier, in groups of 4, 2, 2, 2 and 6. -/
def uuidText (bytes : List UInt8) : String :=
  let part (start length : Nat) := Text.hex ((bytes.drop start).take length)
  part 0 4 ++ "-" ++ part 4 2 ++ "-" ++ part 6 2 ++ "-" ++ part 8 2 ++ "-" ++ part 10 6

end SemanticLayer.Wire
