import SemanticLayer.Text.Number
import SemanticLayer.Wire.Bytes
/-!
PostgreSQL's NUMERIC in binary form: digits to base 10000, the power of 10000 of the first of them,
a sign word and the number of decimal places to show. Groups of zeros at either end may be left
out.
-/
namespace SemanticLayer.Wire.Postgres

/-- A number as it is sent. -/
structure Numeric where
  groups : List Nat
  weight : Int
  sign : Nat
  scale : Nat
  deriving DecidableEq, Repr

namespace Numeric

/-- The number of a byte sequence; none where it ends before the digits that it announces. What
follows them is left out. -/
def ofBytes? (bytes : List UInt8) : Option Numeric :=
  match words bytes with
  | count :: weight :: sign :: scale :: rest =>
    if rest.length < count then none
    else some ⟨rest.take count, (weight : Int).bmod (Nat.pow 2 16), sign, scale⟩
  | _ => none

/-- The group at a place; the first has place 0. -/
def group (n : Numeric) (place : Int) : Nat :=
  if place < 0 then 0 else n.groups.getD place.toNat 0

/-- The digits in front of the point: the first group without leading zeros. -/
def whole (n : Numeric) : List Char :=
  if n.weight < 0 then ['0']
  else
    Text.digits (n.group 0) ++
      (List.range n.weight.toNat).flatMap fun i => Text.padded 4 (n.group (i + 1 : Nat))

/-- The digits behind the point, as many as are to be shown. -/
def fraction (n : Numeric) : List Char :=
  ((List.range (n.scale / 4 + 1)).flatMap fun i =>
    Text.padded 4 (n.group (n.weight + 1 + (i : Nat)))).take n.scale

/-- The words of the sign for what is not a finite number. -/
def special? (n : Numeric) : Option String :=
  if n.sign = 0xC000 then some "NaN"
  else if n.sign = 0xD000 then some "Infinity"
  else if n.sign = 0xF000 then some "-Infinity"
  else none

/-- Whether a minus is written: zero has none. -/
def isNegative (n : Numeric) : Bool :=
  n.sign == 0x4000 && n.groups.any (· != 0)

def text (n : Numeric) : String :=
  match n.special? with
  | some word => word
  | none =>
    let sign := if n.isNegative then ['-'] else []
    let places := if n.scale = 0 then [] else '.' :: n.fraction
    String.ofList (sign ++ n.whole ++ places)

end Numeric

end SemanticLayer.Wire.Postgres
