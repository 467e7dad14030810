import SemanticLayer.Json.Basic
import SemanticLayer.Decimal.Reading
/-!
The value of a number in JSON text. A number without point and exponent that fits 64 bits is whole.
Any other is floating-point: the leading digits that fit 64 bits without sign are its significand,
digits left out in front of the point count as powers of ten, and the scaling by a power of ten is
done in floating-point arithmetic, so that its last place may differ from the nearest number's.
-/
namespace SemanticLayer.Json

structure NumberText where
  negative : Bool
  whole : List Char
  fraction : Option (List Char)
  exponent : Option Int

/-- Takes digits onto the significand as long as it fits 64 bits; gives the significand, how many
digits were taken and the digits left. -/
def takeDigits (significand : Nat) (taken : Nat) : List Char → Nat × Nat × List Char
  | [] => (significand, taken, [])
  | c :: rest =>
    let next := significand * 10 + (c.toNat - '0'.toNat)
    if next < Nat.pow 2 64 then takeDigits next (taken + 1) rest else (significand, taken, c :: rest)

/-- `size · 10 ^ exponent`, one step of at most `10 ^ 308` at a time; none where it grows beyond
the finite numbers. -/
def scaled (size : Float) (exponent : Int) : Nat → Option Float
  | 0 => some size
  | steps + 1 =>
    if exponent.natAbs ≤ 308 then
      let power := Float.ofScientific 1 false exponent.natAbs
      if 0 ≤ exponent then
        let product := size * power
        if product.isInf then none else some product
      else some (size / power)
    else if size == 0 then some size
    else if 0 ≤ exponent then none
    else scaled (size / Float.ofScientific 1 false 308) (exponent + 308) steps

def NumberText.value? (t : NumberText) : Option Json :=
  let (whole, _, dropped) := takeDigits 0 0 t.whole
  let plain := t.fraction.isNone && t.exponent.isNone && dropped.isEmpty
  if plain && !t.negative then some (.int whole)
  else if plain && 0 < whole && whole ≤ Nat.pow 2 63 then some (.int (-(whole : Int)))
  else
    let (significand, places, _) := takeDigits whole 0 (t.fraction.getD [])
    let exponent := (dropped.length : Int) - places + t.exponent.getD 0
    (scaled (Float.ofScientific significand false 0) exponent 8).map fun size =>
      .float (if t.negative then -size else size)

end SemanticLayer.Json
