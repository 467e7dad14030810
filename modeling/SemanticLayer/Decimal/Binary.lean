/-!
Binary floating-point numbers taken apart: sign, whole mantissa and power of two, and the exact
remainder of a division, which is computed on the parts.
-/
namespace SemanticLayer.Decimal

/-- The number `± mantissa · 2 ^ exponent`. -/
structure Binary where
  negative : Bool
  mantissa : Nat
  exponent : Int
  deriving DecidableEq, Repr

namespace Binary

/-- The least exponent of a 64-bit number: that of the subnormal ones. -/
def leastExponent : Int := -1074

/-- The parts of a finite number, with a mantissa below `2 ^ 53`. -/
def ofFloat (x : Float) : Binary :=
  let bits := x.toBits.toNat
  let raw := bits / Nat.pow 2 52 % Nat.pow 2 11
  let fraction := bits % Nat.pow 2 52
  { negative := bits / Nat.pow 2 63 == 1
    mantissa := if raw = 0 then fraction else fraction + Nat.pow 2 52
    exponent := if raw = 0 then leastExponent else leastExponent + (raw - 1 : Nat) }

/-- The number with the given parts, where it is one: the mantissa has at most 53 bits or ends in
enough zeros. -/
def toFloat (b : Binary) : Float :=
  let size := (Float.ofNat b.mantissa).scaleB b.exponent
  if b.negative then -size else size

/-- The remainder of the mantissas at a common power of two, with the sign of the dividend. -/
def rem (a b : Binary) : Binary :=
  let low := min a.exponent b.exponent
  { negative := a.negative
    mantissa := (a.mantissa * Nat.pow 2 (a.exponent - low).toNat) %
      (b.mantissa * Nat.pow 2 (b.exponent - low).toNat)
    exponent := low }

end Binary

/-- The remainder of `a` by `b` after a quotient cut off towards zero. It is exact, takes the sign
of `a`, and is not a number where `a` is infinite or `b` is zero. -/
def remainder (a b : Float) : Float :=
  if a.isNaN || b.isNaN || a.isInf || b == 0 then 0.0 / 0.0
  else if b.isInf then a
  else (Binary.rem (Binary.ofFloat a) (Binary.ofFloat b)).toFloat

end SemanticLayer.Decimal
