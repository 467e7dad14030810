import SemanticLayer.Decimal.Binary
/-!
The fewest decimal digits that read back as a given floating-point number. A number stands for the
interval of reals that round to it; among the points of the decimal grids the first grid of
1, 2, …, 17 digits with a point in the interval decides the number of digits, and of its points
the one nearest to the number is taken.
-/
namespace SemanticLayer.Decimal

/-- The number `digits · 10 ^ exponent`. -/
structure Scaled where
  digits : Nat
  exponent : Int
  deriving DecidableEq, Repr

/-- A positive fraction with the two ends of the interval that rounds to it, all three over one
denominator. -/
structure Rounding where
  value : Nat
  low : Nat
  high : Nat
  denominator : Nat
  /-- The ends themselves round to the value: the mantissa is even. -/
  closed : Bool

/-- The interval of a positive number. Below a power of two the neighbours lie closer. -/
def Rounding.ofBinary (b : Binary) : Rounding :=
  let scale := Nat.pow 2 (b.exponent - 2).toNat
  let down := if b.mantissa = Nat.pow 2 52 ∧ Binary.leastExponent < b.exponent then 1 else 2
  { value := 4 * b.mantissa * scale
    low := (4 * b.mantissa - down) * scale
    high := (4 * b.mantissa + 2) * scale
    denominator := Nat.pow 2 (2 - b.exponent).toNat
    closed := b.mantissa % 2 == 0 }

/-- Whether `point / denominator` rounds to the value, the point given over the same
denominator. -/
def Rounding.admits (r : Rounding) (point : Nat) : Bool :=
  if r.closed then r.low ≤ point && point ≤ r.high else r.low < point && point < r.high

/-- `value / denominator` and `10 ^ e`, both over one denominator. -/
def Rounding.atLeastPower (r : Rounding) (e : Int) : Bool :=
  r.denominator * Nat.pow 10 e.toNat ≤ r.value * Nat.pow 10 (-e).toNat

/-- The exponent of the leading decimal digit: raised from an estimate that is never too high. -/
def Rounding.leading (r : Rounding) : Int :=
  let bits : Int := (Nat.log2 r.value : Int) - Nat.log2 r.denominator - 1
  let guess := Int.fdiv (bits * 30103) 100000 - 1
  (List.range 4).foldl (fun e _ => if r.atLeastPower (e + 1) then e + 1 else e) guess

/-- The point of the grid of `10 ^ e` that lies nearest to the value among its two neighbours
there, if one of them rounds to it; a tie goes to the even one. -/
def Rounding.onGrid (r : Rounding) (e : Int) : Option Nat :=
  let up := Nat.pow 10 (-e).toNat
  let unit := r.denominator * Nat.pow 10 e.toNat
  let r' : Rounding := { r with value := r.value * up, low := r.low * up, high := r.high * up }
  let below := r'.value / unit
  let above := below + 1
  let hitBelow := 0 < below && r'.admits (below * unit)
  let hitAbove := r'.admits (above * unit)
  if hitBelow && hitAbove then
    let gapBelow := r'.value - below * unit
    let gapAbove := above * unit - r'.value
    if gapBelow < gapAbove then some below
    else if gapAbove < gapBelow then some above
    else if below % 2 = 0 then some below else some above
  else if hitBelow then some below
  else if hitAbove then some above
  else none

/-- A point of a grid as a number. The grid of one digit has also the point ten, which is a single
digit on the next coarser grid. -/
def Scaled.ofPoint (point : Nat) (e : Int) : Scaled :=
  if point = 10 then ⟨1, e + 1⟩ else ⟨point, e⟩

/-- The first hit on the grids of `17 - steps + 1`, …, 17 digits. -/
def Rounding.search (r : Rounding) (lead : Int) : Nat → Scaled
  | 0 => ⟨0, 0⟩
  | steps + 1 =>
    let e := lead - (16 - steps : Nat)
    match r.onGrid e with
    | some point => .ofPoint point e
    | none => r.search lead steps

/-- The fewest digits that read back as a positive number. -/
def shortest (b : Binary) : Scaled :=
  let r := Rounding.ofBinary b
  r.search r.leading 17

end SemanticLayer.Decimal
