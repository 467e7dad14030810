import SemanticLayer.Json.Printer
import SemanticLayer.Decimal.Reading
import SemanticLayer.Text.Blank
/-!
Values of result rows: how numbers of a database become JSON values, and how values are read as
numbers, truth values and texts, since databases hand the same datum back in different types.
-/
namespace SemanticLayer.Json

/-- A floating-point number, or null where it is not finite. -/
def ofFloat (x : Float) : Json :=
  if x.isFinite then .float x else .null

/-- Decimal text as a number where it reads as a finite one, and as a text otherwise. -/
def ofDecimal (text : String) : Json :=
  let s := Text.trim text.toList
  match Decimal.readInt64? s with
  | some n => .int n
  | none =>
    match Decimal.readFloat? s with
    | some x => if x.isFinite then .float x else .str (String.ofList s)
    | none => .str (String.ofList s)

def floatOfInt (n : Int) : Float :=
  let size := Float.ofScientific n.natAbs false 0
  if n < 0 then -size else size

def numeral? : Json → Option Float
  | .int n => some (floatOfInt n)
  | .float x => some x
  | _ => none

/-- The value as a number: a number, the decimal text of one, or a truth value as 0 or 1. -/
def number? : Json → Option Float
  | .str s => Decimal.readFloat? (Text.trim s.toList)
  | .bool b => some (if b then 1.0 else 0.0)
  | v => v.numeral?

def isNonzero (v : Json) : Bool :=
  match v.numeral? with
  | some x => x != 0
  | none => false

def trueTexts : List String :=
  ["1", "t", "true", "yes", "y"]

def truth : Json → Bool
  | .bool b => b
  | .str s => trueTexts.contains (Text.looseKey s)
  | .int n => isNonzero (.int n)
  | .float x => isNonzero (.float x)
  | _ => false

/-- The value as a text, which null has none of. -/
def spelling? : Json → Option String
  | .null => none
  | .str s => some s
  | v => some v.compact

/-- A number's value cut to a whole number of `bits` bits without sign; what is out of range goes to
the nearest bound. -/
def saturate (bits : Nat) (x : Float) : Nat :=
  if x.isNaN then 0
  else if x ≤ 0 then 0
  else if x.isInf then Nat.pow 2 bits - 1
  else
    let b := Decimal.Binary.ofFloat x
    min (b.mantissa * Nat.pow 2 b.exponent.toNat / Nat.pow 2 (-b.exponent).toNat)
      (Nat.pow 2 bits - 1)

end SemanticLayer.Json
