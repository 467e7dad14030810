/-!
Numbers read from text: whole numbers with a sign, decimal numbers with an optional fraction and
exponent, and the words for the values that are not finite. Reading rounds to the nearest
floating-point number.
-/
namespace SemanticLayer.Decimal

/-- The value of decimal digits, read on from `start`. -/
def digitsValue (start : Nat) (ds : List Char) : Nat :=
  ds.foldl (fun n c => n * 10 + (c.toNat - '0'.toNat)) start

/-- Splits off a leading sign; the first part says whether it was a minus. -/
def splitSign : List Char → Bool × List Char
  | '-' :: rest => (true, rest)
  | '+' :: rest => (false, rest)
  | s => (false, s)

/-- At least one digit and nothing else. -/
def readNat? (s : List Char) : Option Nat :=
  if s.isEmpty || !s.all Char.isDigit then none else some (digitsValue 0 s)

/-- An optional sign and at least one digit. -/
def readInt? (s : List Char) : Option Int :=
  let (negative, rest) := splitSign s
  (readNat? rest).map fun n => if negative then -(n : Int) else n

def int64? (n : Int) : Option Int :=
  if -(Nat.pow 2 63 : Int) ≤ n && n < Nat.pow 2 63 then some n else none

def readInt64? (s : List Char) : Option Int :=
  (readInt? s).bind int64?

/-- A whole number of at most `bits` bits without a minus; a plus may stand in front. -/
def readUnsigned? (bits : Nat) (s : List Char) : Option Nat :=
  let digits := match s with
    | '+' :: rest => rest
    | _ => s
  (readNat? digits).bind fun n => if n < Nat.pow 2 bits then some n else none

/-- The unsigned decimal number `mantissa · 10 ^ exponent`. -/
structure Literal where
  mantissa : Nat
  exponent : Int
  deriving DecidableEq, Repr

/-- Digits with an optional point among, before or behind them, at least one digit in all, and an
optional exponent. -/
def Literal.read? (s : List Char) : Option Literal :=
  let whole := s.takeWhile Char.isDigit
  let afterWhole := s.dropWhile Char.isDigit
  let (fraction, afterFraction) := match afterWhole with
    | '.' :: rest => (rest.takeWhile Char.isDigit, rest.dropWhile Char.isDigit)
    | rest => ([], rest)
  if whole.isEmpty && fraction.isEmpty then none
  else
    let mantissa := digitsValue (digitsValue 0 whole) fraction
    let shift : Int := -(fraction.length : Int)
    match afterFraction with
    | [] => some ⟨mantissa, shift⟩
    | c :: rest =>
      if c == 'e' || c == 'E' then
        (readInt? rest).map fun e => ⟨mantissa, shift + e⟩
      else none

/-- The nearest floating-point number; beyond the range it is infinite or zero. -/
def Literal.toFloat (l : Literal) : Float :=
  if l.mantissa = 0 then 0.0
  else Float.ofScientific l.mantissa (l.exponent < 0) l.exponent.natAbs

/-- The words that stand for a value that is not finite, in small letters. -/
def readWord? (s : List Char) : Option Float :=
  match String.ofList (s.map Char.toLower) with
  | "inf" => some (1.0 / 0.0)
  | "infinity" => some (1.0 / 0.0)
  | "nan" => some (0.0 / 0.0)
  | _ => none

def readFloat? (s : List Char) : Option Float :=
  let (negative, rest) := splitSign s
  let size := match readWord? rest with
    | some x => some x
    | none => (Literal.read? rest).map Literal.toFloat
  size.map fun x => if negative then -x else x

end SemanticLayer.Decimal
