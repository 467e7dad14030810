import SemanticLayer.Decimal.Reading
import SemanticLayer.Json.Basic
import SemanticLayer.Text.Utf8
/-!
The value that a plain scalar resolves to. Three spellings are known for each of null, true and false;
whole numbers may be written to the bases 16, 8 and 2, and digits after a leading zero make no number.
-/
namespace SemanticLayer.Yaml

def isNull (s : String) : Bool :=
  ["null", "Null", "NULL", "~"].contains s

def readBool? (s : String) : Option Bool :=
  if ["true", "True", "TRUE"].contains s then some true
  else if ["false", "False", "FALSE"].contains s then some false
  else none

def withoutPlus : List Char → List Char
  | '+' :: rest => rest
  | s => s

/-- Digits with a zero in front of them, which make a text. -/
def isZeroPadded (s : List Char) : Bool :=
  match (Decimal.splitSign s).2 with
  | '0' :: c :: rest => (c :: rest).all Char.isDigit
  | _ => false

/-- Digits to the base that a mark in front of them names. -/
def readRadix? (s : List Char) : Option Nat :=
  let number (base : Nat) (digits : List Char) : Option Nat :=
    if digits.isEmpty then none
    else
      digits.foldl (fun n c => do
        let n ← n
        let d ← Text.hexValue? c
        if d < base then some (n * base + d) else none) (some 0)
  match s with
  | '0' :: 'x' :: digits => number 16 digits
  | '0' :: 'o' :: digits => number 8 digits
  | '0' :: 'b' :: digits => number 2 digits
  | _ => none

/-- A whole number of at most 128 bits. -/
def readInt? (s : List Char) : Option Int :=
  let unsigned? (digits : List Char) : Option Nat :=
    (readRadix? digits).or (if isZeroPadded digits then none else Decimal.readNat? digits)
  match s with
  | '-' :: digits => (unsigned? digits).bind fun n => if n ≤ Nat.pow 2 127 then some (-(n : Int)) else none
  | _ => (unsigned? (withoutPlus s)).bind fun n => if n < Nat.pow 2 128 then some (n : Int) else none

/-- A floating-point number. What is not finite has words of its own. -/
def readFloat? (s : List Char) : Option Float :=
  let unsigned := withoutPlus s
  let signed := match unsigned with
    | c :: _ => unsigned.length < s.length && (c == '+' || c == '-')
    | [] => false
  if signed then none
  else
    let word := String.ofList unsigned
    if [".inf", ".Inf", ".INF"].contains word then some (1.0 / 0.0)
    else if ["-.inf", "-.Inf", "-.INF"].contains word then some (-(1.0 / 0.0))
    else if [".nan", ".NaN", ".NAN"].contains (String.ofList s) then some (0.0 / 0.0)
    else (Decimal.readFloat? unsigned).bind fun x => if x.isFinite then some x else none

def resolve (text : String) : Json :=
  let s := text.toList
  if text.isEmpty || isNull text then .null
  else
    match readBool? text with
    | some b => .bool b
    | none =>
      match readInt? s with
      | some n => .int n
      | none =>
        match if isZeroPadded s then none else readFloat? s with
        | some x => .float x
        | none => .str text

end SemanticLayer.Yaml
