import SemanticLayer.Decimal.Shortest
/-!
How a floating-point number is written: the digits are the fewest that read back, and one record
holds the choices of the form.
-/
namespace SemanticLayer.Decimal

structure Form where
  /-- The least power of ten of the leading digit that is written without an exponent. -/
  leastPlain : Int
  greatestPlain : Int
  notANumber : String
  infinite : String

/-- Numbers from `0.00001` up to below `1e+16` are written without an exponent, a whole number
keeps `.0`, and an exponent always carries its sign. -/
def Form.plain : Form where
  leastPlain := -5
  greatestPlain := 15
  notANumber := "NaN"
  infinite := "inf"

/-- `digits · 10 ^ exponent` in the given form. -/
def Form.writeScaled (form : Form) (s : Scaled) : List Char :=
  let ds := (toString s.digits).toList
  let lead := s.exponent + ds.length - 1
  if form.leastPlain ≤ lead && lead ≤ form.greatestPlain then
    if 0 ≤ s.exponent then
      ds ++ List.replicate s.exponent.toNat '0' ++ ['.', '0']
    else if 0 ≤ lead then
      ds.take (lead.toNat + 1) ++ '.' :: ds.drop (lead.toNat + 1)
    else
      '0' :: '.' :: (List.replicate (-lead - 1).toNat '0' ++ ds)
  else
    let mantissa := match ds with
      | [] => []
      | [d] => [d]
      | d :: rest => d :: '.' :: rest
    let sign := if lead < 0 then '-' else '+'
    mantissa ++ 'e' :: sign :: (toString lead.natAbs).toList

def Form.write (form : Form) (x : Float) : String :=
  if x.isNaN then form.notANumber
  else
    let b := Binary.ofFloat x
    let body :=
      if x.isInf then form.infinite.toList
      else if b.mantissa = 0 then ['0', '.', '0']
      else form.writeScaled (shortest b)
    String.ofList (if b.negative then '-' :: body else body)

def write (x : Float) : String :=
  Form.plain.write x

end SemanticLayer.Decimal
