/-!
Whole numbers as text of a least width.
-/
namespace SemanticLayer.Text

def digits (n : Nat) : List Char :=
  (toString n).toList

/-- The digits with zeros in front up to a width. -/
def padded (width n : Nat) : List Char :=
  List.replicate (width - (digits n).length) '0' ++ digits n

/-- A number with zeros between its sign and its digits, up to a width that counts the sign. -/
def paddedInt (width : Nat) (n : Int) : List Char :=
  if n < 0 then '-' :: padded (width - 1) n.natAbs else padded width n.natAbs

end SemanticLayer.Text
