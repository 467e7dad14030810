import SemanticLayer.Json.Basic
import SemanticLayer.Decimal.Notation
import SemanticLayer.Text.Utf8
/-!
JSON values as compact text: no blanks, members in order, characters beyond ASCII as they are.
-/
namespace SemanticLayer.Json

def escape (c : Char) : List Char :=
  match c with
  | '"' => ['\\', '"']
  | '\\' => ['\\', '\\']
  | '\n' => ['\\', 'n']
  | '\r' => ['\\', 'r']
  | '\t' => ['\\', 't']
  | c =>
    if c.toNat = 0x8 then ['\\', 'b']
    else if c.toNat = 0xC then ['\\', 'f']
    else if c.toNat < 0x20 then
      ['\\', 'u', '0', '0', Text.hexDigit (c.toNat / 16), Text.hexDigit (c.toNat % 16)]
    else [c]

def quoted (s : String) : String :=
  String.ofList ('"' :: s.toList.flatMap escape ++ ['"'])

mutual

/-- The compact text of a value. A number without a decimal form is written as null. -/
def compact : Json → String
  | .null => "null"
  | .bool b => if b then "true" else "false"
  | .int n => toString n
  | .float x => if x.isFinite then Decimal.write x else "null"
  | .str s => quoted s
  | .arr xs => "[" ++ compactItems xs ++ "]"
  | .obj ms => "\x7b" ++ compactMembers ms ++ "\x7d"

def compactItems : List Json → String
  | [] => ""
  | [x] => x.compact
  | x :: y :: xs => x.compact ++ "," ++ compactItems (y :: xs)

def compactMembers : List (String × Json) → String
  | [] => ""
  | [(k, v)] => quoted k ++ ":" ++ v.compact
  | (k, v) :: m :: ms => quoted k ++ ":" ++ v.compact ++ "," ++ compactMembers (m :: ms)

end

end SemanticLayer.Json
