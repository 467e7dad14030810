/-!
JSON values. Objects keep the order of their members, and whole numbers stay apart from
floating-point ones.
-/
namespace SemanticLayer

/-- A JSON value. The reader makes an `int` of a number without a point or exponent that fits 64
bits, with or without sign. -/
inductive Json where
  | null
  | bool (value : Bool)
  | int (value : Int)
  | float (value : Float)
  | str (value : String)
  | arr (items : List Json)
  | obj (members : List (String × Json))
  deriving Inhabited

abbrev Record := List (String × Json)

namespace Record

/-- The value under the first member with the given key. -/
def get? (r : Record) (key : String) : Option Json :=
  r.lookup key

/-- Replaces the value under a key in place, or adds the member at the end. -/
def put : Record → String → Json → Record
  | [], key, value => [(key, value)]
  | (k, v) :: rest, key, value =>
    if k = key then (key, value) :: rest else (k, v) :: put rest key value

/-- The members put one after another: a repeated key keeps its first place and its last
value. -/
def ofMembers (members : List (String × Json)) : Record :=
  members.foldl (fun r m => r.put m.1 m.2) []

def erase (r : Record) (key : String) : Record :=
  r.filter fun m => m.1 ≠ key

def keys (r : Record) : List String :=
  r.map Prod.fst

end Record

namespace Json

def text? : Json → Option String
  | .str s => some s
  | _ => none

def members? : Json → Option Record
  | .obj ms => some ms
  | _ => none

def items? : Json → Option (List Json)
  | .arr xs => some xs
  | _ => none

def ofText? : Option String → Json
  | some s => .str s
  | none => .null

mutual

/-- The value with repeated members merged in every object. -/
def merged : Json → Json
  | .arr xs => .arr (mergedItems xs)
  | .obj ms => .obj (Record.ofMembers (mergedMembers ms))
  | j => j

def mergedItems : List Json → List Json
  | [] => []
  | x :: xs => x.merged :: mergedItems xs

def mergedMembers : List (String × Json) → List (String × Json)
  | [] => []
  | (k, v) :: ms => (k, v.merged) :: mergedMembers ms

end

end Json

end SemanticLayer
