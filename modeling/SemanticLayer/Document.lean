import SemanticLayer.Json.Basic
import SemanticLayer.Dictionary
/-!
Data as it was read, before it is decoded. JSON values and the nodes of a YAML document are decoded
by the same rules; they differ in that an unquoted scalar of a YAML document can stand for a text
as well as for the value it resolves to.
-/
namespace SemanticLayer

/-- Data that was read but not yet decoded. -/
inductive Document where
  | json (value : Json)
  /-- A scalar without quotes, and the value it resolves to. -/
  | plain (text : String) (value : Json)
  | items (items : List Document)
  /-- A mapping; a key that is not a scalar has no name. -/
  | members (members : List (Option String × Document))
  /-- Data under a tag of its own, which no JSON value stands for. -/
  | tagged (inner : Document)
  deriving Inhabited

namespace Document

def text? : Document → Option String
  | .json (.str s) => some s
  | .plain s _ => some s
  | .tagged d => d.text?
  | _ => none

/-- Whether the data stands for nothing where nothing is allowed. -/
def isNothing : Document → Bool
  | .json .null => true
  | .plain _ .null => true
  | _ => false

/-- The items of a list. An empty scalar without quotes is the empty list. -/
def list? : Document → Option (List Document)
  | .json (.arr xs) => some (xs.map json)
  | .items xs => some xs
  | .plain "" _ => some []
  | .tagged d => d.list?
  | _ => none

def mapping? : Document → Option (List (Option String × Document))
  | .json (.obj ms) => some (ms.map fun m => (some m.1, json m.2))
  | .members ms => some ms
  | .plain "" _ => some []
  | .tagged d => d.mapping?
  | _ => none

/-- The members of a mapping all of whose keys are scalars. -/
def named? (d : Document) : Option (List (String × Document)) :=
  d.mapping?.bind fun ms => ms.mapM fun m => m.1.map (·, m.2)

/-- The name of a choice: a text, or in JSON an object with the name as its only key and null
under it. -/
def choice? : Document → Option String
  | .json (.obj [(name, .null)]) => some name
  | .tagged _ => none
  | d => d.text?

def bool? : Document → Option Bool
  | .json (.bool b) => some b
  | .plain _ (.bool b) => some b
  | _ => none

def unsigned? (bits : Nat) : Document → Option Nat
  | .json (.int n) => if 0 ≤ n && n < Nat.pow 2 bits then some n.toNat else none
  | .plain _ (.int n) => if 0 ≤ n && n < Nat.pow 2 bits then some n.toNat else none
  | _ => none

/-- The JSON value of a scalar without quotes: no number is infinite, and whole numbers fit 64 bits. -/
def plainValue? : Json → Option Json
  | .float x => some (if x.isFinite then .float x else .null)
  | .int n => if -(Nat.pow 2 63 : Int) ≤ n && n < Nat.pow 2 64 then some (.int n) else none
  | v => some v

mutual

/-- The JSON value of the data, with repeated members merged. -/
def value? : Document → Option Json
  | .json v => some v.merged
  | .plain _ v => plainValue? v
  | .tagged _ => none
  | .items xs => (values? xs).map .arr
  | .members ms => (memberValues? ms).map fun vs => .obj (Record.ofMembers vs)

def values? : List Document → Option (List Json)
  | [] => some []
  | x :: xs => do
    let v ← x.value?
    let vs ← values? xs
    pure (v :: vs)

def memberValues? : List (Option String × Document) → Option (List (String × Json))
  | [] => some []
  | (k, x) :: ms => do
    let key ← k
    let v ← x.value?
    let vs ← memberValues? ms
    pure ((key, v) :: vs)

end

def listOf? {α : Type} (decode : Document → Option α) (d : Document) : Option (List α) :=
  d.list?.bind fun xs => xs.mapM decode

def dictionaryOf? {α : Type} (decode : Document → Option α) (d : Document) :
    Option (Dictionary α) := do
  let ms ← d.named?
  let entries ← ms.mapM fun m => (decode m.2).map (m.1, ·)
  pure (Dictionary.ofList entries)

structure Fields where
  given : List (String × Document)
  /-- They were given as a list in the order of declaration, which leaves no field out in the
  middle. -/
  byPosition : Bool

/-- The fields with the given names: members by name, of which unknown ones are passed over and
none may be repeated, or items in the order of declaration. -/
def fields? (names : List String) (d : Document) : Option Fields :=
  match d.mapping? with
  | some _ => do
    let ms ← d.named?
    let known := ms.filter fun m => names.contains m.1
    if (known.map Prod.fst).Nodup then some ⟨known, false⟩ else none
  | none => do
    let xs ← d.list?
    if names.length < xs.length then none else some ⟨names.zip xs, true⟩

namespace Fields

variable {α : Type}

def need (f : Fields) (name : String) (decode : Document → Option α) : Option α :=
  (f.given.lookup name).bind decode

/-- A field that may be left out or stand for nothing. -/
def may (f : Fields) (name : String) (decode : Document → Option α) : Option (Option α) :=
  match f.given.lookup name with
  | some d => if d.isNothing then some none else (decode d).map some
  | none => if f.byPosition then none else some none

/-- A field that may be left out but not stand for nothing. -/
def orElse (f : Fields) (name : String) (default : α) (decode : Document → Option α) :
    Option α :=
  match f.given.lookup name with
  | some d => decode d
  | none => some default

end Fields

end Document

end SemanticLayer
