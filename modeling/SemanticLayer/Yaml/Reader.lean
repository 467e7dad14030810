import SemanticLayer.Document
import SemanticLayer.Yaml.Node
import SemanticLayer.Yaml.Resolution
/-!
Data read from a YAML document.
-/
namespace SemanticLayer.Yaml

/-- The names given to nodes so far. A name may be given again; aliases mean its last node. -/
structure Anchors where
  names : List (String × Nat)
  nodes : List (Nat × Document)
  count : Nat

namespace Anchors

def empty : Anchors :=
  ⟨[], [], 0⟩

/-- Gives a name to a node that is still to be read, and the number to find it by. -/
def declare (a : Anchors) : Option String → Option Nat × Anchors
  | some name => (some a.count, { a with names := (name, a.count) :: a.names, count := a.count + 1 })
  | none => (none, a)

def define (a : Anchors) (number : Option Nat) (d : Document) : Anchors :=
  match number with
  | some n => { a with nodes := (n, d) :: a.nodes }
  | none => a

/-- The node with a name; none while it is still being read. -/
def get? (a : Anchors) (name : String) : Option Document :=
  (a.names.lookup name).bind fun n => a.nodes.lookup n

end Anchors

/-- The front of the tags that YAML itself defines. -/
def coreTag (name : String) : String :=
  "tag:yaml.org,2002:" ++ name

/-- The data of a scalar. A tag can name the kind of its value; one that starts with an exclamation
mark is of the document's own making. -/
def scalar (tag : Option String) (text : String) (plain : Bool) : Document :=
  let untagged := if plain then Document.plain text (resolve text) else .json (.str text)
  let kind (value : Option Json) : Document :=
    match value with
    | some v => .plain text v
    | none => .tagged (.json (.str text))
  match tag with
  | none => untagged
  | some t =>
    if t = coreTag "bool" then kind ((readBool? text).map .bool)
    else if t = coreTag "int" then kind ((readInt? text.toList).map .int)
    else if t = coreTag "float" then kind ((readFloat? text.toList).map .float)
    else if t = coreTag "null" then kind (if isNull text then some .null else none)
    else if t.toList.head? == some '!' then .tagged untagged
    else .json (.str text)

def underTag (tag : Option String) (d : Document) : Document :=
  if tag.any (fun t => t.toList.head? == some '!') then .tagged d else d

mutual

/-- The data of a node, and the names given up to its end. -/
def Node.document? (a : Anchors) : Node → Option (Document × Anchors)
  | .reference name => (a.get? name).map (·, a)
  | .scalar p text plain =>
    let (number, a) := a.declare p.anchor
    let d := Yaml.scalar p.tag text plain
    some (d, a.define number d)
  | .sequence p items => do
    let (number, a) := a.declare p.anchor
    let (ds, a) ← documents? a items
    let d := underTag p.tag (.items ds)
    pure (d, a.define number d)
  | .mapping p members => do
    let (number, a) := a.declare p.anchor
    let (ds, a) ← memberDocuments? a members
    let d := underTag p.tag (.members ds)
    pure (d, a.define number d)

def documents? (a : Anchors) : List Node → Option (List Document × Anchors)
  | [] => some ([], a)
  | n :: ns => do
    let (d, a) ← n.document? a
    let (ds, a) ← documents? a ns
    pure (d :: ds, a)

def memberDocuments? (a : Anchors) :
    List (Node × Node) → Option (List (Option String × Document) × Anchors)
  | [] => some ([], a)
  | (k, n) :: ms => do
    let (key, a) ← k.document? a
    let (d, a) ← n.document? a
    let (ds, a) ← memberDocuments? a ms
    pure ((key.text?, d) :: ds, a)

end

def read? (text : String) : Option Document := do
  let tokens ← tokens? text.toList
  let root ← Node.ofTokens? tokens
  let node ← root
  let (d, _) ← node.document? .empty
  pure d

end SemanticLayer.Yaml
