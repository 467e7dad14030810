/-!
A tree of files, and the paths by which it is read.
-/
namespace SemanticLayer.Files

inductive Entry where
  | file (text : String)
  | folder (entries : List (String × Entry))
  deriving Inhabited, Repr

inductive Fault where
  | notFound
  | notFolder
  | isFolder
  deriving DecidableEq, Repr

def Fault.message : Fault → String
  | notFound => "No such file or directory (os error 2)"
  | notFolder => "Not a directory (os error 20)"
  | isFolder => "Is a directory (os error 21)"

def splitPath (path : String) : List String :=
  (path.toList.splitOn '/').map String.ofList

/-- A place in a tree: what stands there, and the folders around it from the inside out. -/
structure Place where
  here : Entry
  around : List Entry

namespace Place

/-- The place that a part of a path leads to. An empty part and a dot stay in a folder, and two dots lead out
of it; nothing is around the root. -/
def enter (p : Place) (part : String) : Except Fault Place :=
  match p.here with
  | .file _ => .error .notFolder
  | .folder es =>
    if part = "" ∨ part = "." then .ok p
    else if part = ".." then
      match p.around with
      | [] => .ok p
      | outer :: around => .ok ⟨outer, around⟩
    else
      match es.lookup part with
      | some inner => .ok ⟨inner, p.here :: p.around⟩
      | none => .error .notFound

def follow (p : Place) (parts : List String) : Except Fault Place :=
  parts.foldlM enter p

end Place

namespace Entry

def entries : Entry → List (String × Entry)
  | file _ => []
  | folder es => es

def isFolder : Entry → Bool
  | file _ => false
  | folder _ => true

def place (root : Entry) : Place :=
  ⟨root, []⟩

/-- What stands at a path; the empty path leads nowhere. -/
def find (root : Entry) (path : String) : Except Fault Entry :=
  if path.isEmpty then .error .notFound
  else (root.place.follow (splitPath path)).map Place.here

def exists? (root : Entry) (path : String) : Bool :=
  match root.find path with
  | .ok _ => true
  | .error _ => false

def text : Entry → Except Fault String
  | file s => .ok s
  | folder _ => .error .isFolder

def read (root : Entry) (path : String) : Except Fault String :=
  root.find path >>= text

/-- Changes what stands at the end of a path of names; folders that are not there come into being on the
way. -/
def alter (change : Entry → Entry) : List String → Entry → Entry
  | [], e => change e
  | name :: rest, e =>
    let below := (e.entries.lookup name).getD (folder [])
    folder ((name, alter change rest below) :: e.entries.filter fun m => m.1 ≠ name)

end Entry

/-- The names along a path that leads through folders. -/
def names (parts : List String) : List String :=
  (parts.foldl (fun back part =>
    if part = "" || part = "." then back
    else if part = ".." then back.tail
    else part :: back) []).reverse

/-- Puts an entry at the end of a path, and folders where the path leads through. -/
def Entry.put (root : Entry) (path : String) (inner : Entry) : Entry :=
  let parts := splitPath path
  let fronts := (List.range parts.length).map parts.take
  let passed := fronts.foldl (fun e front => e.alter id (names front)) root
  passed.alter (fun _ => inner) (names parts)

end SemanticLayer.Files
