import SemanticLayer.Files.Glob
import SemanticLayer.Registry.Basic
import SemanticLayer.Yaml.Reader
/-!
The sources of a folder: one YAML document for each file whose name ends in `.yml`, and after those the
files whose names end in `.yaml`.
-/
namespace SemanticLayer

def Source.ofYaml (text : String) : Except Failure Source :=
  match (Yaml.read? text).bind Source.ofDocument? with
  | some s => .ok s
  | none => .error (.yaml "unreadable source")

namespace Registry

/-- The ends of the names of files with sources. -/
def suffixes : List String :=
  ["yml", "yaml"]

def insertFile (g : Registry) (p : Files.Place) : Except Failure Registry := do
  let text ← p.here.text.mapError fun f => Failure.io f.message
  let source ← Source.ofYaml text
  g.insert source

/-- Adds the sources of all files of a folder whose names end as given. -/
def insertFiles (root : Files.Entry) (folder : String) (g : Registry) (suffix : String) :
    Except Failure Registry := do
  let files ← (root.globPath (folder ++ "/*." ++ suffix)).mapError fun f =>
    Failure.other f.message
  files.foldlM insertFile g

def load (root : Files.Entry) (folder : String) : Except Failure Registry :=
  if root.exists? folder then suffixes.foldlM (insertFiles root folder) .empty
  else .error (.config ("sources directory not found: " ++ folder))

end Registry

end SemanticLayer
