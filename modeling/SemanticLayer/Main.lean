import SemanticLayer.Preview
/-!
The program: reads the files that are named, prints the statement, or says why there is none.
-/
open SemanticLayer

namespace SemanticLayer.Preview

def readFile? (path : String) : IO (Option Files.Entry) := do
  try
    let text ← IO.FS.readFile path
    pure (some (.file text))
  catch _ => pure none

def readFolder? (path : String) : IO (Option Files.Entry) := do
  try
    let here ← IO.currentDir
    let listed ← (here / path).readDir
    let files ← listed.toList.filterMapM fun e => do
      let file ← readFile? (path ++ "/" ++ e.fileName)
      pure (file.map (e.fileName, ·))
    pure (some (.folder files))
  catch _ => pure none

def readEntry? (path : String) : IO (Option Files.Entry) := do
  match ← readFile? path with
  | some file => pure (some file)
  | none => readFolder? path

def withPath (root : Files.Entry) (path : String) : IO Files.Entry := do
  match ← readEntry? path with
  | some e => pure (root.put path e)
  | none => pure root

end SemanticLayer.Preview

/-- Prints the statement for the request that the arguments name. -/
def main (args : List String) : IO UInt32 := do
  let result ← match Preview.arguments args with
    | .error e => pure (.error e)
    | .ok a => do
      let sources ← Preview.withPath (.folder []) a.folder
      let root ← Preview.withPath sources a.request
      pure (Preview.run root a)
  match result with
  | .ok lines =>
    lines.forM IO.println
    pure 0
  | .error .usage =>
    Preview.usageLines.forM IO.eprintln
    pure 1
  | .error e =>
    IO.eprintln ("Error: " ++ e.message)
    pure 1
