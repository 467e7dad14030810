import SemanticLayer.Json.Reader
import SemanticLayer.Query.Compile
import SemanticLayer.Registry.Folder
/-!
The command line: the statement that a request compiles to, shown without running it.
-/
namespace SemanticLayer

inductive PreviewFailure where
  | usage
  | unreadable (fault : Files.Fault)
  | notRequest
  | unknownSource (name : String)
  | failed (failure : Failure)

namespace Preview

def usageLines : List String :=
  ["Usage: print_sql <sources_dir> <request_json> [postgresql|mysql|mssql]",
    "Example: cargo run --example print_sql -- demos/sources " ++
      "demos/requests/revenue_by_region.json mssql"]

structure Arguments where
  folder : String
  request : String
  database : Database
  deriving DecidableEq

/-- The folder of the sources, the file of the request, and the engine; further arguments do not
count. -/
def arguments : List String → Except PreviewFailure Arguments
  | folder :: request :: rest =>
    match rest with
    | [] => .ok ⟨folder, request, .postgresql⟩
    | name :: _ =>
      match Database.ofName name with
      | .ok database => .ok ⟨folder, request, database⟩
      | .error f => .error (.failed f)
  | _ => .error .usage

def requestOfJson? (text : String) : Option Request :=
  (Json.read? text.toList).bind fun j => Request.ofDocument? (.json j)

def lines (c : CompiledQuery) : List String :=
  c.sql :: c.plan.calculated.map fun m =>
    "-- computed after fetch: " ++ m.key ++ " = " ++ m.text

/-- Compiles the request of a file with the sources of a folder. -/
def run (root : Files.Entry) (a : Arguments) : Except PreviewFailure (List String) := do
  let registry ← (Registry.load root a.folder).mapError .failed
  let text ← (root.read a.request).mapError .unreadable
  match requestOfJson? text with
  | none => throw .notRequest
  | some request =>
    match registry.get? request.source with
    | none => throw (.unknownSource request.source)
    | some source =>
      let compiled ← (source.compile .usual a.database request).mapError .failed
      pure (lines compiled)

end Preview

/-- The message behind which the program ends. -/
def PreviewFailure.message : PreviewFailure → String
  | usage => String.intercalate "\n" Preview.usageLines
  | unreadable fault => fault.message
  | notRequest => "the request cannot be read"
  | unknownSource name => "unknown source " ++ name
  | failed failure => failure.message

end SemanticLayer
