import SemanticLayer.Json.Basic
/-!
What can go wrong, by class. The class decides the wording in front of the message and the status
with which a web service answers.
-/
namespace SemanticLayer

/-- A failure that a database reports, passed on as it is. -/
structure ExecutionFailure where
  text : String
  code : Option String
  /-- The character of the statement that it points at, counted from 1. -/
  position : Option Nat
  deriving DecidableEq, Repr

def ExecutionFailure.ofText (text : String) : ExecutionFailure where
  text := text
  code := none
  position := none

/-- The text, with the code behind it. -/
def ExecutionFailure.display (e : ExecutionFailure) : String :=
  match e.code with
  | some code => e.text ++ " (code " ++ code ++ ")"
  | none => e.text

inductive Failure where
  | io (text : String)
  | yaml (text : String)
  | json (text : String)
  | config (text : String)
  /-- The sources contradict themselves. -/
  | schema (text : String)
  | validation (text : String)
  | invalidField (text : String)
  | sandbox (text : String)
  | connection (text : String)
  | timeout (milliseconds : Nat)
  | execution (detail : ExecutionFailure)
  | other (text : String)
  deriving DecidableEq, Repr

namespace Failure

def kind : Failure → String
  | io _ => "Io"
  | yaml _ => "Yaml"
  | json _ => "Json"
  | config _ => "Config"
  | schema _ => "Schema"
  | validation _ => "Validation"
  | invalidField _ => "InvalidField"
  | sandbox _ => "Sandbox"
  | connection _ => "Connection"
  | timeout _ => "Timeout"
  | execution _ => "Execution"
  | other _ => "Other"

def ofKind? (kind text : String) : Option Failure :=
  match kind with
  | "Io" => some (io text)
  | "Yaml" => some (yaml text)
  | "Json" => some (json text)
  | "Config" => some (config text)
  | "Schema" => some (schema text)
  | "Validation" => some (validation text)
  | "InvalidField" => some (invalidField text)
  | "Sandbox" => some (sandbox text)
  | "Connection" => some (connection text)
  | "Other" => some (other text)
  | _ => none

def message : Failure → String
  | io text => "io error: " ++ text
  | yaml text => "yaml parse error: " ++ text
  | json text => "json error: " ++ text
  | config text => "config error: " ++ text
  | schema text => "schema error: " ++ text
  | validation text => "validation error: " ++ text
  | invalidField text => "invalid field: " ++ text
  | sandbox text => "sandbox violation: " ++ text
  | connection text => "connection error: " ++ text
  | timeout ms => "query timed out after " ++ toString ms ++ " ms"
  | execution detail => "execution error: " ++ detail.display
  | other text => text

def status : Failure → Nat
  | validation _ => 400
  | invalidField _ => 400
  | json _ => 400
  | execution _ => 400
  | sandbox _ => 403
  | connection _ => 502
  | timeout _ => 504
  | io _ => 500
  | yaml _ => 500
  | config _ => 500
  | schema _ => 500
  | other _ => 500

/-- The body of a web service's answer: a database's own words where it reported the failure, and
the text to show otherwise. -/
def body : Failure → ExecutionFailure
  | execution detail => detail
  | failure => .ofText failure.message

end Failure

def ExecutionFailure.toJson (e : ExecutionFailure) : Json :=
  .obj ([("message", .str e.text)] ++
    (match e.code with | some code => [("code", .str code)] | none => []) ++
    (match e.position with | some p => [("position", .int p)] | none => []))

end SemanticLayer
