import SemanticLayer.Text.Blank
/-!
Statements as text: cutting semicolons off the end, and a limit on rows by a derived table.
-/
namespace SemanticLayer.Statement

/-- Cuts blanks and semicolons off the reversed end of a statement. Blanks go only where a semicolon
or the end is beside them. -/
def dropClosing : List Char → List Char
  | [] => []
  | c :: rest => if Text.isBlank c || c == ';' then dropClosing rest else c :: rest

/-- The statement without the blanks around it and the semicolons behind it. -/
def withoutSemicolons (sql : List Char) : List Char :=
  (dropClosing (Text.trimLeft sql).reverse).reverse

/-- The statement as a derived table of at most `limit` rows. It has lines of its own, so that a
comment at its end cannot hide the closing parenthesis. -/
def wrapInLimit (sql : String) (limit : Nat) : String :=
  "SELECT * FROM (\n" ++ String.ofList (withoutSemicolons sql.toList) ++ "\n) AS __result LIMIT " ++
    toString limit

end SemanticLayer.Statement
