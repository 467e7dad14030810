import SemanticLayer.Calculation.Parser
import SemanticLayer.Value
/-!
What becomes of the rows that a compiled query returns: the columns go under the keys of the
request, and calculated measures are added.
-/
namespace SemanticLayer

/-- A column of the result and the key it was requested under. -/
structure OutputColumn where
  column : String
  key : String
  deriving DecidableEq, Repr

/-- A calculated measure; one whose expression does not parse has none. -/
structure CalculatedColumn where
  key : String
  text : String
  expression : Option Calculation.Expression

structure ResultPlan where
  outputs : List OutputColumn
  calculated : List CalculatedColumn

namespace ResultPlan

/-- The value of a calculated measure over a shaped row, which is 0 where there is no finite one. -/
def evaluate (c : CalculatedColumn) (row : Record) : Json :=
  match c.expression.bind (Calculation.Expression.eval fun name => (row.get? name).bind Json.number?)
  with
  | some x => if x.isFinite then .float x else .int 0
  | none => .int 0

/-- The requested keys with the values of their columns. A column gives its value to the first key
that asks for it, and a key without a value has null. -/
def requested : List OutputColumn → Record → Record → Record
  | [], _, shaped => shaped
  | o :: rest, row, shaped =>
    requested rest (row.erase o.column) (shaped.put o.key ((row.get? o.column).getD .null))

/-- A row under the requested keys. Each calculated measure can use those before it. -/
def shapeRow (plan : ResultPlan) (row : Record) : Record :=
  plan.calculated.foldl (fun shaped c => shaped.put c.key (evaluate c shaped))
    (requested plan.outputs row [])

def shapeRows (plan : ResultPlan) (rows : List Record) : List Record :=
  rows.map plan.shapeRow

end ResultPlan

end SemanticLayer
