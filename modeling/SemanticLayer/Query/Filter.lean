import SemanticLayer.Sql.Select
import SemanticLayer.Value
/-!
Filters of a request as conditions of a statement. A value is first brought to the type that the
source declares for the column.
-/
namespace SemanticLayer

/-- Values that stand for no filter. -/
def Json.isBlank : Json → Bool
  | .null => true
  | .str s => s.isEmpty
  | .arr xs => xs.isEmpty
  | _ => false

namespace ValueType

/-- A text as a number where it is the decimal form of a finite one. -/
def toNumber? (s : String) : Option Json :=
  let digits := Text.trim s.toList
  match Decimal.readInt64? digits with
  | some n => some (.int n)
  | none =>
    match Decimal.readFloat? digits with
    | some x => if x.isFinite then some (.float x) else none
    | none => none

def toTruth? (s : String) : Option Json :=
  match Text.looseKey s with
  | "true" => some (.bool true)
  | "1" => some (.bool true)
  | "yes" => some (.bool true)
  | "false" => some (.bool false)
  | "0" => some (.bool false)
  | "no" => some (.bool false)
  | _ => none

/-- The value in the type of a column; what does not convert stays as it is. -/
def coerce : Option ValueType → Json → Json
  | some .number, .str s => (toNumber? s).getD (.str s)
  | some .boolean, .str s => (toTruth? s).getD (.str s)
  | some .boolean, .int n => .bool (Json.isNonzero (.int n))
  | some .boolean, .float x => .bool (Json.isNonzero (.float x))
  | some .string, .int n => .str (Json.int n).compact
  | some .string, .float x => .str (Json.float x).compact
  | some .string, .bool b => .str (Json.bool b).compact
  | some .date, .int n => .str (Json.int n).compact
  | some .date, .float x => .str (Json.float x).compact
  | some .date, .bool b => .str (Json.bool b).compact
  | _, value => value

end ValueType

def FilterOperator.comparison : FilterOperator → Select.Comparison
  | equal => .equal
  | notEqual => .notEqual
  | greater => .greater
  | greaterOrEqual => .greaterOrEqual
  | less => .less
  | lessOrEqual => .lessOrEqual
  | like => .like

/-- The condition of a filter: the value is among the items of an array, whatever the operator, or
compares as the column says. -/
def FilterColumn.condition (c : FilterColumn) : Json → Select.Term
  | .arr items =>
    .oneOf (.fragment c.column) (items.map fun v => .literal (ValueType.coerce c.valueType v))
  | value =>
    .compare (c.operator.getD .equal).comparison (.fragment c.column)
      (.literal (ValueType.coerce c.valueType value))

end SemanticLayer
