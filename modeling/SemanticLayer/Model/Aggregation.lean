import SemanticLayer.Document
import SemanticLayer.Text.Blank
/-!
The aggregate functions of measures and their names.
-/
namespace SemanticLayer

inductive Aggregation where
  | sum
  | count
  | countDistinct
  | avg
  | min
  | max
  deriving DecidableEq, Repr, Inhabited

namespace Aggregation

def all : List Aggregation :=
  [sum, count, countDistinct, avg, min, max]

def name : Aggregation → String
  | sum => "sum"
  | count => "count"
  | countDistinct => "count_distinct"
  | avg => "avg"
  | min => "min"
  | max => "max"

/-- Looks a requested name up leniently: case and blanks around it do not matter, and what is not
recognised sums. -/
def ofName (s : String) : Aggregation :=
  match Text.looseKey s with
  | "count" => count
  | "count_distinct" => countDistinct
  | "countdistinct" => countDistinct
  | "distinct_count" => countDistinct
  | "avg" => avg
  | "average" => avg
  | "mean" => avg
  | "min" => min
  | "max" => max
  | _ => sum

def ofExactName? (s : String) : Option Aggregation :=
  all.find? fun a => a.name == s

def ofDocument? (d : Document) : Option Aggregation :=
  d.choice?.bind ofExactName?

end Aggregation

end SemanticLayer
