import SemanticLayer.Tsql.Literal
/-!
Reading intervals and the parts of dates and times.
-/
namespace SemanticLayer.Tsql

namespace Reader

def intervalUnits : List String :=
  ["YEAR", "YEARS", "MONTH", "MONTHS", "WEEK", "WEEKS", "DAY", "DAYS", "HOUR", "HOURS", "MINUTE",
    "MINUTES", "SECOND", "SECONDS", "CENTURY", "DECADE", "DOW", "DOY", "EPOCH", "ISODOW", "ISOYEAR",
    "JULIAN", "MICROSECOND", "MICROSECONDS", "MILLENIUM", "MILLENNIUM", "MILLISECOND",
    "MILLISECONDS", "NANOSECOND", "NANOSECONDS", "QUARTER", "TIMEZONE", "TIMEZONE_HOUR",
    "TIMEZONE_MINUTE"]

/-- The parts of dates and times. -/
def timeFields : List String :=
  intervalUnits ++
    ["DAYOFWEEK", "DAYOFYEAR", "DATE", "DATETIME", "ISOWEEK", "TIME", "TIMEZONE_ABBR",
      "TIMEZONE_REGION"]

def timeField : Reader String := do
  match ← takeOneOf timeFields with
  | some field => pure field
  | none => expected "date/time field"

/-- A number with a space in front and in parentheses, where there is one. -/
def shownPrecision (n : Option Nat) : String :=
  ((n.map fun n => enclosed (toString n))).getD ""

/-- What stands behind the value of an interval. Seconds have the precision of their fraction beside
their own; other units may go down `TO` a finer one. -/
def intervalOf (value : String) : Reader String := do
  let unit ← takeOneOf intervalUnits
  let start := "INTERVAL " ++ value ++ spaced unit
  if unit = some "SECOND" then
    if ← takeSign "(" then
      let n ← wholeNumber
      let fraction ← if ← takeSign "," then (do pure (", " ++ toString (← wholeNumber))) else pure ""
      expectSign ")"
      pure (start ++ enclosed (toString n ++ fraction))
    else pure start
  else
    let start := start ++ shownPrecision (← precision?)
    if ← takeKeyword "TO" then
      let last ← timeField
      let fraction ← if last = "SECOND" then precision? else pure none
      pure (start ++ " TO " ++ last ++ shownPrecision fraction)
    else pure start

end Reader

end SemanticLayer.Tsql
