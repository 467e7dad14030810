import SemanticLayer.Text.Number
/-!
Days of the Gregorian calendar, which is extended to all years. Days are counted from 1 January of
year 1; the count and the form with year, month and day are turned into one another by way of a
year that begins in March, so that the leap day comes last.
-/
namespace SemanticLayer.Calendar

/-- A day as year, month and day of the month, both counted from 1. -/
structure Date where
  year : Int
  month : Nat
  day : Nat
  deriving DecidableEq, Repr

/-- The days in 400 years. -/
def daysInEra : Int := 146097

/-- The days from 1 March of year 0 to 1 January of year 1. -/
def daysBeforeCount : Int := 306

/-- The day so many days after 1 January of year 1. -/
def Date.ofCount (count : Int) : Date :=
  let shifted := count + daysBeforeCount
  let era := shifted.fdiv daysInEra
  let inEra := (shifted - era * daysInEra).toNat
  let yearInEra := (inEra - inEra / 1460 + inEra / 36524 - inEra / 146096) / 365
  let inYear := inEra - (365 * yearInEra + yearInEra / 4 - yearInEra / 100)
  let marchMonth := (5 * inYear + 2) / 153
  let day := inYear - (153 * marchMonth + 2) / 5 + 1
  let month := if marchMonth < 10 then marchMonth + 3 else marchMonth - 9
  let year := yearInEra + era * 400
  ⟨if month ≤ 2 then year + 1 else year, month, day⟩

/-- The days from 1 January of year 1. -/
def Date.count (d : Date) : Int :=
  let year := if d.month ≤ 2 then d.year - 1 else d.year
  let era := year.fdiv 400
  let yearInEra := (year - era * 400).toNat
  let marchMonth := if 2 < d.month then d.month - 3 else d.month + 9
  let inYear := (153 * marchMonth + 2) / 5 + d.day - 1
  let inEra := yearInEra * 365 + yearInEra / 4 - yearInEra / 100 + inYear
  era * daysInEra + inEra - daysBeforeCount

def isLeap (year : Int) : Bool :=
  year % 4 == 0 && (year % 100 != 0 || year % 400 == 0)

def monthLength (year : Int) (month : Nat) : Nat :=
  if month = 2 then (if isLeap year then 29 else 28)
  else if month = 4 ∨ month = 6 ∨ month = 9 ∨ month = 11 then 30
  else 31

def Date.of? (year : Int) (month day : Nat) : Option Date :=
  if 1 ≤ month && month ≤ 12 && 1 ≤ day && day ≤ monthLength year month then
    some ⟨year, month, day⟩
  else none

def inRange (year : Int) : Bool :=
  -262143 ≤ year && year ≤ 262142

def Date.ofCount? (count : Int) : Option Date :=
  let d := Date.ofCount count
  if inRange d.year then some d else none

/-- Four digits, and beyond them a sign in front. -/
def yearText (year : Int) : List Char :=
  if 0 ≤ year && year ≤ 9999 then Text.padded 4 year.toNat
  else (if year < 0 then '-' else '+') :: Text.padded 4 year.natAbs

def Date.text (d : Date) : List Char :=
  yearText d.year ++ '-' :: Text.padded 2 d.month ++ '-' :: Text.padded 2 d.day

end SemanticLayer.Calendar
