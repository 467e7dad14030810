import SemanticLayer.Calendar.Date
/-!
Times of day and moments, to the nanosecond. A fraction of a second is written with as many groups
of three digits as it needs.
-/
namespace SemanticLayer.Calendar

def second : Nat := 1000000000

def dayLength : Nat := 86400 * second

/-- A time of day, in nanoseconds from midnight. -/
structure Time where
  nanoseconds : Nat
  deriving DecidableEq, Repr

/-- The time so many nanoseconds after midnight, whatever the day. -/
def Time.wrapped (nanoseconds : Int) : Time :=
  ⟨(nanoseconds.fmod dayLength).toNat⟩

def fractionText (nanoseconds : Nat) : List Char :=
  if nanoseconds = 0 then []
  else if nanoseconds % 1000000 = 0 then '.' :: Text.padded 3 (nanoseconds / 1000000)
  else if nanoseconds % 1000 = 0 then '.' :: Text.padded 6 (nanoseconds / 1000)
  else '.' :: Text.padded 9 nanoseconds

def Time.text (t : Time) : List Char :=
  let seconds := t.nanoseconds / second
  Text.padded 2 (seconds / 3600) ++ ':' :: Text.padded 2 (seconds / 60 % 60) ++
    ':' :: Text.padded 2 (seconds % 60) ++ fractionText (t.nanoseconds % second)

/-- A moment, in nanoseconds from the midnight at which 1 January of year 1 begins. -/
structure Moment where
  nanoseconds : Int
  deriving DecidableEq, Repr

namespace Moment

def of (day : Int) (time : Time) : Moment :=
  ⟨day * dayLength + time.nanoseconds⟩

def day (m : Moment) : Int :=
  m.nanoseconds.fdiv dayLength

def time (m : Moment) : Time :=
  .wrapped m.nanoseconds

def checked? (m : Moment) : Option Moment :=
  (Date.ofCount? m.day).map fun _ => m

def text (m : Moment) : List Char :=
  (Date.ofCount m.day).text ++ 'T' :: m.time.text

end Moment

end SemanticLayer.Calendar
