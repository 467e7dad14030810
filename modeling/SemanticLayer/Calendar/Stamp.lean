import SemanticLayer.Calendar.Time
import SemanticLayer.Decimal.Reading
import SemanticLayer.Text.Blank
/-!
Points in time as they are exchanged: read with their distance from Universal Time, kept and
written in Universal Time. The last minute of any hour may have a second more.
-/
namespace SemanticLayer.Calendar

/-- A point in time: whole seconds from the midnight at which 1 January of year 1 begins, and
nanoseconds, which pass one second in an added second. -/
structure Stamp where
  seconds : Int
  nanoseconds : Nat
  deriving DecidableEq, Repr

namespace Stamp

def text (s : Stamp) : String :=
  let day := s.seconds.fdiv 86400
  let inDay := (s.seconds.fmod 86400).toNat
  let added := s.nanoseconds / second
  String.ofList ((Date.ofCount day).text ++ 'T' :: Text.padded 2 (inDay / 3600) ++
    ':' :: Text.padded 2 (inDay / 60 % 60) ++ ':' :: Text.padded 2 (inDay % 60 + added) ++
    fractionText (s.nanoseconds % second) ++ ['Z'])

/-! ## Reading -/

/-- A number of at least one and at most `width` digits, blanks in front of it passed over. -/
def number? (width : Nat) (s : List Char) : Option (Nat × List Char) :=
  let s := Text.trimLeft s
  let digits := (s.take width).takeWhile Char.isDigit
  (Decimal.readNat? digits).map fun n => (n, s.drop digits.length)

/-- A year: four digits at most, or a sign and digits. -/
def year? (s : List Char) : Option (Int × List Char) :=
  match Text.trimLeft s with
  | '-' :: rest => signed true rest
  | '+' :: rest => signed false rest
  | rest => (number? 4 rest).map fun r => ((r.1 : Int), r.2)
where
  signed (negative : Bool) (rest : List Char) : Option (Int × List Char) :=
    (Decimal.readNat? (rest.takeWhile Char.isDigit)).map fun n =>
      (if negative then -(n : Int) else n, rest.dropWhile Char.isDigit)

def separator? (c : Char) (s : List Char) : Option (List Char) :=
  match Text.trimLeft s with
  | d :: rest => if d = c then some rest else none
  | [] => none

/-- The nanoseconds of a fraction; digits behind the ninth do not count. -/
def fraction? : List Char → Option (Nat × List Char)
  | '.' :: rest =>
    let digits := (rest.take 9).takeWhile Char.isDigit
    (Decimal.readNat? digits).map fun n =>
      (n * Nat.pow 10 (9 - digits.length), rest.dropWhile Char.isDigit)
  | s => some (0, s)

def twoDigits? : List Char → Option (Nat × List Char)
  | a :: b :: rest => (Decimal.readNat? [a, b]).map fun n => (n, rest)
  | _ => none

def distance? (s : List Char) : Option (Int × List Char) :=
  match s with
  | 'Z' :: rest => some (0, rest)
  | 'z' :: rest => some (0, rest)
  | '+' :: rest => measured 1 rest
  | '-' :: rest => measured (-1) rest
  | '\u2212' :: rest => measured (-1) rest
  | _ =>
    if Text.sameLetters (s.take 3) ['u', 't', 'c'] then some (0, s.drop 3) else none
where
  measured (sign : Int) (rest : List Char) : Option (Int × List Char) := do
    let (hours, rest) ← twoDigits? rest
    let (minutes, rest) ← twoDigits? (rest.dropWhile fun c => c == ':' || Text.isBlank c)
    if minutes < 60 && hours < 24 then
      some (sign * ((hours * 3600 + minutes * 60 : Nat) : Int), rest)
    else none

def read? (text : String) : Option Stamp := do
  let (year, s) ← year? text.toList
  let s ← separator? '-' s
  let (month, s) ← number? 2 s
  let s ← separator? '-' s
  let (day, s) ← number? 2 s
  let (first, s) ← s.head?.map (·, s.tail)
  guard (first = 'T' ∨ first = 't' ∨ first = ' ')
  let (hour, s) ← number? 2 s
  let s ← separator? ':' s
  let (minute, s) ← number? 2 s
  let s ← separator? ':' s
  let (inMinute, s) ← number? 2 s
  let (nanoseconds, s) ← fraction? s
  let (distance, s) ← distance? (Text.trimLeft s)
  guard (Text.trimLeft s).isEmpty
  guard (hour < 24 ∧ minute < 60 ∧ inMinute ≤ 60 ∧ inRange year)
  let date ← Date.of? year month day
  let seconds := date.count * 86400 + (hour * 3600 + minute * 60 + min inMinute 59 : Nat) - distance
  let _ ← Date.ofCount? (seconds.fdiv 86400)
  pure ⟨seconds, if inMinute = 60 then nanoseconds + second else nanoseconds⟩

end Stamp

end SemanticLayer.Calendar
