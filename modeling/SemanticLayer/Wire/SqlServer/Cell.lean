import SemanticLayer.Calendar.Time
import SemanticLayer.Value
import SemanticLayer.Wire.Bytes
/-!
Cells of a SQL Server result.
-/
namespace SemanticLayer.Wire.SqlServer

/-- A value that is not null, as it is sent. Days are counted from 1 January 1900 in the older
types and from 1 January of year 1 in the newer ones. -/
inductive Value where
  | int (n : Int)
  | real (x : Float32)
  | float (x : Float)
  | bit (b : Bool)
  | text (s : String)
  | guid (bytes : List UInt8)
  | binary (bytes : List UInt8)
  /-- The number `value / 10 ^ scale`. -/
  | numeric (value : Int) (scale : Nat)
  /-- The time is counted in parts of 1/300 of a second. -/
  | datetime (days : Int) (parts : Nat)
  | smallDatetime (days minutes : Nat)
  | date (days : Nat)
  /-- The time is counted in parts of `10 ^ -scale` of a second. -/
  | time (parts scale : Nat)
  | datetime2 (days parts scale : Nat)
  /-- The local time, and by how many minutes it is ahead of universal time. -/
  | datetimeOffset (days parts scale : Nat) (offset : Int)

/-- The count of 1 January 1900. -/
def epochDay : Int := 693595

/-- Whole part and fraction, each cut off towards zero and each with its own sign; the fraction fills
the scale with zeros, its sign included. -/
def numericText (value : Int) (scale : Nat) : List Char :=
  let power : Int := Nat.pow 10 scale
  Text.paddedInt 0 (value.tdiv power) ++ '.' :: Text.paddedInt scale (value.tmod power)

def timeOfParts (parts scale : Nat) : Calendar.Time :=
  .wrapped (parts * Nat.pow 10 (9 - scale) : Nat)

def momentText (day : Int) (time : Calendar.Time) : String :=
  String.ofList (Calendar.Moment.of day time).text

def Value.toJson : Value → Json
  | int n => .int n
  | real x => Json.ofFloat x.toFloat
  | float x => Json.ofFloat x
  | bit b => .bool b
  | text s => .str s
  | guid bytes => .str (uuidText bytes)
  | binary bytes => .str (Text.hex bytes)
  | numeric value scale => Json.ofDecimal (String.ofList (numericText value scale))
  | datetime days parts =>
    .str (momentText (epochDay + days) (.wrapped (parts * Calendar.second / 300 : Nat)))
  | smallDatetime days minutes =>
    .str (momentText (epochDay + days) (.wrapped (minutes * 60 * Calendar.second : Nat)))
  | date days => .str (String.ofList (Calendar.Date.ofCount days).text)
  | time parts scale => .str (String.ofList (timeOfParts parts scale).text)
  | datetime2 days parts scale => .str (momentText days (timeOfParts parts scale))
  | datetimeOffset days parts scale offset =>
    let wall := Calendar.Moment.of days (timeOfParts parts scale)
    let universal : Calendar.Moment := ⟨wall.nanoseconds - offset * 60 * Calendar.second⟩
    .str (String.ofList universal.text ++ "+00:00")

def cell : Option Value → Json
  | some v => v.toJson
  | none => .null

end SemanticLayer.Wire.SqlServer
