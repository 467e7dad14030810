import SemanticLayer.Json.Reader
import SemanticLayer.Text.Number
import SemanticLayer.Value
import SemanticLayer.Wire.Bytes
/-!
Cells of a MySQL result. The text protocol sends every value as bytes, so that the type of the column
decides what they are.
-/
namespace SemanticLayer.Wire.MySql

inductive ColumnType where
  | decimal
  | tiny
  | short
  | long
  | float
  | double
  | null
  | timestamp
  | longlong
  | int24
  | date
  | time
  | datetime
  | year
  | newDate
  | varchar
  | bit
  | timestamp2
  | datetime2
  | time2
  | typedArray
  | vector
  | unknown
  | json
  | newDecimal
  | choice
  | set
  | tinyBlob
  | mediumBlob
  | longBlob
  | blob
  | varString
  | string
  | geometry
  deriving DecidableEq, Repr

/-- The types with their names and the numbers that stand for them when they are sent. -/
def ColumnType.table : List (ColumnType × String × Nat) :=
  [(decimal, "DECIMAL", 0), (tiny, "TINY", 1), (short, "SHORT", 2), (long, "LONG", 3),
    (float, "FLOAT", 4), (double, "DOUBLE", 5), (null, "NULL", 6), (timestamp, "TIMESTAMP", 7),
    (longlong, "LONGLONG", 8), (int24, "INT24", 9), (date, "DATE", 10), (time, "TIME", 11),
    (datetime, "DATETIME", 12), (year, "YEAR", 13), (newDate, "NEWDATE", 14),
    (varchar, "VARCHAR", 15), (bit, "BIT", 16), (timestamp2, "TIMESTAMP2", 17),
    (datetime2, "DATETIME2", 18), (time2, "TIME2", 19), (typedArray, "TYPED_ARRAY", 20),
    (vector, "VECTOR", 242), (unknown, "UNKNOWN", 243), (json, "JSON", 245),
    (newDecimal, "NEWDECIMAL", 246), (choice, "ENUM", 247), (set, "SET", 248),
    (tinyBlob, "TINY_BLOB", 249), (mediumBlob, "MEDIUM_BLOB", 250), (longBlob, "LONG_BLOB", 251),
    (blob, "BLOB", 252), (varString, "VAR_STRING", 253), (string, "STRING", 254),
    (geometry, "GEOMETRY", 255)]

def ColumnType.ofName? (name : String) : Option ColumnType :=
  (table.find? fun e => e.2.1 = name).map Prod.fst

def ColumnType.ofCode? (code : Nat) : Option ColumnType :=
  (table.find? fun e => e.2.2 = code).map Prod.fst

def ColumnType.isNumber : ColumnType → Bool
  | tiny | short | int24 | long | longlong | year | decimal | newDecimal | float | double => true
  | _ => false

/-- Types that hold either text or plain bytes, as the character set says. -/
def ColumnType.mayBeBinary : ColumnType → Bool
  | blob | tinyBlob | mediumBlob | longBlob | string | varString | varchar => true
  | _ => false

/-- What a cell needs to know of its column. -/
structure Column where
  type : ColumnType
  /-- The number of the collation. -/
  collation : Nat
  deriving DecidableEq, Repr

def binaryCollation : Nat := 63

inductive Value where
  | null
  | int (n : Int)
  | uint (n : Nat)
  | float (x : Float32)
  | double (x : Float)
  | date (year month day hour minute second micros : Nat)
  | time (negative : Bool) (days hours minutes seconds micros : Nat)
  | bytes (bytes : List UInt8)

/-- Microseconds behind a point; nothing for none. -/
def microsText (micros : Nat) : List Char :=
  if micros = 0 then [] else '.' :: Text.padded 6 micros

/-- A day, with the time behind it unless that is midnight. -/
def dateText (year month day hour minute second micros : Nat) : List Char :=
  let date := Text.padded 4 year ++ '-' :: Text.padded 2 month ++ '-' :: Text.padded 2 day
  if hour = 0 ∧ minute = 0 ∧ second = 0 ∧ micros = 0 then date
  else
    date ++ ' ' :: Text.padded 2 hour ++ ':' :: Text.padded 2 minute ++
      ':' :: Text.padded 2 second ++ microsText micros

/-- A span of time in hours, into which its days are counted. -/
def timeText (negative : Bool) (days hours minutes seconds micros : Nat) : List Char :=
  (if negative then ['-'] else []) ++ Text.digits (days * 24 + hours) ++
    ':' :: Text.padded 2 minutes ++ ':' :: Text.padded 2 seconds ++ microsText micros

/-- Text where the bytes are such, and their hexadecimal digits otherwise. -/
def textOrHex (bytes : List UInt8) : Json :=
  match Text.decode? bytes with
  | some cs => .str (String.ofList cs)
  | none => .str (Text.hex bytes)

def ofBytes (column : Column) (bytes : List UInt8) : Json :=
  if column.type.isNumber then
    match Text.decode? bytes with
    | some cs => Json.ofDecimal (String.ofList cs)
    | none => .str (Text.hex bytes)
  else
    match column.type with
    | .json =>
      match (Text.decode? bytes).bind Json.read? with
      | some v => v.merged
      | none => .str (String.ofList (Text.decodeLenient bytes))
    | .bit => .int ((bigEndian bytes % Nat.pow 2 64 : Nat) : Int)
    | t =>
      if column.collation = binaryCollation ∧ t.mayBeBinary then .str (Text.hex bytes)
      else textOrHex bytes

def cell (column : Column) : Value → Json
  | .null => .null
  | .int n => .int n
  | .uint n => .int n
  | .float x => Json.ofFloat x.toFloat
  | .double x => Json.ofFloat x
  | .date y m d h min s micros => .str (String.ofList (dateText y m d h min s micros))
  | .time negative d h m s micros => .str (String.ofList (timeText negative d h m s micros))
  | .bytes bs => ofBytes column bs

end SemanticLayer.Wire.MySql
