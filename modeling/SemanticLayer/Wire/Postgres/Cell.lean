import SemanticLayer.Calendar.Time
import SemanticLayer.Json.Reader
import SemanticLayer.Value
import SemanticLayer.Wire.Postgres.Numeric
/-!
Cells of a PostgreSQL result in binary form. What does not fit its type, and types without a rule,
become null.
-/
namespace SemanticLayer.Wire.Postgres

/-- The types of columns with a rule. -/
inductive CellType where
  | bool
  /-- A whole number with sign, of so many bytes. -/
  | int (size : Nat)
  | oid
  | float4
  | float8
  | numeric
  | text
  | json
  | jsonb
  | uuid
  | timestamp
  | timestamptz
  | date
  | time
  | bytea
  deriving DecidableEq, Repr

def CellType.ofOid? (oid : Nat) : Option CellType :=
  match oid with
  | 16 => some bool
  | 17 => some bytea
  | 19 => some text
  | 20 => some (int 8)
  | 21 => some (int 2)
  | 23 => some (int 4)
  | 25 => some text
  | 26 => some CellType.oid
  | 114 => some json
  | 700 => some float4
  | 701 => some float8
  | 705 => some text
  | 1042 => some text
  | 1043 => some text
  | 1082 => some date
  | 1083 => some time
  | 1114 => some timestamp
  | 1184 => some timestamptz
  | 1700 => some numeric
  | 2950 => some uuid
  | 3802 => some jsonb
  | _ => none

/-- The count of the day from which dates and moments are counted: 1 January 2000. -/
def epochDay : Int := 730119

/-- A moment given in microseconds from the first day. -/
def moment? (microseconds : Int) : Option Calendar.Moment :=
  Calendar.Moment.checked?
    ⟨epochDay * Calendar.dayLength + microseconds * 1000⟩

def document? (bytes : List UInt8) : Option Json := do
  let chars ← Text.decode? bytes
  (Json.read? chars).map Json.merged

def CellType.value? (t : CellType) (bytes : List UInt8) : Option Json :=
  match t with
  | bool => (sized? 1 bytes).map fun bs => .bool (bigEndian bs != 0)
  | int size => (sized? size bytes).map fun bs => .int (signedBigEndian bs)
  | oid => (sized? 4 bytes).map fun bs => .int (bigEndian bs)
  | float4 =>
    (sized? 4 bytes).map fun bs =>
      Json.ofFloat (Float32.ofBits (UInt32.ofNat (bigEndian bs))).toFloat
  | float8 =>
    (sized? 8 bytes).map fun bs => Json.ofFloat (Float.ofBits (UInt64.ofNat (bigEndian bs)))
  | numeric => (Numeric.ofBytes? bytes).map fun n => Json.ofDecimal n.text
  | text => (Text.decode? bytes).map fun cs => .str (String.ofList cs)
  | json => document? bytes
  | jsonb =>
    match bytes with
    | 1 :: rest => document? rest
    | _ => none
  | uuid => (sized? 16 bytes).map fun bs => .str (uuidText bs)
  | timestamp => do
    let bs ← sized? 8 bytes
    let m ← moment? (signedBigEndian bs)
    pure (.str (String.ofList m.text))
  | timestamptz => do
    let bs ← sized? 8 bytes
    let m ← moment? (signedBigEndian bs)
    pure (.str (String.ofList m.text ++ "+00:00"))
  | date => do
    let bs ← sized? 4 bytes
    let d ← Calendar.Date.ofCount? (epochDay + signedBigEndian bs)
    pure (.str (String.ofList d.text))
  | time =>
    (sized? 8 bytes).map fun bs =>
      .str (String.ofList (Calendar.Time.wrapped (signedBigEndian bs * 1000)).text)
  | bytea => some (.str (Text.hex bytes))

/-- The value of a cell of a column whose type has the given number. -/
def cell (oid : Nat) (bytes : Option (List UInt8)) : Json :=
  ((CellType.ofOid? oid).bind fun t => bytes.bind t.value?).getD .null

end SemanticLayer.Wire.Postgres
