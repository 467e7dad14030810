import SemanticLayer.Json.Number
import SemanticLayer.Text.Utf8
/-!
Reading JSON text. Repeated members are kept for the decoder to judge; text after the value is
refused, and so is nesting of 128 levels.
-/
namespace SemanticLayer.Json

/-- The white space that JSON allows between tokens. -/
def isGap (c : Char) : Bool :=
  c == ' ' || c == '\t' || c == '\n' || c == '\r'

def skipGaps (s : List Char) : List Char :=
  s.dropWhile isGap

def codeUnit? : List Char → Option (Nat × List Char)
  | a :: b :: c :: d :: rest => (Text.hexNumber? [a, b, c, d]).map (·, rest)
  | _ => none

/-- The character of a `\u` escape, whose digits come next; a high surrogate needs a low one after
it. -/
def unicodeEscape? (s : List Char) : Option (Char × List Char) := do
  let (unit, rest) ← codeUnit? s
  if 0xDC00 ≤ unit && unit ≤ 0xDFFF then none
  else if 0xD800 ≤ unit && unit ≤ 0xDBFF then
    match rest with
    | '\\' :: 'u' :: more =>
      let (low, rest) ← codeUnit? more
      if 0xDC00 ≤ low && low ≤ 0xDFFF then
        pure (Char.ofNat (0x10000 + (unit - 0xD800) * 0x400 + (low - 0xDC00)), rest)
      else none
    | _ => none
  else pure (Char.ofNat unit, rest)

/-- The characters up to the closing quote, and the text after it. -/
def readQuoted? : Nat → List Char → Option (List Char × List Char)
  | 0, _ => none
  | steps + 1, s =>
    match s with
    | [] => none
    | '"' :: rest => some ([], rest)
    | '\\' :: 'u' :: rest => do
      let (c, rest) ← unicodeEscape? rest
      let (cs, rest) ← readQuoted? steps rest
      pure (c :: cs, rest)
    | '\\' :: e :: rest => do
      let c ← match e with
        | '"' => some '"'
        | '\\' => some '\\'
        | '/' => some '/'
        | 'b' => some (Char.ofNat 0x8)
        | 'f' => some (Char.ofNat 0xC)
        | 'n' => some '\n'
        | 'r' => some '\r'
        | 't' => some '\t'
        | _ => none
      let (cs, rest) ← readQuoted? steps rest
      pure (c :: cs, rest)
    | c :: rest =>
      if c.toNat < 0x20 || c == '\\' then none
      else (readQuoted? steps rest).map fun (cs, rest) => (c :: cs, rest)

def readExponent? (s : List Char) : Option (Int × List Char) :=
  let (negative, rest) := Decimal.splitSign s
  let digits := rest.takeWhile Char.isDigit
  if digits.isEmpty then none
  else
    let size : Int := Decimal.digitsValue 0 digits
    some (if negative then -size else size, rest.dropWhile Char.isDigit)

def readNumber? (s : List Char) : Option (NumberText × List Char) := do
  let (negative, unsigned) := match s with
    | '-' :: rest => (true, rest)
    | _ => (false, s)
  let digits := unsigned.takeWhile Char.isDigit
  let whole := if digits.head? == some '0' then ['0'] else digits
  if digits.isEmpty || whole.length < digits.length then none
  else
    let rest := unsigned.dropWhile Char.isDigit
    let (fraction, rest) ← match rest with
      | '.' :: more =>
        let places := more.takeWhile Char.isDigit
        if places.isEmpty then none else some (some places, more.dropWhile Char.isDigit)
      | _ => some (none, rest)
    let (exponent, rest) ← match rest with
      | c :: more =>
        if c == 'e' || c == 'E' then (readExponent? more).map fun (e, rest) => (some e, rest)
        else some (none, rest)
      | [] => some (none, rest)
    pure (⟨negative, whole, fraction, exponent⟩, rest)

def after? : List Char → List Char → Option (List Char)
  | [], s => some s
  | w :: ws, c :: s => if w = c then after? ws s else none
  | _ :: _, [] => none

mutual

/-- The value at the front of a text; `depth` counts the brackets that may still open. -/
def readValue? (steps depth : Nat) (s : List Char) : Option (Json × List Char) :=
  match steps with
  | 0 => none
  | steps + 1 =>
    match skipGaps s with
    | '"' :: rest => do
      let (cs, rest) ← readQuoted? (rest.length + 1) rest
      pure (.str (String.ofList cs), rest)
    | '[' :: rest =>
      if depth ≤ 1 then none
      else
        match skipGaps rest with
        | ']' :: rest => some (.arr [], rest)
        | rest => do
          let (xs, rest) ← readItems? steps (depth - 1) rest
          pure (.arr xs, rest)
    | '\x7b' :: rest =>
      if depth ≤ 1 then none
      else
        match skipGaps rest with
        | '\x7d' :: rest => some (.obj [], rest)
        | rest => do
          let (ms, rest) ← readMembers? steps (depth - 1) rest
          pure (.obj ms, rest)
    | 't' :: rest => (after? ['r', 'u', 'e'] rest).map (.bool true, ·)
    | 'f' :: rest => (after? ['a', 'l', 's', 'e'] rest).map (.bool false, ·)
    | 'n' :: rest => (after? ['u', 'l', 'l'] rest).map (.null, ·)
    | rest => do
      let (number, rest) ← readNumber? rest
      let value ← number.value?
      pure (value, rest)

def readItems? (steps depth : Nat) (s : List Char) : Option (List Json × List Char) :=
  match steps with
  | 0 => none
  | steps + 1 => do
    let (x, rest) ← readValue? steps depth s
    match skipGaps rest with
    | ',' :: rest =>
      let (xs, rest) ← readItems? steps depth rest
      pure (x :: xs, rest)
    | ']' :: rest => pure ([x], rest)
    | _ => none

def readMembers? (steps depth : Nat) (s : List Char) :
    Option (List (String × Json) × List Char) :=
  match steps with
  | 0 => none
  | steps + 1 => do
    match skipGaps s with
    | '"' :: rest =>
      let (key, rest) ← readQuoted? (rest.length + 1) rest
      match skipGaps rest with
      | ':' :: rest =>
        let (value, rest) ← readValue? steps depth rest
        match skipGaps rest with
        | ',' :: rest =>
          let (ms, rest) ← readMembers? steps depth rest
          pure ((String.ofList key, value) :: ms, rest)
        | '\x7d' :: rest => pure ([(String.ofList key, value)], rest)
        | _ => none
      | _ => none
    | _ => none

end

/-- The value that a whole text stands for. Each step of the reader but the first of a nested value
takes a character, so twice the length bounds the steps. -/
def read? (s : List Char) : Option Json :=
  match readValue? (2 * s.length + 2) 128 s with
  | some (value, rest) => if (skipGaps rest).isEmpty then some value else none
  | none => none

end SemanticLayer.Json
