import SemanticLayer.Calendar.Date
import SemanticLayer.Decimal.Reading
import SemanticLayer.Json.Basic
import SemanticLayer.Text.Utf8
/-!
Scalars of TOML: strings in their four forms, numbers, truth values, dates and times. Each reader gives
the value and the text behind it.
-/
namespace SemanticLayer.Toml

def isBlank (c : Char) : Bool :=
  c == ' ' || c == '\t'

def isPlain (c : Char) : Bool :=
  let n := c.toNat
  n == 0x9 || (0x20 ≤ n && n ≤ 0x7E) || 0x80 ≤ n

def skipBlanks (s : List Char) : List Char :=
  s.dropWhile isBlank

def newline? : List Char → Option (List Char)
  | '\n' :: rest => some rest
  | '\r' :: '\n' :: rest => some rest
  | _ => none

/-! ## Strings -/

def escape? : List Char → Option (Char × List Char)
  | 'b' :: rest => some (Char.ofNat 0x8, rest)
  | 't' :: rest => some ('\t', rest)
  | 'n' :: rest => some ('\n', rest)
  | 'f' :: rest => some (Char.ofNat 0xC, rest)
  | 'r' :: rest => some ('\r', rest)
  | '"' :: rest => some ('"', rest)
  | '\\' :: rest => some ('\\', rest)
  | 'u' :: rest => coded 4 rest
  | 'U' :: rest => coded 8 rest
  | _ => none
where
  coded (count : Nat) (rest : List Char) : Option (Char × List Char) := do
    let digits := rest.take count
    if digits.length < count then none
    else
      let n ← Text.hexNumber? digits
      if (0xD800 ≤ n && n ≤ 0xDFFF) || 0x10FFFF < n then none
      else some (Char.ofNat n, rest.drop count)

def basicString? (s : List Char) : Nat → Option (List Char × List Char)
  | 0 => none
  | steps + 1 =>
    match s with
    | '"' :: rest => some ([], rest)
    | '\\' :: rest => do
      let (c, rest) ← escape? rest
      let (cs, rest) ← basicString? rest steps
      pure (c :: cs, rest)
    | c :: rest =>
      if isPlain c then (basicString? rest steps).map fun r => (c :: r.1, r.2) else none
    | [] => none

/-- The characters of a string in single quotes, which has no escapes. -/
def literalString? : List Char → Option (List Char × List Char)
  | '\'' :: rest => some ([], rest)
  | c :: rest => if isPlain c then (literalString? rest).map fun r => (c :: r.1, r.2) else none
  | [] => none

/-- Blanks and line breaks behind a backslash at the end of a line. -/
def skipLines (s : List Char) : Nat → List Char
  | 0 => s
  | steps + 1 =>
    match newline? (skipBlanks s) with
    | some rest => skipLines rest steps
    | none => skipBlanks s

/-- The characters of a string over several lines. Up to two quotes may stand in front of the three
closing ones. -/
def longString? (quote : Char) (s : List Char) : Nat → Option (List Char × List Char)
  | 0 => none
  | steps + 1 =>
    match s with
    | [] => none
    | c :: rest =>
      if c == quote then
        let count := (s.takeWhile (· == quote)).length
        if 3 ≤ count then
          let inner := min (count - 3) 2
          some (List.replicate inner quote, s.drop (inner + 3))
        else
          (longString? quote (s.drop count) steps).map fun r =>
            (List.replicate count quote ++ r.1, r.2)
      else if c == '\\' && quote == '"' then
        if (newline? (skipBlanks rest)).isSome then
          longString? quote (skipLines rest (rest.length + 1)) steps
        else do
          let (c, rest) ← escape? rest
          let (cs, rest) ← longString? quote rest steps
          pure (c :: cs, rest)
      else
        match newline? s with
        | some rest => (longString? quote rest steps).map fun r => ('\n' :: r.1, r.2)
        | none =>
          if isPlain c then (longString? quote rest steps).map fun r => (c :: r.1, r.2) else none

/-- A string with its quotes. A line break right behind three opening quotes is left out. -/
def string? (s : List Char) : Option (String × List Char) :=
  let body (rest : List Char) := (newline? rest).getD rest
  let result := match s with
    | '"' :: '"' :: '"' :: rest => longString? '"' (body rest) (s.length + 1)
    | '\'' :: '\'' :: '\'' :: rest => longString? '\'' (body rest) (s.length + 1)
    | '"' :: rest => basicString? rest (s.length + 1)
    | '\'' :: rest => literalString? rest
    | _ => none
  result.map fun r => (String.ofList r.1, r.2)

/-! ## Numbers -/

/-- Digits of a class, with an underscore allowed between two of them. -/
def grouped? (isDigit : Char → Bool) (s : List Char) : Option (List Char) :=
  let rec go (afterDigit : Bool) : List Char → Option (List Char)
    | [] => if afterDigit then some [] else none
    | c :: rest =>
      if isDigit c then (go true rest).map (c :: ·)
      else if c == '_' && afterDigit then go false rest
      else none
  go false s

/-- Grouped digits without a leading zero, unless it stands alone. -/
def wholeDigits? (s : List Char) : Option (List Char) :=
  (grouped? Char.isDigit s).bind fun ds =>
    if ds.head? == some '0' && 1 < ds.length then none else some ds

/-- Digits to the base that a mark in front of them names. -/
def radix? (s : List Char) : Option Nat :=
  let number (base : Nat) (digits : List Char) : Option Nat :=
    (grouped? (fun c => (Text.hexValue? c).any (· < base)) digits).map fun ds =>
      ds.foldl (fun n c => n * base + (Text.hexValue? c).getD 0) 0
  match s with
  | '0' :: 'x' :: digits => number 16 digits
  | '0' :: 'o' :: digits => number 8 digits
  | '0' :: 'b' :: digits => number 2 digits
  | _ => none

def int? (s : List Char) : Option Int :=
  let n : Option Int := match radix? s with
    | some n => some n
    | none =>
      let (negative, rest) := Decimal.splitSign s
      (wholeDigits? rest).map fun ds =>
        let n : Int := Decimal.digitsValue 0 ds
        if negative then -n else n
  n.bind Decimal.int64?

/-- A floating-point number. One that is too large is refused. -/
def float? (s : List Char) : Option Float :=
  let (negative, rest) := Decimal.splitSign s
  let signed (x : Float) := if negative then -x else x
  if rest == ['i', 'n', 'f'] then some (signed (1.0 / 0.0))
  else if rest == ['n', 'a', 'n'] then some (signed (0.0 / 0.0))
  else do
    let isMark (c : Char) := c == 'e' || c == 'E'
    let number := rest.takeWhile fun c => !isMark c
    let exponent := rest.drop number.length
    let whole := number.takeWhile (· != '.')
    let fraction := number.drop whole.length
    let wholes ← wholeDigits? whole
    let places ← match fraction with
      | [] => some []
      | _ :: ds => grouped? Char.isDigit ds
    let power ← match exponent with
      | [] => some 0
      | _ :: ds =>
        let (down, ds) := Decimal.splitSign ds
        (grouped? Char.isDigit ds).map fun ds =>
          let n : Int := Decimal.digitsValue 0 ds
          if down then -n else n
    if fraction.isEmpty && exponent.isEmpty then none
    else
      let mantissa := Decimal.digitsValue (Decimal.digitsValue 0 wholes) places
      let x := signed (Decimal.Literal.toFloat ⟨mantissa, power - places.length⟩)
      if x.isInf && !negative then none else some x

/-! ## Dates and times -/

/-- A number of a fixed count of digits at the front of a text, within bounds. -/
def field? (count low high : Nat) (s : List Char) : Option (Nat × List Char) := do
  let n ← Decimal.readNat? (s.take count)
  if (s.take count).length == count && low ≤ n && n ≤ high then some (n, s.drop count) else none

def after? (c : Char) : List Char → Option (List Char)
  | d :: rest => if c = d then some rest else none
  | [] => none

def afterDay? (s : List Char) : Option (List Char) := do
  let (year, s) ← field? 4 0 9999 s
  let s ← after? '-' s
  let (month, s) ← field? 2 1 12 s
  let s ← after? '-' s
  let (_, s) ← field? 2 1 (Calendar.monthLength year month) s
  pure s

def afterTime? (s : List Char) : Option (List Char) := do
  let (_, s) ← field? 2 0 23 s
  let s ← after? ':' s
  let (_, s) ← field? 2 0 59 s
  let s ← after? ':' s
  let (_, s) ← field? 2 0 60 s
  match s with
  | '.' :: rest =>
    let digits := rest.takeWhile Char.isDigit
    if digits.isEmpty then none else pure (rest.drop digits.length)
  | _ => pure s

def afterOffset? : List Char → Option (List Char)
  | c :: rest =>
    if c == 'Z' || c == 'z' then some rest
    else if c == '+' || c == '-' then do
      let (_, s) ← field? 2 0 23 rest
      let s ← after? ':' s
      let (_, s) ← field? 2 0 59 s
      pure s
    else none
  | [] => none

/-- The text behind a day with a time, the day alone, or a time alone. -/
def afterDateTime? (s : List Char) : Option (List Char) :=
  match afterDay? s with
  | some rest =>
    match rest with
    | c :: more =>
      if c == 'T' || c == 't' || (c == ' ' && more.head?.any Char.isDigit) then do
        let rest ← afterTime? more
        pure ((afterOffset? rest).getD rest)
      else some rest
    | [] => some []
  | none => afterTime? s

end SemanticLayer.Toml
