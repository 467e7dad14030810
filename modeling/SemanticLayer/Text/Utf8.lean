/-!
Bytes as text: the UTF-8 form of characters, strict and lenient decoding, and hexadecimal digits.
-/
namespace SemanticLayer.Text

def isTail (b : UInt8) : Bool :=
  0x80 ≤ b && b ≤ 0xBF

/-- The bounds of the byte after a lead byte that opens a character of more than one byte, and how
many bytes the character has. -/
def leadBounds (b : UInt8) : Option (UInt8 × UInt8 × Nat) :=
  if 0xC2 ≤ b && b ≤ 0xDF then some (0x80, 0xBF, 2)
  else if b == 0xE0 then some (0xA0, 0xBF, 3)
  else if b == 0xED then some (0x80, 0x9F, 3)
  else if 0xE1 ≤ b && b ≤ 0xEF then some (0x80, 0xBF, 3)
  else if b == 0xF0 then some (0x90, 0xBF, 4)
  else if 0xF1 ≤ b && b ≤ 0xF3 then some (0x80, 0xBF, 4)
  else if b == 0xF4 then some (0x80, 0x8F, 4)
  else none

/-- What stands at the front of a byte sequence: a character with its length in bytes, or a
malformed part with its length. -/
inductive Front where
  | character (c : Char) (length : Nat)
  | malformed (length : Nat)

/-- The value of a lead byte of a character of `length` bytes, without its mark. -/
def leadValue (length : Nat) (b : UInt8) : Nat :=
  b.toNat % Nat.pow 2 (7 - length)

/-- Reads the first character of a sequence that opens with `b`. A malformed part reaches as far
as a character could still have been meant. -/
def front (b : UInt8) (rest : List UInt8) : Front :=
  if b < 0x80 then .character (Char.ofNat b.toNat) 1
  else
    match leadBounds b with
    | none => .malformed 1
    | some (low, high, length) =>
      let tails := rest.take (length - 1)
      let good := match tails with
        | [] => []
        | first :: more => if low ≤ first && first ≤ high then first :: more.takeWhile isTail else []
      if good.length + 1 = length then
        .character (Char.ofNat (good.foldl (fun n t => n * 64 + t.toNat % 64) (leadValue length b)))
          length
      else .malformed (good.length + 1)

/-- The characters of a byte sequence; malformed parts become `replacement`, or make the whole
unreadable where there is none. -/
def decodeWith (replacement : Option Char) : Nat → List UInt8 → Option (List Char)
  | _, [] => some []
  | 0, _ :: _ => none
  | steps + 1, b :: rest =>
    match front b rest with
    | .character c length => (decodeWith replacement steps (rest.drop (length - 1))).map (c :: ·)
    | .malformed length =>
      replacement.bind fun r => (decodeWith replacement steps (rest.drop (length - 1))).map (r :: ·)

def decode? (bytes : List UInt8) : Option (List Char) :=
  decodeWith none bytes.length bytes

/-- The text of any bytes, with the replacement character for each malformed part. -/
def decodeLenient (bytes : List UInt8) : List Char :=
  (decodeWith (some (Char.ofNat 0xFFFD)) bytes.length bytes).getD []

def hexDigit (n : Nat) : Char :=
  if n < 10 then Char.ofNat (n + '0'.toNat) else Char.ofNat (n - 10 + 'a'.toNat)

def hexValue? (c : Char) : Option Nat :=
  if '0' ≤ c && c ≤ '9' then some (c.toNat - '0'.toNat)
  else if 'a' ≤ c && c ≤ 'f' then some (c.toNat - 'a'.toNat + 10)
  else if 'A' ≤ c && c ≤ 'F' then some (c.toNat - 'A'.toNat + 10)
  else none

def hexNumber? (digits : List Char) : Option Nat :=
  digits.foldl (fun n c => n.bind fun m => (hexValue? c).map (m * 16 + ·)) (some 0)

def hex (bytes : List UInt8) : String :=
  String.ofList (bytes.flatMap fun b => [hexDigit (b.toNat / 16), hexDigit (b.toNat % 16)])

def unhex? : List Char → Option (List UInt8)
  | [] => some []
  | [_] => none
  | a :: b :: rest => do
    let high ← hexValue? a
    let low ← hexValue? b
    let more ← unhex? rest
    pure (UInt8.ofNat (high * 16 + low) :: more)

end SemanticLayer.Text
