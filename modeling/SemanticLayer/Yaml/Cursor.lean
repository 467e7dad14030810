/-!
Places in the text of a YAML document, and the classes of characters that its tokens are made of.
-/
namespace SemanticLayer.Yaml

def isAllowed (c : Char) : Bool :=
  let n := c.toNat
  n == 0x9 || n == 0xA || n == 0xD || (0x20 ≤ n && n ≤ 0x7E) || n == 0x85 ||
    (0xA0 ≤ n && n ≤ 0xD7FF) || (0xE000 ≤ n && n ≤ 0xFFFD) || 0x10000 ≤ n

def isBreak (c : Char) : Bool :=
  c == '\n' || c == '\r' || c.toNat == 0x85 || c.toNat == 0x2028 || c.toNat == 0x2029

def isSpace (c : Char) : Bool :=
  c == ' ' || c == '\t'

def isWordChar (c : Char) : Bool :=
  c.isAlphanum || c == '_' || c == '-'

/-- The characters that lists and mappings in brackets are built with. -/
def isFlowIndicator (c : Char) : Bool :=
  c == ',' || c == '[' || c == ']' || c == '\x7b' || c == '\x7d'

/-- Whether no word goes on at the front of a text. -/
def endsWord : List Char → Bool
  | [] => true
  | c :: _ => isSpace c || isBreak c

/-- The text that is left, and the place where it starts. -/
structure Cursor where
  rest : List Char
  line : Nat
  column : Nat
  /-- The characters in front of it. -/
  index : Nat
  deriving Repr

namespace Cursor

def start (text : List Char) : Cursor :=
  ⟨text, 0, 0, 0⟩

def head? (c : Cursor) : Option Char :=
  c.rest.head?

def skip (c : Cursor) (count : Nat) : Cursor :=
  { c with
    rest := c.rest.drop count
    column := c.column + count
    index := c.index + count }

def skipWhile (c : Cursor) (p : Char → Bool) : Cursor :=
  c.skip (c.rest.takeWhile p).length

def at? (c : Cursor) (char : Char) : Bool :=
  c.head? == some char

def atBreak (c : Cursor) : Bool :=
  c.rest.head?.any isBreak

def atSpace (c : Cursor) : Bool :=
  c.rest.head?.any isSpace

/-- The place at the start of the next line, and the character that the line break stands for. -/
def nextLine (c : Cursor) : Char × Cursor :=
  let width := match c.rest with
    | '\r' :: '\n' :: _ => 2
    | _ => 1
  let char := match c.rest with
    | b :: _ => if b.toNat == 0x2028 || b.toNat == 0x2029 then b else '\n'
    | [] => '\n'
  (char, ⟨c.rest.drop width, c.line + 1, 0, c.index + width⟩)

/-- Whether a line opens with a mark of three characters that stands alone. -/
def atMark (c : Cursor) (mark : Char) : Bool :=
  c.column == 0 &&
    match c.rest with
    | x :: y :: z :: rest => x == mark && y == mark && z == mark && endsWord rest
    | _ => false

/-- Whether a document starts or ends here with its mark. -/
def atDocumentMark (c : Cursor) : Bool :=
  c.atMark '-' || c.atMark '.'

end Cursor

end SemanticLayer.Yaml
