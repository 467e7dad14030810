import SemanticLayer.Sql.Token
import SemanticLayer.Text.Blank
import SemanticLayer.Text.Utf8
/-!
Splitting SQL text into tokens by the rules of an engine. Every reader takes a token from the front
of the text and gives the rest, or fails at a place that it tells by what is left of the text there.
-/
namespace SemanticLayer.Sql

inductive LexicalFault where
  | openText
  | openName (closing : Char)
  | openComment
  | openDollarText
  | openTaggedText
  | openEscapedText
  | openUnicodeText
  | openUnicodeEscape
  | badUnicodeDigit (c : Char)
  | badUnicodeCharacter (code : Nat)
  | strayUnderscore
  | halfOperator (text : String)
  deriving DecidableEq, Repr

def LexicalFault.reason : LexicalFault → String
  | openText => "Unterminated string literal"
  | openName closing =>
    "Expected close delimiter '" ++ String.singleton closing ++ "' before EOF."
  | openComment => "Unexpected EOF while in a multi-line comment"
  | openDollarText => "Unterminated dollar-quoted string"
  | openTaggedText => "Unterminated dollar-quoted, expected $"
  | openEscapedText => "Unterminated encoded string literal"
  | openUnicodeText => "Unterminated unicode encoded string literal"
  | openUnicodeEscape => "Unexpected EOF while parsing hex digit in escaped unicode string."
  | badUnicodeDigit c => "Invalid hex digit in escaped unicode string: " ++ String.singleton c
  | badUnicodeCharacter code =>
    "Invalid unicode character: " ++ String.ofList (Nat.toDigits 16 code)
  | strayUnderscore => "Unexpected character '_'"
  | halfOperator text => "Expected a valid binary operator after '" ++ text ++ "'"

/-- A fault and what is left of the text where it lies. -/
structure LexicalStop where
  fault : LexicalFault
  left : List Char

abbrev Scan := Except LexicalStop (Token × List Char)

namespace LexicalRules

/-! ## Texts and names in quotes -/

def escapeValue : Char → Char
  | '0' => Char.ofNat 0
  | 'a' => Char.ofNat 7
  | 'b' => Char.ofNat 8
  | 'f' => Char.ofNat 0xC
  | 'n' => '\n'
  | 'r' => '\r'
  | 't' => '\t'
  | 'Z' => Char.ofNat 0x1A
  | c => c

/-- The text up to a closing quote that is not doubled, where the opening one is taken already. -/
def quoted? (quote : Char) : List Char → Option (List Char × List Char)
  | [] => none
  | [c] => if c = quote then some ([], []) else none
  | c :: d :: rest =>
    if c = quote then
      if d = quote then (quoted? quote rest).map fun p => (quote :: p.1, p.2)
      else some ([], d :: rest)
    else (quoted? quote (d :: rest)).map fun p => (c :: p.1, p.2)

/-- The same where a backslash opens an escape. The wildcards of patterns can keep their
backslash. -/
def quotedWithEscapes? (keepsWildcards : Bool) (quote : Char) :
    List Char → Option (List Char × List Char)
  | [] => none
  | [c] => if c = quote then some ([], []) else none
  | c :: d :: rest =>
    if c = quote then
      if d = quote then (quotedWithEscapes? keepsWildcards quote rest).map fun p => (quote :: p.1, p.2)
      else some ([], d :: rest)
    else if c = '\\' then
      (quotedWithEscapes? keepsWildcards quote rest).map fun p =>
        if keepsWildcards && (d = '%' || d = '_') then (c :: d :: p.1, p.2) else (escapeValue d :: p.1, p.2)
    else (quotedWithEscapes? keepsWildcards quote (d :: rest)).map fun p => (c :: p.1, p.2)

def readText (rules : LexicalRules) (kind : TextKind) (escapes : Bool) : List Char → Scan
  | [] => .error ⟨.openText, []⟩
  | quote :: rest =>
    match
      if escapes then quotedWithEscapes? rules.backslashEscapes quote rest else quoted? quote rest
    with
    | some (value, rest) => .ok (.text kind (String.ofList value), rest)
    | none => .error ⟨.openText, quote :: rest⟩

def closingQuote (c : Char) : Char :=
  if c = '[' then ']' else c

def readQuotedName : List Char → Scan
  | [] => .error ⟨.openName '"', []⟩
  | quote :: rest =>
    match quoted? (closingQuote quote) rest with
    | some (value, rest) => .ok (.word (String.ofList value) (some quote), rest)
    | none => .error ⟨.openName (closingQuote quote), quote :: rest⟩

/-! ## Texts with escapes by a mark in front -/

def upTo (limit : Nat) (p : Char → Bool) (s : List Char) : List Char :=
  (s.take limit).takeWhile p

def isOctalDigit (c : Char) : Bool :=
  '0' ≤ c && c ≤ '7'

def isHexDigit (c : Char) : Bool :=
  (Text.hexValue? c).isSome

/-- The low byte of a code as a character, where it is ASCII. -/
def lowCharacter? (code : Nat) : Option Char :=
  if code % 256 < 128 then some (Char.ofNat (code % 256)) else none

def scalar? (code : Nat) : Option Char :=
  if h : code.isValidChar then some (Char.ofNatAux code h) else none

/-- The number of some hexadecimal digits, in front of which a plus may stand. -/
def signedHex? : List Char → Option Nat
  | [] => none
  | '+' :: d :: ds => Text.hexNumber? (d :: ds)
  | '+' :: [] => none
  | ds => Text.hexNumber? ds

/-- A character by an escape of exactly `count` digits. -/
def unicodeEscape? (count : Nat) (s : List Char) : Option (Char × List Char) :=
  if s.length < count then none
  else ((signedHex? (s.take count)).bind scalar?).map (·, s.drop count)

/-- The character of an escape whose backslash is taken already, and the text behind it. -/
def escape? : List Char → Option (Char × List Char)
  | [] => none
  | 'b' :: rest => some (Char.ofNat 8, rest)
  | 'f' :: rest => some (Char.ofNat 0xC, rest)
  | 'n' :: rest => some ('\n', rest)
  | 'r' :: rest => some ('\r', rest)
  | 't' :: rest => some ('\t', rest)
  | 'u' :: rest => unicodeEscape? 4 rest
  | 'U' :: rest => unicodeEscape? 8 rest
  | 'x' :: rest =>
    let digits := upTo 2 isHexDigit rest
    if digits.isEmpty then some ('x', rest)
    else
      (Text.hexNumber? digits).bind fun n =>
        (lowCharacter? n).map (·, rest.drop digits.length)
  | c :: rest =>
    if isOctalDigit c then
      let digits := c :: upTo 2 isOctalDigit rest
      let code := digits.foldl (fun n d => n * 8 + (d.toNat - '0'.toNat)) 0
      (lowCharacter? code).map (·, rest.drop (digits.length - 1))
    else some (c, rest)

/-- The text up to the closing quote with its escapes, none of which may give the null character.
Every step takes a character. -/
def escapedText? : Nat → List Char → Option (List Char × List Char)
  | _, [] => none
  | 0, _ => none
  | steps + 1, '\'' :: '\'' :: rest => (escapedText? steps rest).map fun p => ('\'' :: p.1, p.2)
  | _ + 1, '\'' :: rest => some ([], rest)
  | steps + 1, '\\' :: rest => do
    let (c, rest) ← escape? rest
    if c.toNat = 0 then none
    else
      let (more, rest) ← escapedText? steps rest
      pure (c :: more, rest)
  | steps + 1, c :: rest => (escapedText? steps rest).map fun p => (c :: p.1, p.2)

def unicodeCode : Nat → Nat → List Char → Except LexicalStop (Nat × List Char)
  | 0, code, s => .ok (code, s)
  | _ + 1, _, [] => .error ⟨.openUnicodeEscape, []⟩
  | count + 1, code, c :: rest =>
    match Text.hexValue? c with
    | some v => unicodeCode count (code * 16 + v) rest
    | none => .error ⟨.badUnicodeDigit c, rest⟩

def unicodeCharacter (count : Nat) (s : List Char) : Except LexicalStop (Char × List Char) := do
  let (code, rest) ← unicodeCode count 0 s
  match scalar? code with
  | some c => pure (c, rest)
  | none => throw ⟨.badUnicodeCharacter code, rest⟩

/-- The text up to the closing quote, with characters by their codes behind backslashes. -/
def unicodeText : Nat → List Char → Except LexicalStop (List Char × List Char)
  | _, [] => .error ⟨.openUnicodeText, []⟩
  | 0, s => .error ⟨.openUnicodeText, s⟩
  | steps + 1, '\'' :: '\'' :: rest => do
    let (more, rest) ← unicodeText steps rest
    pure ('\'' :: more, rest)
  | _ + 1, '\'' :: rest => .ok ([], rest)
  | steps + 1, '\\' :: '\\' :: rest => do
    let (more, rest) ← unicodeText steps rest
    pure ('\\' :: more, rest)
  | steps + 1, '\\' :: '+' :: rest => do
    let (c, rest) ← unicodeCharacter 6 rest
    let (more, rest) ← unicodeText steps rest
    pure (c :: more, rest)
  | steps + 1, '\\' :: rest => do
    let (c, rest) ← unicodeCharacter 4 rest
    let (more, rest) ← unicodeText steps rest
    pure (c :: more, rest)
  | steps + 1, c :: rest => do
    let (more, rest) ← unicodeText steps rest
    pure (c :: more, rest)

/-! ## Dollar signs -/

/-- The text up to two dollar signs in a row. -/
def dollarText? : List Char → Option (List Char × List Char)
  | [] => none
  | '$' :: '$' :: rest => some ([], rest)
  | c :: rest => (dollarText? rest).map fun p => (c :: p.1, p.2)

def taggedText? (closing : List Char) : List Char → Option (List Char × List Char)
  | [] => if closing.isEmpty then some ([], []) else none
  | c :: rest =>
    if closing.isPrefixOf (c :: rest) then some ([], (c :: rest).drop closing.length)
    else (taggedText? closing rest).map fun p => (c :: p.1, p.2)

/-- The characters of a tag or of the name of a placeholder. -/
def isTagPart (c : Char) : Bool :=
  Text.isAlphanumeric c || c == '_'

/-- A text between dollar signs or a placeholder, the first dollar sign of which is taken
already. -/
def readDollar : List Char → Scan
  | '$' :: rest =>
    match dollarText? rest with
    | some (value, rest) => .ok (.text (.dollar "") (String.ofList value), rest)
    | none => .error ⟨.openDollarText, []⟩
  | s =>
    let tag := s.takeWhile isTagPart
    -- a second dollar sign makes a tag of what else is a placeholder's name
    match s.dropWhile isTagPart with
    | '$' :: rest =>
      match taggedText? ('$' :: tag ++ ['$']) rest with
      | some (value, rest) =>
        .ok (.text (.dollar (String.ofList tag)) (String.ofList value), rest)
      | none => .error ⟨.openTaggedText, []⟩
    | rest => .ok (.placeholder (String.ofList ('$' :: tag)), rest)

/-! ## Comments -/

def afterLine (rules : LexicalRules) (s : List Char) : List Char :=
  (s.dropWhile fun c => !(c == '\n' || (rules.returnEndsComment && c == '\r'))).drop 1

/-- What is behind a comment between marks that is `depth` deep, where the opening mark is taken
already. -/
def afterComment? (nests : Bool) : Nat → List Char → Option (List Char)
  | _, [] => none
  | _, [_] => none
  | depth, c :: d :: rest =>
    if c = '/' && d = '*' && nests then afterComment? nests (depth + 1) rest
    else if c = '*' && d = '/' then
      match depth with
      | depth + 2 => afterComment? nests (depth + 1) rest
      | _ => some rest
    else afterComment? nests depth (d :: rest)

/-! ## Names and numbers -/

def readWord (rules : LexicalRules) (start : List Char) (rest : List Char) : Scan :=
  .ok (.word (String.ofList (start ++ rest.takeWhile rules.isNamePart)) none,
    rest.dropWhile rules.isNamePart)

/-- The digits from the front, among which there may be single separators. -/
def digits (rules : LexicalRules) (isDigit : Char → Bool) : List Char → List Char
  | [] => []
  | c :: rest =>
    if isDigit c then c :: digits rules isDigit rest
    else if rules.groupedDigits && c = '_' then
      match rest with
      | d :: _ => if isHexDigit d then c :: digits rules isDigit rest else []
      | [] => []
    else []

def exponentPart : List Char → List Char
  | [] => []
  | e :: rest =>
    if e = 'e' || e = 'E' then
      match rest with
      | s :: d :: _ =>
        if (s = '+' || s = '-') && d.isDigit then
          e :: s :: (rest.drop 1).takeWhile Char.isDigit
        else if s.isDigit then e :: rest.takeWhile Char.isDigit
        else []
      | [d] => if d.isDigit then [e, d] else []
      | [] => []
    else []

/-- What stands behind the digits of a number: an `L` belongs to it. -/
def finishNumber (number : List Char) : List Char → Scan
  | 'L' :: rest => .ok (.number (String.ofList number) true, rest)
  | rest => .ok (.number (String.ofList number) false, rest)

/-- A number with its whole part, fraction and exponent, or a name that begins like one. -/
def finishDecimal (rules : LexicalRules) (previous : Token) (number rest : List Char) : Scan :=
  let exponent := exponentPart rest
  let whole := number ++ exponent
  let rest := rest.drop exponent.length
  if rules.digitNames then
    if exponent.isEmpty then
      let name := rest.takeWhile rules.isNamePart
      if name.isEmpty then finishNumber whole rest
      else .ok (.word (String.ofList (whole ++ name)) none, rest.drop name.length)
    else if previous = .sign "." then .ok (.word (String.ofList whole) none, rest)
    else finishNumber whole rest
  else finishNumber whole rest

/-- A number or a point, one of whose characters comes next. A point in front of an underscore
only stands behind a word. -/
def readNumber (rules : LexicalRules) (previous : Token) (s : List Char) : Scan :=
  match s with
  | '.' :: '_' :: rest =>
    if previous.isWord then .ok (.sign ".", '_' :: rest)
    else .error ⟨.strayUnderscore, s⟩
  | _ =>
    let whole := digits rules Char.isDigit s
    let rest := s.drop whole.length
    match whole, rest with
    | ['0'], 'x' :: rest =>
      let value := digits rules isHexDigit rest
      .ok (.text .hex (String.ofList value), rest.drop value.length)
    | _, '.' :: rest =>
      if whole.isEmpty && rules.digitNames && previous.isWord then .ok (.sign ".", rest)
      else
        let fraction := digits rules Char.isDigit rest
        if whole.isEmpty && fraction.isEmpty then .ok (.sign ".", rest)
        else
          finishDecimal rules previous (whole ++ '.' :: fraction) (rest.drop fraction.length)
    | _, _ => finishDecimal rules previous whole rest

/-! ## Operators -/

/-- An operator that is another one if operator characters follow. -/
def extend (rules : LexicalRules) (spelled : String) (known : String) (rest : List Char) : Scan :=
  let more := rest.takeWhile rules.isOperatorPart
  if more.isEmpty then .ok (.sign known, rest)
  else .ok (.sign (spelled ++ String.ofList more), rest.drop more.length)

def extendOrStop (rules : LexicalRules) (spelled : String) (rest : List Char) : Scan :=
  let more := rest.takeWhile rules.isOperatorPart
  if more.isEmpty then .error ⟨.halfOperator spelled, rest⟩
  else .ok (.sign (spelled ++ String.ofList more), rest.drop more.length)

/-- The operators on geometric types and the question marks, where the engine has them. -/
def geometric? (rules : LexicalRules) : List Char → Option Scan
  | '|' :: '&' :: '>' :: rest => some (extend rules "|&>" "|&>" rest)
  | '|' :: '&' :: rest => some (extendOrStop rules "|&" rest)
  | '|' :: '>' :: '>' :: rest => some (extend rules "|>>" "|>>" rest)
  | '|' :: '>' :: rest => some (extendOrStop rules "|>" rest)
  | '<' :: '|' :: rest => some (extend rules "<<|" "<<|" rest)
  | '<' :: '<' :: '|' :: rest => some (extend rules "<<|" "<<|" rest)
  | '<' :: '-' :: '>' :: rest => some (extend rules "<->" "<->" rest)
  | '<' :: '-' :: rest => some (extendOrStop rules "<-" rest)
  | '<' :: '^' :: rest => some (extend rules "<^" "<^" rest)
  | '>' :: '^' :: rest => some (extend rules ">^" ">^" rest)
  -- the character behind it belongs to the operator
  | '&' :: '>' :: rest => some (.ok (.sign "&>", rest.drop 1))
  | '&' :: '<' :: '|' :: rest => some (.ok (.sign "&<|", rest))
  | '&' :: '<' :: rest => some (extend rules "&<" "&<" rest)
  | '~' :: '=' :: rest => some (extend rules "~=" "~=" rest)
  | '#' :: '#' :: rest => some (extend rules "##" "##" rest)
  | '@' :: '@' :: rest => some (.ok (.sign "@@", rest))
  | '@' :: '-' :: '@' :: rest => some (.ok (.sign "@-@", rest))
  | '@' :: '-' :: rest => some (extendOrStop rules "@-" rest)
  | '?' :: '|' :: '|' :: rest => some (.ok (.sign "?||", rest))
  | '?' :: '|' :: rest => some (.ok (.sign "?|", rest))
  | '?' :: '&' :: rest => some (.ok (.sign "?&", rest))
  | '?' :: '-' :: '|' :: rest => some (.ok (.sign "?-|", rest))
  | '?' :: '-' :: rest => some (.ok (.sign "?-", rest))
  | '?' :: '#' :: rest => some (.ok (.sign "?#", rest))
  | '?' :: rest => some (.ok (.sign "?", rest))
  | _ => none

/-- A name that begins with some signs, where the engine allows that. The character behind the
signs is part of it, whichever it is. -/
def signedName? (rules : LexicalRules) (start : Char) (signs : List Char) :
    List Char → Option Scan
  | c :: rest => if rules.isNameStart start then some (readWord rules (signs ++ [c]) rest) else none
  | [] => none

def readHash (rules : LexicalRules) : List Char → Scan
  | '-' :: rest => extend rules "#-" "#-" rest
  | '>' :: '>' :: rest => extend rules "#>>" "#>>" rest
  | '>' :: rest => extend rules "#>" "#>" rest
  | ' ' :: rest => .ok (.sign "#", ' ' :: rest)
  | s => (signedName? rules '#' ['#'] s).getD (extend rules "#" "#" s)

def readAt (rules : LexicalRules) : List Char → Scan
  | '>' :: rest => .ok (.sign "@>", rest)
  | '?' :: rest => .ok (.sign "@?", rest)
  | '@' :: ' ' :: rest => .ok (.sign "@@", ' ' :: rest)
  | '@' :: rest => (signedName? rules '@' ['@', '@'] rest).getD (.ok (.sign "@@", rest))
  | s =>
    match s with
    | [] => .ok (.sign "@", s)
    | c :: _ =>
      if c = ' ' || c = '\'' || c = '"' || c = '\x60' then .ok (.sign "@", s)
      else (signedName? rules '@' ['@'] s).getD (.ok (.sign "@", s))

def readSign? (rules : LexicalRules) : List Char → Option Scan
  | '(' :: rest => some (.ok (.sign "(", rest))
  | ')' :: rest => some (.ok (.sign ")", rest))
  | ',' :: rest => some (.ok (.sign ",", rest))
  | ';' :: rest => some (.ok (.sign ";", rest))
  | '[' :: rest => some (.ok (.sign "[", rest))
  | ']' :: rest => some (.ok (.sign "]", rest))
  | '\x7b' :: rest => some (.ok (.sign "\x7b", rest))
  | '\x7d' :: rest => some (.ok (.sign "\x7d", rest))
  | '\\' :: rest => some (.ok (.sign "\\", rest))
  | '+' :: rest => some (.ok (.sign "+", rest))
  | '*' :: rest => some (.ok (.sign "*", rest))
  | '/' :: rest => some (.ok (.sign "/", rest))
  | '-' :: '>' :: '>' :: rest => some (extend rules "->>" "->>" rest)
  | '-' :: '>' :: rest => some (extend rules "->" "->" rest)
  | '-' :: rest => some (extend rules "-" "-" rest)
  | '%' :: rest => some (extend rules "%" "%" rest)
  | '|' :: '/' :: rest => some (extend rules "|/" "|/" rest)
  | '|' :: '|' :: '/' :: rest => some (extend rules "||/" "||/" rest)
  | '|' :: '|' :: rest => some (extend rules "||" "||" rest)
  | '|' :: rest => some (extend rules "|" "|" rest)
  | '=' :: '>' :: rest => some (.ok (.sign "=>", rest))
  | '=' :: '=' :: rest => some (.ok (.sign "==", rest))
  | '=' :: rest => some (.ok (.sign "=", rest))
  | '!' :: '=' :: rest => some (.ok (.sign "<>", rest))
  | '!' :: '!' :: rest => some (.ok (.sign "!!", rest))
  | '!' :: '~' :: '*' :: rest => some (extend rules "!~*" "!~*" rest)
  | '!' :: '~' :: '~' :: '*' :: rest => some (extend rules "!~~*" "!~~*" rest)
  | '!' :: '~' :: '~' :: rest => some (extend rules "!~~" "!~~" rest)
  | '!' :: '~' :: rest => some (extend rules "!~" "!~" rest)
  | '!' :: rest => some (.ok (.sign "!", rest))
  | '<' :: '=' :: '>' :: rest => some (extend rules "<=>" "<=>" rest)
  | '<' :: '=' :: rest => some (extend rules "<=" "<=" rest)
  | '<' :: '>' :: rest => some (extend rules "<>" "<>" rest)
  | '<' :: '<' :: rest => some (extend rules "<<" "<<" rest)
  | '<' :: '@' :: rest => some (extend rules "<@" "<@" rest)
  | '<' :: rest => some (extend rules "<" "<" rest)
  | '>' :: '=' :: rest => some (extend rules ">=" ">=" rest)
  | '>' :: '>' :: rest => some (extend rules ">>" ">>" rest)
  | '>' :: rest => some (extend rules ">" ">" rest)
  | ':' :: ':' :: rest => some (.ok (.sign "::", rest))
  | ':' :: '=' :: rest => some (.ok (.sign ":=", rest))
  | ':' :: rest => some (.ok (.sign ":", rest))
  | '&' :: '&' :: rest => some (extend rules "&&" "&&" rest)
  | '&' :: rest => some (extend rules "&" "&" rest)
  | '^' :: '@' :: rest => some (.ok (.sign "^@", rest))
  | '^' :: rest => some (.ok (.sign "^", rest))
  | '~' :: '*' :: rest => some (extend rules "~*" "~*" rest)
  | '~' :: '~' :: '*' :: rest => some (extend rules "~~*" "~~*" rest)
  | '~' :: '~' :: rest => some (extend rules "~~" "~~" rest)
  | '~' :: rest => some (extend rules "~" "~" rest)
  | '#' :: rest => some (readHash rules rest)
  | '@' :: rest => some (readAt rules rest)
  | '?' :: rest =>
    let number := rest.takeWhile Text.isNumeric
    some (.ok (.placeholder (String.ofList ('?' :: number)), rest.drop number.length))
  | _ => none

/-! ## Tokens -/

/-- The characters that are white space before anything else. -/
def isPlainGap (c : Char) : Bool :=
  c == ' ' || c == '\t' || c == '\n'

def lineComment? (rules : LexicalRules) : List Char → Option (List Char)
  | '-' :: '-' :: rest =>
    if !rules.spacedComments || rest.head? = some ' ' then some rest else none
  | '#' :: rest => if rules.hashComments then some rest else none
  | _ => none

/-- A text literal with a letter in front, where the engine has one. -/
def markedText? (rules : LexicalRules) : List Char → Option Scan
  | c :: '\'' :: rest =>
    if c = 'N' || c = 'n' then
      some (readText rules .national rules.backslashEscapes ('\'' :: rest))
    else if c = 'X' || c = 'x' then some (readText rules .hex true ('\'' :: rest))
    else if (c = 'B' || c = 'b') && rules.byteTexts then
      some (readText rules .bytes false ('\'' :: rest))
    else if (c = 'E' || c = 'e') && rules.markedTexts then
      some (match escapedText? rest.length rest with
        | some (value, rest) => .ok (.text .escaped (String.ofList value), rest)
        | none => .error ⟨.openEscapedText, c :: '\'' :: rest⟩)
    else none
  | c :: '"' :: rest =>
    if (c = 'B' || c = 'b') && rules.byteTexts then
      some (readText rules .doubleQuotedBytes false ('"' :: rest))
    else none
  | c :: '&' :: '\'' :: rest =>
    if (c = 'U' || c = 'u') && rules.markedTexts then
      some (do
        let (value, rest) ← unicodeText rest.length rest
        pure (.text .unicode (String.ofList value), rest))
    else none
  | _ => none

/-- The letters that a text literal or a word can begin with. -/
def isMarkLetter (rules : LexicalRules) (c : Char) : Bool :=
  c == 'N' || c == 'n' || c == 'X' || c == 'x' ||
    ((c == 'B' || c == 'b') && rules.byteTexts) ||
    ((c == 'E' || c == 'e' || c == 'U' || c == 'u') && rules.markedTexts)

/-- The first token of a text that begins with `c`; `previous` is the token before it. -/
def scan (rules : LexicalRules) (previous : Token) (c : Char) (rest : List Char) : Scan :=
  let s := c :: rest
  if isPlainGap c then .ok (.gap, rest)
  else if c = '\r' then .ok (.gap, if rest.head? = some '\n' then rest.drop 1 else rest)
  -- a letter may begin a marked text as well as a word, and the text goes first
  else if isMarkLetter rules c then (markedText? rules s).getD (readWord rules [c] rest)
  else if c = '\'' then readText rules .plain rules.backslashEscapes s
  else if rules.nameQuotes.contains c then readQuotedName s
  else if c = '"' then readText rules .doubleQuoted rules.backslashEscapes s
  else if c.isDigit || c = '.' then readNumber rules previous s
  else
    -- comments go before the signs they begin with
    match lineComment? rules s with
    | some comment => .ok (.gap, afterLine rules comment)
    | none =>
      if c = '/' && rest.head? = some '*' then
        match afterComment? rules.nestedComments 1 (rest.drop 1) with
        | some rest => .ok (.gap, rest)
        | none => .error ⟨.openComment, []⟩
      else
        match if rules.geometricOperators then geometric? rules s else none with
        | some result => result
        | none =>
          match readSign? rules s with
          | some result => result
          | none =>
            if rules.isNameStart c then readWord rules [c] rest
            else if c = '$' then readDollar rest
            else if Text.isBlank c then .ok (.gap, rest)
            else .ok (.sign (String.singleton c), rest)

/-- The tokens of a text with their places, from `place` on. A token takes at least one
character. -/
def lexemesFrom (rules : LexicalRules) :
    Nat → Token → Place → List Char → Except (LexicalFault × Place) (List Lexeme)
  | _, _, _, [] => .ok []
  | 0, _, _, _ :: _ => .ok []
  | steps + 1, previous, place, c :: rest =>
    let s := c :: rest
    match rules.scan previous c rest with
    | .error stop => .error (stop.fault, place.behind (s.take (s.length - stop.left.length)))
    | .ok (token, left) => do
      let more ← lexemesFrom rules steps token
        (place.behind (s.take (s.length - left.length))) left
      pure (⟨token, place⟩ :: more)

def lexemes (rules : LexicalRules) (s : List Char) :
    Except (LexicalFault × Place) (List Lexeme) :=
  lexemesFrom rules s.length .gap .start s

end LexicalRules

def describeFault (f : LexicalFault × Place) : String :=
  f.1.reason ++ f.2.words

end SemanticLayer.Sql
