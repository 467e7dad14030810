import SemanticLayer.Yaml.Cursor
import SemanticLayer.Yaml.Scalar
/-!
The tokens of a YAML document. Indentation shows as tokens of its own, so that blocks are enclosed just as
lists and mappings in brackets are. Whether a scalar is a key shows only at the colon behind it; the
tokens that make it one are then put in front of it.
-/
namespace SemanticLayer.Yaml

inductive Token where
  /-- The version of YAML that a document asks for. -/
  | version (major minor : Nat)
  /-- A shorthand for the front of tags. -/
  | tagShorthand (handle front : String)
  | documentStart
  | documentEnd
  | streamEnd
  | sequenceStart
  | mappingStart
  | blockEnd
  | flowSequenceStart
  | flowSequenceEnd
  | flowMappingStart
  | flowMappingEnd
  | flowEntry
  | blockEntry
  | key
  | value
  | reference (name : String)
  | anchor (name : String)
  | tag (handle suffix : String)
  | scalar (text : String) (plain : Bool)
  deriving DecidableEq, Repr

/-- A token that may turn out to be a key, since a colon follows it. It has to stand in one line with
the colon. -/
structure PossibleKey where
  /-- Nothing but a key may stand here. -/
  required : Bool
  /-- How many tokens are in front of it. -/
  place : Nat
  position : Cursor

/-- Whether a colon at `now` would come too late for the key. -/
def PossibleKey.isStale (k : PossibleKey) (now : Cursor) : Bool :=
  k.position.line < now.line || k.position.index + 1024 < now.index

/-- What has been read, and what that says about the rest. -/
structure Lexer where
  cursor : Cursor
  tokens : Array Token
  /-- The column of the innermost block, and those of the blocks around it. -/
  indent : Int
  outer : List Int
  /-- What may become a key, for each open bracket and for the blocks around them. -/
  keys : List (Option PossibleKey)
  /-- The open brackets. -/
  flow : Nat
  /-- A key without a mark may start here. -/
  keyAllowed : Bool

namespace Lexer

def start (text : List Char) : Lexer where
  cursor := .start text
  tokens := #[]
  indent := -1
  outer := []
  keys := [none]
  flow := 0
  keyAllowed := true

def inFlow (s : Lexer) : Bool :=
  0 < s.flow

def push (s : Lexer) (t : Token) : Lexer :=
  { s with tokens := s.tokens.push t }

/-- Adds a token and goes on behind its characters. -/
def take (s : Lexer) (t : Token) (width : Nat) : Lexer :=
  { s.push t with cursor := s.cursor.skip width }

/-- Ends the blocks that are indented deeper than a column. -/
def closeBlocks (s : Lexer) (column : Int) : Lexer :=
  if s.inFlow then s else close s.indent s.outer s
where
  close (indent : Int) : List Int → Lexer → Lexer
    | [], s => s
    | next :: outer, s =>
      if column < indent then close next outer { s.push .blockEnd with indent := next, outer }
      else s

/-- Starts a block at a column that is indented deeper than the innermost one, with its token in
front of the token at `place`. -/
def openBlock (s : Lexer) (column place : Nat) (t : Token) : Lexer :=
  if !s.inFlow && s.indent < column then
    { s with
      tokens := s.tokens.toList.insertIdx place t |>.toArray
      indent := column
      outer := s.indent :: s.outer }
  else s

def key? (s : Lexer) : Option PossibleKey :=
  s.keys.head?.join

def dropKey? (s : Lexer) : Option Lexer :=
  if s.key?.any PossibleKey.required then none
  else some { s with keys := none :: s.keys.tail }

/-- Notes that a key may start here. -/
def noteKey? (s : Lexer) : Option Lexer :=
  if s.keyAllowed then do
    let required := !s.inFlow && s.indent == s.cursor.column
    let s ← s.dropKey?
    pure { s with keys := some ⟨required, s.tokens.size, s.cursor⟩ :: s.keys.tail }
  else some s

/-- Gives up the possible keys for which a colon would come too late. -/
def dropStaleKeys? (s : Lexer) : Option Lexer := do
  let keys ← s.keys.mapM fun
    | none => some none
    | some k =>
      if !k.isStale s.cursor then some (some k)
      else if k.required then none
      else some none
  pure { s with keys }

/-- Goes on to the next token, over blanks, comments and line breaks. A tab may not indent what could
be a key. -/
def skipBlanks (s : Lexer) : Nat → Lexer
  | 0 => s
  | steps + 1 =>
    let cursor := if s.cursor.column == 0 && s.cursor.head?.any (fun c => c.toNat == 0xFEFF) then
      s.cursor.skip 1 else s.cursor
    let cursor := cursor.skipWhile fun c => c == ' ' || (c == '\t' && (s.inFlow || !s.keyAllowed))
    let cursor := skipComment cursor
    if cursor.atBreak then
      skipBlanks
        { s with cursor := cursor.nextLine.2, keyAllowed := s.keyAllowed || !s.inFlow } steps
    else { s with cursor }

/-! ## Names and tags -/

def endsName : List Char → Bool
  | [] => true
  | c :: rest => endsWord (c :: rest) || ['?', ':', ',', ']', '\x7d', '%', '@', '\x60'].contains c

/-- The name of an anchor or alias behind its sign. -/
def readName? (cursor : Cursor) : Option (String × Cursor) :=
  let name := cursor.rest.takeWhile isWordChar
  let next := cursor.skip name.length
  if name.isEmpty || !endsName next.rest then none else some (String.ofList name, next)

def isTagChar (verbatim : Bool) (c : Char) : Bool :=
  isWordChar c ||
    [';', '/', '?', ':', '@', '&', '=', '+', '$', '.', '%', '!', '~', '*', '\'', '(', ')'].contains c ||
    (verbatim && [',', '[', ']'].contains c)

/-- A tag with its exclamation mark: in angle brackets, with a handle between two marks, or with the
mark alone as its handle. -/
def readTag? (cursor : Cursor) : Option (Token × Cursor) :=
  match cursor.rest with
  | '!' :: '<' :: rest =>
    let uri := rest.takeWhile (isTagChar true)
    let next := cursor.skip (2 + uri.length)
    if uri.isEmpty || !next.at? '>' then none
    else some (.tag "" (String.ofList uri), next.skip 1)
  | '!' :: rest =>
    let word := rest.takeWhile isWordChar
    match rest.drop word.length with
    | '!' :: more =>
      let suffix := more.takeWhile (isTagChar false)
      if suffix.isEmpty then none
      else some (.tag (String.ofList ('!' :: word ++ ['!'])) (String.ofList suffix),
        cursor.skip (2 + word.length + suffix.length))
    | _ =>
      let suffix := rest.takeWhile (isTagChar false)
      let next := cursor.skip (1 + suffix.length)
      if suffix.isEmpty then some (.tag "" "!", next)
      else some (.tag "!" (String.ofList suffix), next)
  | _ => none

def readNumber? (cursor : Cursor) : Option (Nat × Cursor) :=
  let digits := cursor.rest.takeWhile Char.isDigit
  if digits.isEmpty || 9 < digits.length then none
  else
    some (digits.foldl (fun n c => n * 10 + (c.toNat - '0'.toNat)) 0, cursor.skip digits.length)

def readHandle? (cursor : Cursor) : Option (String × Cursor) :=
  match cursor.rest with
  | '!' :: rest =>
    let word := rest.takeWhile isWordChar
    match rest.drop word.length with
    | '!' :: _ => some (String.ofList ('!' :: word ++ ['!']), cursor.skip (2 + word.length))
    | _ => if word.isEmpty then some ("!", cursor.skip 1) else none
  | _ => none

def readDirective? (cursor : Cursor) : Option (Token × Cursor) := do
  let name := cursor.rest.takeWhile isWordChar
  let next := cursor.skip name.length
  let (token, next) ← match String.ofList name with
    | "YAML" => do
      let (major, next) ← readNumber? (next.skipWhile isSpace)
      let (minor, next) ← if next.at? '.' then readNumber? (next.skip 1) else none
      pure (Token.version major minor, next)
    | "TAG" => do
      let (handle, next) ← readHandle? (next.skipWhile isSpace)
      let next ← if next.atSpace then some (next.skipWhile isSpace) else none
      let front := next.rest.takeWhile (isTagChar true)
      let next := next.skip front.length
      if front.isEmpty || !endsWord next.rest then none
      else pure (Token.tagShorthand handle (String.ofList front), next)
    | _ => none
  let next := skipComment (next.skipWhile isSpace)
  if next.rest.isEmpty then pure (token, next)
  else if next.atBreak then pure (token, next.nextLine.2)
  else none

/-! ## Tokens -/

/-- The characters that mean something at the beginning of a scalar. -/
def indicators : List Char :=
  [',', '[', ']', '\x7b', '\x7d', '#', '&', '*', '!', '|', '>', '\'', '"', '%', '@', '\x60']

/-- Whether a plain scalar may start here. Signs of structure may start one where a word goes on
behind them. -/
def startsPlain (flow : Bool) : List Char → Bool
  | [] => false
  | c :: rest =>
    if isSpace c || isBreak c then false
    else if c == '-' then !rest.head?.any isSpace
    else if c == '?' || c == ':' then !flow && !endsWord rest
    else !indicators.contains c

def documentMark? (s : Lexer) (t : Token) : Option Lexer := do
  let s ← (s.closeBlocks (-1)).dropKey?
  pure { s.take t 3 with keyAllowed := false }

def directive? (s : Lexer) : Option Lexer := do
  let s ← (s.closeBlocks (-1)).dropKey?
  let (t, cursor) ← readDirective? (s.cursor.skip 1)
  pure { s.push t with cursor, keyAllowed := false }

def openFlow? (s : Lexer) (t : Token) : Option Lexer := do
  let s ← s.noteKey?
  pure { s.take t 1 with keys := none :: s.keys, flow := s.flow + 1, keyAllowed := true }

def closeFlow? (s : Lexer) (t : Token) : Option Lexer := do
  let s ← s.dropKey?
  let s := if s.inFlow then { s with keys := s.keys.tail, flow := s.flow - 1 } else s
  pure { s.take t 1 with keyAllowed := false }

def flowEntry? (s : Lexer) : Option Lexer := do
  let s ← s.dropKey?
  pure { s.take .flowEntry 1 with keyAllowed := true }

def blockEntry? (s : Lexer) : Option Lexer := do
  let s ← if s.inFlow then some s
    else if s.keyAllowed then
      some (s.openBlock s.cursor.column s.tokens.size .sequenceStart)
    else none
  let s ← s.dropKey?
  pure { s.take .blockEntry 1 with keyAllowed := true }

def keySign? (s : Lexer) : Option Lexer := do
  let s ← if s.inFlow then some s
    else if s.keyAllowed then some (s.openBlock s.cursor.column s.tokens.size .mappingStart)
    else none
  let s ← s.dropKey?
  pure { s.take .key 1 with keyAllowed := !s.inFlow }

/-- The sign of a value. It makes a key of what may be one. -/
def valueSign? (s : Lexer) : Option Lexer :=
  match s.key? with
  | some k =>
    let tokens := s.tokens.toList.insertIdx k.place .key |>.toArray
    let s := { s with tokens, keys := none :: s.keys.tail, keyAllowed := false }
    let s := s.openBlock k.position.column k.place .mappingStart
    some (s.take .value 1)
  | none =>
    if s.inFlow then some { s.take .value 1 with keyAllowed := false }
    else if s.keyAllowed then
      let s := s.openBlock s.cursor.column s.tokens.size .mappingStart
      some { s.take .value 1 with keyAllowed := true }
    else none

def name? (s : Lexer) (token : String → Token) : Option Lexer := do
  let s ← s.noteKey?
  let (name, cursor) ← readName? (s.cursor.skip 1)
  pure { s.push (token name) with cursor, keyAllowed := false }

/-- A tag. A blank has to follow it, or a comma in brackets. -/
def tag? (s : Lexer) : Option Lexer := do
  let s ← s.noteKey?
  let (t, cursor) ← readTag? s.cursor
  if endsWord cursor.rest || (s.inFlow && cursor.at? ',') then
    pure { s.push t with cursor, keyAllowed := false }
  else none

def block? (s : Lexer) (folded : Bool) : Option Lexer := do
  let s ← s.dropKey?
  let (text, cursor) ← readBlock? folded s.indent s.cursor
  pure { s.push (.scalar (String.ofList text) false) with cursor, keyAllowed := true }

def quoted? (s : Lexer) (single : Bool) : Option Lexer := do
  let s ← s.noteKey?
  let (text, cursor) ← readQuoted? single s.cursor
  pure { s.push (.scalar (String.ofList text) false) with cursor, keyAllowed := false }

/-- A plain scalar. A key may start behind it if it ends with its line. -/
def plain? (s : Lexer) : Option Lexer := do
  let s ← s.noteKey?
  let (text, cursor, broken) ← readPlain? s.inFlow (s.indent + 1) s.cursor
  pure { s.push (.scalar (String.ofList text) true) with cursor, keyAllowed := broken }

/-- The end of the text, which ends all blocks. -/
def finish? (s : Lexer) : Option Lexer := do
  let s ← (s.closeBlocks (-1)).dropKey?
  pure (s.push .streamEnd)

def next? (s : Lexer) : Option Lexer :=
  if s.cursor.column == 0 && s.cursor.at? '%' then s.directive?
  else if s.cursor.atMark '-' then s.documentMark? .documentStart
  else if s.cursor.atMark '.' then s.documentMark? .documentEnd
  else
    match s.cursor.rest with
    | [] => none
    | c :: rest =>
      let alone := endsWord rest
      if c == '[' then s.openFlow? .flowSequenceStart
      else if c == '\x7b' then s.openFlow? .flowMappingStart
      else if c == ']' then s.closeFlow? .flowSequenceEnd
      else if c == '\x7d' then s.closeFlow? .flowMappingEnd
      else if c == ',' then s.flowEntry?
      else if c == '-' && alone then s.blockEntry?
      else if c == '?' && (s.inFlow || alone) then s.keySign?
      else if c == ':' && (s.inFlow || alone) then s.valueSign?
      else if c == '*' then s.name? .reference
      else if c == '&' then s.name? .anchor
      else if c == '!' then s.tag?
      else if c == '|' && !s.inFlow then s.block? false
      else if c == '>' && !s.inFlow then s.block? true
      else if c == '\'' then s.quoted? true
      else if c == '"' then s.quoted? false
      else if startsPlain s.inFlow (c :: rest) then s.plain?
      else none

def run? (s : Lexer) : Nat → Option (List Token)
  | 0 => none
  | steps + 1 => do
    let s ← (s.skipBlanks (s.cursor.rest.length + 1)).dropStaleKeys?
    let s := s.closeBlocks s.cursor.column
    if s.cursor.rest.isEmpty then
      let s ← s.finish?
      pure s.tokens.toList
    else
      let s ← s.next?
      run? s steps

end Lexer

/-- The tokens of a text. Every step but the last takes a character. -/
def tokens? (text : List Char) : Option (List Token) :=
  let body := match text with
    | c :: rest => if c.toNat == 0xFEFF then rest else c :: rest
    | [] => []
  if body.all isAllowed then (Lexer.start body).run? (body.length + 1) else none

end SemanticLayer.Yaml
