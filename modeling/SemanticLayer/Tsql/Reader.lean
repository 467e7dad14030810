import SemanticLayer.Sql.Lexer
import SemanticLayer.Tsql.Keyword
import SemanticLayer.Tsql.Query
/-!
Reading tokens one after another. A reader takes what it reads from the front of a token list; the
readers here are those that all others are made of.

In the modules that follow, a reader named after a statement or a clause begins behind the keyword that
gave it away. One whose name ends in a question mark leaves the tokens as they were where nothing of its
kind stands.
-/
namespace SemanticLayer.Tsql

open Sql (Token Lexeme Place)

inductive Fault where
  | tooDeep
  /-- Something else was expected; without a token, the end was found. -/
  | expected (what : String) (found : Option Lexeme)
  /-- Any other fault, in words. -/
  | spoken (text : String) (place : Option Place)
  deriving Repr

/-- The inside of a text as a token shows it. -/
def textToken : Sql.TextKind → String → String
  | .plain, s => "'" ++ s ++ "'"
  | .doubleQuoted, s => "\"" ++ s ++ "\""
  | .national, s => "N'" ++ s ++ "'"
  | .escaped, s => "E'" ++ s ++ "'"
  | .unicode, s => "U&'" ++ s ++ "'"
  | .hex, s => "X'" ++ s ++ "'"
  | .bytes, s => "B'" ++ s ++ "'"
  | .doubleQuotedBytes, s => "B\"" ++ s ++ "\""
  | .dollar tag, s => "$" ++ tag ++ "$" ++ s ++ "$" ++ tag ++ "$"

def showToken : Token → String
  | .word text none => text
  | .word text (some '[') => "[" ++ text ++ "]"
  | .word text (some q) => String.singleton q ++ text ++ String.singleton q
  | .number digits long => digits ++ (if long then "L" else "")
  | .text kind value => textToken kind value
  | .placeholder text => text
  | .sign text => text
  | .gap => " "

def Fault.reason : Fault → String
  | tooDeep => "recursion limit exceeded"
  | expected what found =>
    "Expected: " ++ what ++ ", found: " ++
      match found with
      | some l => showToken l.token ++ l.place.words
      | none => "EOF"
  | spoken text place => text ++ ((place.map Place.words).getD "")

/-- Takes a part from the front of a token list. -/
abbrev Reader (α : Type) := StateT (List Lexeme) (Except Fault) α

namespace Reader

variable {α β : Type}

/-! ## Tokens -/

/-- The list from its first token that is not a gap. -/
def skipGaps (ts : List Lexeme) : List Lexeme :=
  ts.dropWhile fun l => l.token = .gap

def stop (fault : Fault) : Reader α :=
  fun _ => .error fault

/-- The next token, which stays. -/
def peek : Reader (Option Lexeme) :=
  fun ts => .ok ((skipGaps ts).head?, ts)

def peekTwo : Reader (Option Token × Option Token) :=
  fun ts =>
    let first := skipGaps ts
    .ok ((first.head?.map Lexeme.token, (skipGaps first.tail).head?.map Lexeme.token), ts)

def place : Reader (Option Place) :=
  fun ts => .ok ((skipGaps ts).head?.map Lexeme.place, ts)

def next : Reader (Option Lexeme) :=
  fun ts =>
    match skipGaps ts with
    | l :: rest => .ok (some l, rest)
    | [] => .ok (none, [])

/-- The next token, where no gap stands before it. -/
def nextBeside : Reader (Option Lexeme) :=
  fun ts =>
    match ts with
    | l :: rest => .ok (some l, rest)
    | [] => .ok (none, [])

/-- Stops because something else was expected in place of the next token. -/
def expected (what : String) : Reader α := do
  stop (.expected what (← peek))

def refuse (text : String) : Reader α := do
  stop (.spoken text (← place))

/-- Reads and forgets what was read. -/
def skip (r : Reader α) : Reader Unit := do
  let _ ← r

/-- The last token that was taken between two states of a list. -/
def lastTaken (before after : List Lexeme) : Option Lexeme :=
  (before.take (before.length - after.length)).getLast?

/-- Reads, or takes nothing where that fails. Too deep nesting fails all the same. -/
def attempt? (r : Reader α) : Reader (Option α) :=
  fun ts =>
    match r ts with
    | .ok (a, rest) => .ok (some a, rest)
    | .error .tooDeep => .error .tooDeep
    | .error _ => .ok (none, ts)

/-! ## Keywords -/

/-- The capitals of an unquoted word; other tokens have none. -/
def keywordOf : Token → String
  | .word text none => String.ofList (Text.capitals text.toList)
  | _ => ""

def peekKeyword : Reader String := do
  pure (((← peek).map fun l => keywordOf l.token).getD "")

def atKeyword (keyword : String) : Reader Bool := do
  match ← peek with
  | some l => pure (keywordOf l.token == keyword)
  | none => pure false

/-- Takes a keyword, if it comes next. -/
def takeKeyword (keyword : String) : Reader Bool := do
  if ← atKeyword keyword then
    skip next
    pure true
  else pure false

/-- Takes some keywords in a row, if they come next, or none of them. -/
def takeKeywords (keywords : List String) : Reader Bool :=
  fun ts =>
    let rec go : List String → List Lexeme → Option (List Lexeme)
      | [], rest => some rest
      | k :: ks, rest =>
        match skipGaps rest with
        | l :: more => if keywordOf l.token == k then go ks more else none
        | [] => none
    match go keywords ts with
    | some rest => .ok (true, rest)
    | none => .ok (false, ts)

def atKeywords (keywords : List String) : Reader Bool :=
  fun ts => (takeKeywords keywords ts).map fun r => (r.1, ts)

def takeOneOf (keywords : List String) : Reader (Option String) := do
  match ← peek with
  | some l =>
    let k := keywordOf l.token
    if keywords.contains k then
      skip next
      pure (some k)
    else pure none
  | none => pure none

/-- Takes the first of some phrases that comes next, where one does. -/
def takePhrase : List String → Reader (Option String)
  | [] => pure none
  | phrase :: phrases => do
    if ← takeKeywords (Text.words phrase) then pure (some phrase) else takePhrase phrases

/-- Takes a keyword, which has to come next. -/
def expectKeyword (keyword : String) : Reader Unit := do
  unless ← takeKeyword keyword do expected keyword

def expectKeywords : List String → Reader Unit
  | [] => pure ()
  | k :: ks => do
    expectKeyword k
    expectKeywords ks

def expectOneOf (keywords : List String) : Reader String := do
  match ← takeOneOf keywords with
  | some k => pure k
  | none => expected ("one of " ++ String.intercalate " or " keywords)

def ifExists : Reader Unit :=
  skip (takeKeywords ["IF", "EXISTS"])

def ifNotExists : Reader Unit :=
  skip (takeKeywords ["IF", "NOT", "EXISTS"])

/-! ## Signs and lists -/

def atSign (sign : String) : Reader Bool := do
  match ← peek with
  | some l => pure (l.token = .sign sign)
  | none => pure false

def takeSign (sign : String) : Reader Bool := do
  if ← atSign sign then
    skip next
    pure true
  else pure false

def expectSign (sign : String) : Reader Unit := do
  unless ← takeSign sign do expected sign

/-- Reads on as long as commas follow; every step takes a comma. -/
def moreItems (item : Reader α) : Nat → List α → Reader (List α)
  | 0, items => pure items
  | steps + 1, items => do
    if ← takeSign "," then
      let a ← item
      moreItems item steps (items ++ [a])
    else pure items

/-- At least one item, with commas between items. -/
def commaList (item : Reader α) : Reader (List α) := do
  let first ← item
  let ts ← get
  moreItems item ts.length [first]

/-- Items with commas between them up to a sign, which stays. -/
def commaListUntil (sign : String) (item : Reader α) : Reader (List α) := do
  if ← atSign sign then pure [] else commaList item

/-- Reads as long as there is something to read; every step takes a token. -/
def repeated (item : Reader (Option α)) : Nat → List α → Reader (List α)
  | 0, items => pure items
  | steps + 1, items => do
    match ← item with
    | some a => repeated item steps (items ++ [a])
    | none => pure items

/-- Everything there is to read of a kind. -/
def all (item : Reader (Option α)) : Reader (List α) := do
  let ts ← get
  repeated item ts.length []

/-- A part behind its keywords, or nothing. -/
def behind? (keywords : List String) (part : Reader α) : Reader (Option α) := do
  if ← takeKeywords keywords then pure (some (← part)) else pure none

/-- A part behind a keyword as a clause, or no clause. -/
def clause (keywords : List String) (part : Reader String) : Reader (List String) := do
  if ← takeKeywords keywords then
    pure [String.intercalate " " keywords ++ " " ++ (← part)]
  else pure []

def inParentheses (r : Reader α) : Reader α := do
  expectSign "("
  let a ← r
  expectSign ")"
  pure a

/-- Items in parentheses, or a word about what is missing. -/
def columnsOf (item : Reader α) : Reader (List α) := do
  if ← atSign "(" then inParentheses (commaList item)
  else expected "a list of columns in parentheses"

def columnsOf? (item : Reader α) : Reader (List α) := do
  if ← atSign "(" then inParentheses (commaList item) else pure []

end Reader

def commas (texts : List String) : String :=
  String.intercalate ", " texts

/-- A text in parentheses with a space in front, unless it is empty. -/
def enclosed (text : String) : String :=
  if text.isEmpty then "" else " (" ++ text ++ ")"

/-- A text with a space in front, where there is one. -/
def spaced : Option String → String
  | some text => " " ++ text
  | none => ""

end SemanticLayer.Tsql
