import SemanticLayer.Text.Utf8
import SemanticLayer.Yaml.Cursor
/-!
Scalars of YAML: quoted, plain and in block form. Lines are folded: one line break counts as a blank,
further ones are kept. Each reader gives the text and the place behind it.
-/
namespace SemanticLayer.Yaml

/-- Blanks and line breaks between two parts of a scalar. -/
structure Gap where
  /-- The blanks in front of the first line break. -/
  blanks : List Char
  /-- There is a line break. -/
  broken : Bool
  /-- The first line break, unless it was escaped. -/
  first : Option Char
  others : List Char
  deriving Repr

namespace Gap

def none : Gap :=
  ⟨[], false, .none, []⟩

def text (g : Gap) : List Char :=
  if g.broken then
    match g.first with
    | some '\n' => if g.others.isEmpty then [' '] else g.others
    | some c => c :: g.others
    | .none => g.others
  else g.blanks

/-- Reads on over blanks and line breaks. No tab may stand in front of column `indent` on a new
line. -/
def read? (indent : Int) (gap : Gap) (cursor : Cursor) : Nat → Option (Gap × Cursor)
  | 0 => .none
  | steps + 1 =>
    if cursor.atBreak then
      let (c, next) := cursor.nextLine
      let gap' := if gap.broken then { gap with others := gap.others ++ [c] }
        else { gap with blanks := [], broken := true, first := some c }
      read? indent gap' next steps
    else
      match cursor.rest with
      | c :: _ =>
        if !isSpace c then some (gap, cursor)
        else if gap.broken && (cursor.column : Int) < indent && c == '\t' then .none
        else
          let gap' := if gap.broken then gap else { gap with blanks := gap.blanks ++ [c] }
          read? indent gap' (cursor.skip 1) steps
      | [] => some (gap, cursor)

end Gap

/-! ## Quoted scalars -/

def escaped? (c : Char) : Option Char :=
  match c with
  | '0' => some (Char.ofNat 0)
  | 'a' => some (Char.ofNat 0x7)
  | 'b' => some (Char.ofNat 0x8)
  | 't' => some '\t'
  | '\t' => some '\t'
  | 'n' => some '\n'
  | 'v' => some (Char.ofNat 0xB)
  | 'f' => some (Char.ofNat 0xC)
  | 'r' => some '\r'
  | 'e' => some (Char.ofNat 0x1B)
  | ' ' => some ' '
  | '"' => some '"'
  | '/' => some '/'
  | '\\' => some '\\'
  | 'N' => some (Char.ofNat 0x85)
  | '_' => some (Char.ofNat 0xA0)
  | 'L' => some (Char.ofNat 0x2028)
  | 'P' => some (Char.ofNat 0x2029)
  | _ => none

def escapeDigits? (c : Char) : Option Nat :=
  match c with
  | 'x' => some 2
  | 'u' => some 4
  | 'U' => some 8
  | _ => none

def charOf? (n : Nat) : Option Char :=
  if (0xD800 ≤ n && n ≤ 0xDFFF) || 0x10FFFF < n then none else some (Char.ofNat n)

/-- The character of the escape behind a backslash, and how many characters the escape has. -/
def readEscape? (s : List Char) : Option (Char × Nat) :=
  match s with
  | [] => none
  | c :: rest =>
    match escapeDigits? c with
    | some count => do
      let digits := rest.take count
      if digits.length < count then none
      else
        let n ← Text.hexNumber? digits
        let char ← charOf? n
        pure (char, count + 1)
    | none => (escaped? c).map (·, 1)

inductive Pause where
  | quote
  | gap
  | escapedBreak

/-- A run of characters up to a blank, a line break or the closing quote. -/
def quotedRun? (single : Bool) (cursor : Cursor) : Nat → Option (List Char × Pause × Cursor)
  | 0 => none
  | steps + 1 =>
    let more (c : Char) (width : Nat) :=
      (quotedRun? single (cursor.skip width) steps).map fun r => (c :: r.1, r.2)
    match cursor.rest with
    | [] => some ([], .gap, cursor)
    | c :: rest =>
      if isSpace c || isBreak c then some ([], .gap, cursor)
      else if single then
        if c == '\'' then
          if rest.head? == some '\'' then more '\'' 2 else some ([], .quote, cursor)
        else more c 1
      else if c == '"' then some ([], .quote, cursor)
      else if c == '\\' then
        if rest.head?.any isBreak then some ([], .escapedBreak, (cursor.skip 1).nextLine.2)
        else
          match readEscape? rest with
          | some (char, width) => more char (width + 1)
          | none => none
      else more c 1

/-- The text up to the closing quote, whose opening one was read. -/
def quotedParts? (single : Bool) (cursor : Cursor) : Nat → Option (List Char × Cursor)
  | 0 => none
  | steps + 1 =>
    if cursor.atDocumentMark || cursor.rest.isEmpty then none
    else do
      let (run, pause, next) ← quotedRun? single cursor (cursor.rest.length + 1)
      match pause with
      | .quote => pure (run, next.skip 1)
      | .gap =>
        let (gap, next) ← Gap.none.read? 0 next (next.rest.length + 1)
        let (more, next) ← quotedParts? single next steps
        pure (run ++ gap.text ++ more, next)
      | .escapedBreak =>
        let (gap, next) ← Gap.read? 0 { Gap.none with broken := true } next (next.rest.length + 1)
        let (more, next) ← quotedParts? single next steps
        pure (run ++ gap.text ++ more, next)

def readQuoted? (single : Bool) (cursor : Cursor) : Option (List Char × Cursor) :=
  quotedParts? single (cursor.skip 1) (cursor.rest.length + 1)

/-! ## Plain scalars -/

/-- A run of characters without blanks, up to what ends a plain scalar. In brackets a colon may not
stand right in front of an indicator. -/
def plainRun? (flow : Bool) : List Char → Option (List Char)
  | [] => some []
  | c :: rest =>
    if isSpace c || isBreak c then some []
    else if flow && c == ':' && rest.head?.any (fun d => isFlowIndicator d || d == '?') then none
    else if (c == ':' && endsWord rest) || (flow && isFlowIndicator c) then some []
    else (plainRun? flow rest).map (c :: ·)

/-- The text of a plain scalar, the place behind it and behind the gap after it, and whether that gap
has a line break. On new lines a scalar outside of brackets has to be indented. -/
def plainParts? (flow : Bool) (indent : Int) (gap : Gap) (cursor : Cursor) :
    Nat → Option (List Char × Cursor × Bool)
  | 0 => none
  | steps + 1 =>
    if cursor.atDocumentMark || cursor.at? '#' then some ([], cursor, gap.broken)
    else do
      let run ← plainRun? flow cursor.rest
      if run.isEmpty then pure ([], cursor, gap.broken)
      else
        let next := cursor.skip run.length
        if !(next.atSpace || next.atBreak) then pure (gap.text ++ run, next, false)
        else
          let (gap', next) ← Gap.none.read? indent next (next.rest.length + 1)
          if !flow && (next.column : Int) < indent then
            pure (gap.text ++ run, next, gap'.broken)
          else
            let (more, next, broken) ← plainParts? flow indent gap' next steps
            pure (gap.text ++ run ++ more, next, broken)

def readPlain? (flow : Bool) (indent : Int) (cursor : Cursor) :
    Option (List Char × Cursor × Bool) :=
  plainParts? flow indent .none cursor (cursor.rest.length + 1)

/-! ## Block scalars -/

/-- Which of the line breaks at the end of a block scalar are kept. -/
inductive Chomping where
  | strip
  | clip
  | keep
  deriving DecidableEq

def Chomping.ofSign? (c : Char) : Option Chomping :=
  if c == '+' then some .keep else if c == '-' then some .strip else none

def indentDigit? (c : Char) : Option Nat :=
  if '1' ≤ c && c ≤ '9' then some (c.toNat - '0'.toNat) else none

/-- The signs behind the opening one: a chomping and an indentation, in either order. -/
def readHeader (cursor : Cursor) : Chomping × Option Nat × Cursor :=
  match cursor.head?.bind Chomping.ofSign? with
  | some chomping =>
    let next := cursor.skip 1
    match next.head?.bind indentDigit? with
    | some n => (chomping, some n, next.skip 1)
    | none => (chomping, none, next)
  | none =>
    match cursor.head?.bind indentDigit? with
    | some n =>
      let next := cursor.skip 1
      match next.head?.bind Chomping.ofSign? with
      | some chomping => (chomping, some n, next.skip 1)
      | none => (.clip, some n, next)
    | none => (.clip, none, cursor)

/-- Skips the indentation of a line, all of its spaces while the indentation is not known. -/
def skipIndentation (indent : Option Nat) (cursor : Cursor) : Cursor :=
  let spaces := cursor.rest.takeWhile (· == ' ')
  match indent with
  | some n => cursor.skip (min spaces.length (n - cursor.column))
  | none => cursor.skip spaces.length

/-- Reads over empty lines: gives their line breaks, the greatest column reached and the place of the
first line with content, behind its indentation. -/
def emptyLines? (indent : Option Nat) (greatest : Nat) (cursor : Cursor) :
    Nat → Option (List Char × Nat × Cursor)
  | 0 => none
  | steps + 1 =>
    let next := skipIndentation indent cursor
    let greatest := max greatest next.column
    let inside := match indent with
      | some n => next.column < n
      | none => true
    if inside && next.at? '\t' then none
    else if next.atBreak then do
      let (c, next) := next.nextLine
      let (breaks, greatest, next) ← emptyLines? indent greatest next steps
      pure (c :: breaks, greatest, next)
    else some ([], greatest, next)

/-- The lines of a block scalar with their indentation. `lead` is the line break in front of the
current line, `breaks` are those of the empty lines after it; a folded scalar joins lines that do not
open with a blank. Gives the text and the line breaks at the end. -/
def blockLines? (folded : Bool) (indent : Nat) (lead : Option Char) (breaks : List Char)
    (afterBlank : Bool) (cursor : Cursor) :
    Nat → Option (List Char × Option Char × List Char × Cursor)
  | 0 => none
  | steps + 1 =>
    if cursor.column != indent || cursor.rest.isEmpty then some ([], lead, breaks, cursor)
    else do
      let opensBlank := cursor.atSpace
      let joined :=
        if folded && lead == some '\n' && !afterBlank && !opensBlank then
          if breaks.isEmpty then [' '] else breaks
        else lead.toList ++ breaks
      let line := cursor.rest.takeWhile fun c => !isBreak c
      let next := cursor.skip line.length
      let (lead', next) := if next.rest.isEmpty then (none, next)
        else
          let (c, after) := next.nextLine
          (some c, after)
      let (breaks', _, next) ← emptyLines? (some indent) 0 next (next.rest.length + 1)
      let (more, lead', breaks', next) ←
        blockLines? folded indent lead' breaks' opensBlank next steps
      pure (joined ++ line ++ more, lead', breaks', next)

def skipComment (cursor : Cursor) : Cursor :=
  if cursor.at? '#' then cursor.skipWhile fun c => !isBreak c else cursor

/-- A block scalar with its opening sign. `indent` is the indentation of what it stands in. -/
def readBlock? (folded : Bool) (indent : Int) (cursor : Cursor) : Option (List Char × Cursor) := do
  let (chomping, explicit, next) := readHeader (cursor.skip 1)
  let next := skipComment (next.skipWhile isSpace)
  let next ← if next.rest.isEmpty then some next
    else if next.atBreak then some next.nextLine.2
    else none
  let given := explicit.map fun n => if 0 ≤ indent then indent.toNat + n else n
  let (breaks, greatest, next) ← emptyLines? given 0 next (next.rest.length + 1)
  let own := given.getD (max greatest (max (indent + 1).toNat 1))
  let (text, lead, trailing, next) ←
    blockLines? folded own none breaks false next (next.rest.length + 1)
  let tail := match chomping with
    | .strip => []
    | .clip => lead.toList
    | .keep => lead.toList ++ trailing
  pure (text ++ tail, next)

end SemanticLayer.Yaml
