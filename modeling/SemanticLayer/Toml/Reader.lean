import SemanticLayer.Toml.Scalar
import SemanticLayer.Toml.Table
/-!
Data read from a TOML document: lines with a key and its value, and headers that open tables.
-/
namespace SemanticLayer.Toml

/-- The text behind a comment, if there is one; it may not hold control characters. -/
def skipComment : List Char → List Char
  | '#' :: rest => rest.dropWhile isPlain
  | s => s

def lineEnd? (s : List Char) : Option (List Char) :=
  let rest := skipComment (skipBlanks s)
  if rest.isEmpty then some [] else newline? rest

def skipGaps (s : List Char) : Nat → List Char
  | 0 => s
  | steps + 1 =>
    match newline? (skipComment (skipBlanks s)) with
    | some rest => skipGaps rest steps
    | none => skipBlanks s

/-! ## Keys -/

def isKeyChar (c : Char) : Bool :=
  c.isAlphanum || c == '_' || c == '-'

def simpleKey? (s : List Char) : Option (String × List Char) :=
  match s with
  | '"' :: rest => (basicString? rest (s.length + 1)).map fun r => (String.ofList r.1, r.2)
  | '\'' :: rest => (literalString? rest).map fun r => (String.ofList r.1, r.2)
  | _ =>
    let name := s.takeWhile isKeyChar
    if name.isEmpty then none else some (String.ofList name, s.drop name.length)

/-- A key with dots: the parts in front of the last one, and the last one. -/
def key? (s : List Char) : Nat → Option (List String × String × List Char)
  | 0 => none
  | steps + 1 => do
    let (first, rest) ← simpleKey? (skipBlanks s)
    match skipBlanks rest with
    | '.' :: rest =>
      let (path, last, rest) ← key? rest steps
      pure (first :: path, last, rest)
    | rest => pure ([], first, rest)

/-! ## Values -/

def isNumberChar (c : Char) : Bool :=
  c.isAlphanum || c == '_' || c == '+' || c == '-' || c == '.' || c == ':'

/-- A date or time is a mapping with its text under this key. -/
def dateKey : String :=
  "$__toml_private_datetime"

/-- A number, truth value, date or time. -/
def word? (s : List Char) : Option (Document × List Char) :=
  let word := s.takeWhile isNumberChar
  let rest := s.drop word.length
  match String.ofList word with
  | "true" => some (.json (.bool true), rest)
  | "false" => some (.json (.bool false), rest)
  | _ =>
    match afterDateTime? s with
    | some rest =>
      let text := String.ofList (s.take (s.length - rest.length))
      some (.members [(some dateKey, .json (.str text))], rest)
    | none =>
      match int? word with
      | some n => some (.json (.int n), rest)
      | none => (float? word).map fun x => (.json (.float x), rest)

mutual

def value? (s : List Char) : Nat → Option (Document × List Char)
  | 0 => none
  | steps + 1 =>
    match s with
    | '[' :: rest => (items? rest steps).map fun r => (.items r.1, r.2)
    | '\x7b' :: rest =>
      match skipBlanks rest with
      | '\x7d' :: rest => some (.members [], rest)
      | rest => (members? [] rest steps).map fun r => ((Item.table .opened r.1).document, r.2)
    | '"' :: _ => (string? s).map fun r => (.json (.str r.1), r.2)
    | '\'' :: _ => (string? s).map fun r => (.json (.str r.1), r.2)
    | _ => word? s

/-- The items of a list up to its end; a comma may stand behind the last one. -/
def items? (s : List Char) : Nat → Option (List Document × List Char)
  | 0 => none
  | steps + 1 =>
    match skipGaps s (s.length + 1) with
    | ']' :: rest => some ([], rest)
    | rest => do
      let (x, rest) ← value? rest steps
      match skipGaps rest (rest.length + 1) with
      | ',' :: rest =>
        let (xs, rest) ← items? rest steps
        pure (x :: xs, rest)
      | ']' :: rest => pure ([x], rest)
      | _ => none

/-- The members of a table in braces, at least one, up to its end. -/
def members? (ms : Members) (s : List Char) : Nat → Option (Members × List Char)
  | 0 => none
  | steps + 1 => do
    let (path, key, rest) ← key? s (s.length + 1)
    let rest ← after? '=' rest
    let (v, rest) ← value? (skipBlanks rest) steps
    let ms ← ms.add? path key v .opened
    match skipBlanks rest with
    | ',' :: rest => members? ms rest steps
    | '\x7d' :: rest => pure (ms, rest)
    | _ => none

end

/-! ## Documents -/

/-- The tables read so far, and the path to the open one. -/
structure Reader where
  root : Members
  path : List String

/-- A header in one or two pairs of brackets, behind the first bracket. -/
def header? (r : Reader) (s : List Char) : Option (Reader × List Char) := do
  let (double, s) := match s with
    | '[' :: rest => (true, rest)
    | _ => (false, s)
  let (path, key, rest) ← key? s (s.length + 1)
  let rest ← after? ']' rest
  let rest ← if double then after? ']' rest else some rest
  let rest ← lineEnd? rest
  let root ← if double then r.root.openItem? path key else r.root.openTable? path key
  pure (⟨root, path ++ [key]⟩, rest)

def member? (r : Reader) (s : List Char) : Option (Reader × List Char) := do
  let (path, key, rest) ← key? s (s.length + 1)
  let rest ← after? '=' rest
  let (v, rest) ← value? (skipBlanks rest) (rest.length + 1)
  let rest ← lineEnd? rest
  let root ← Members.within? false (fun origin ms => ms.add? path key v origin) r.path .opened r.root
  pure ({ r with root }, rest)

def lines? (r : Reader) (s : List Char) : Nat → Option Reader
  | 0 => none
  | steps + 1 =>
    match skipBlanks s with
    | [] => some r
    | '[' :: rest => do
      let (r, rest) ← header? r rest
      lines? r rest steps
    | c :: rest =>
      if c == '#' || c == '\n' || c == '\r' then do
        let rest ← lineEnd? (c :: rest)
        lines? r rest steps
      else do
        let (r, rest) ← member? r (c :: rest)
        lines? r rest steps

/-- The data of a document. A byte order mark may stand in front of it. -/
def read? (text : String) : Option Document :=
  let s := match text.toList with
    | c :: rest => if c.toNat == 0xFEFF then rest else c :: rest
    | [] => []
  (lines? ⟨[], []⟩ s (s.length + 1)).map fun r => (Item.table .opened r.root).document

end SemanticLayer.Toml
