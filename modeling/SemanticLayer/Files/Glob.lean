import SemanticLayer.Files.Tree
/-!
Patterns for paths: a star stands for any characters of a name, two stars for any folders on the way, a
question mark for one character, and brackets for one of a set of characters.
-/
namespace SemanticLayer.Files

structure CharRange where
  low : Char
  high : Char
  deriving DecidableEq, Repr

def CharRange.admits (r : CharRange) (c : Char) : Bool :=
  r.low ≤ c && c ≤ r.high

inductive Wildcard where
  | literal (c : Char)
  | anyChar
  | anyChars
  | anyFolders
  | oneOf (ranges : List CharRange)
  | noneOf (ranges : List CharRange)
  deriving DecidableEq, Repr

structure PatternFault where
  position : Nat
  text : String
  deriving DecidableEq, Repr

def PatternFault.message (f : PatternFault) : String :=
  "Pattern syntax error near position " ++ toString f.position ++ ": " ++ f.text

def charRanges : List Char → List CharRange
  | a :: '-' :: b :: rest => ⟨a, b⟩ :: charRanges rest
  | a :: rest => ⟨a, a⟩ :: charRanges rest
  | [] => []

/-- The set of characters behind an opening bracket, of which the first may be a closing one, and the
number of characters up to its end. -/
def readSet? (s : List Char) : Option (Wildcard × Nat) :=
  let closed (body : List Char) : Option (List Char) :=
    match body with
    | [] => none
    | first :: rest =>
      if rest.contains ']' then some (first :: rest.takeWhile (· != ']')) else none
  match s with
  | '!' :: body => (closed body).map fun set => (.noneOf (charRanges set), set.length + 2)
  | body => (closed body).map fun set => (.oneOf (charRanges set), set.length + 1)

/-- The parts of a pattern from `position` on; `before` is the character in front of it. -/
def wildcards (position : Nat) (before : Option Char) (s : List Char) :
    Nat → Except PatternFault (List Wildcard)
  | 0 => .ok []
  | steps + 1 =>
    match s with
    | [] => .ok []
    | '*' :: rest =>
      let stars := 1 + (rest.takeWhile (· == '*')).length
      let after := s.drop stars
      if 2 < stars then
        .error ⟨position + 2, "wildcards are either regular \x60*\x60 or recursive \x60**\x60"⟩
      else if stars = 2 then
        let fault := "recursive wildcards must form a single path component"
        if !(before.isNone || before == some '/') then .error ⟨position - 1, fault⟩
        else
          match after with
          | [] => .ok [.anyFolders]
          | '/' :: more =>
            (wildcards (position + 3) (some '/') more steps).map (.anyFolders :: ·)
          | _ => .error ⟨position + 2, fault⟩
      else (wildcards (position + 1) (some '*') after steps).map (.anyChars :: ·)
    | '?' :: rest => (wildcards (position + 1) (some '?') rest steps).map (.anyChar :: ·)
    | '[' :: rest =>
      match readSet? rest with
      | some (set, width) =>
        (wildcards (position + width + 1) (some ']') (rest.drop width) steps).map (set :: ·)
      | none => .error ⟨position, "invalid range pattern"⟩
    | c :: rest => (wildcards (position + 1) (some c) rest steps).map (.literal c :: ·)

def pattern (s : String) : Except PatternFault (List Wildcard) :=
  wildcards 0 none s.toList s.length

def Wildcard.matchAll : List Wildcard → List Char → Bool
  | [], s => s.isEmpty
  | .anyChars :: ws, s => anywhere (matchAll ws) s
  | .anyFolders :: ws, s => anywhere (matchAll ws) s
  | w :: ws, c :: s =>
    (match w with
      | .literal x => x == c
      | .oneOf ranges => ranges.any (·.admits c)
      | .noneOf ranges => !ranges.any (·.admits c)
      | _ => true) && matchAll ws s
  | _ :: _, [] => false
where
  /-- Whether a test holds of some end of a text. -/
  anywhere (test : List Char → Bool) : List Char → Bool
    | [] => test []
    | c :: s => test (c :: s) || anywhere test s

/-- The character that a part of a pattern is, if it is one. -/
def Wildcard.literal? : Wildcard → Option Char
  | .literal c => some c
  | _ => none

/-- The name that a pattern without wildcards stands for. -/
def Wildcard.literals? (ws : List Wildcard) : Option String :=
  (ws.mapM literal?).map String.ofList

def Entry.sorted (e : Entry) : List (String × Entry) :=
  e.entries.mergeSort fun a b => decide (a.1 ≤ b.1)

mutual

/-- What stands in a folder and below it: each name in its order, and behind it what is in there. -/
def Entry.descendants (around : List Entry) : Entry → List (String × Place)
  | .file _ => []
  | .folder es =>
    ((descendantsEach (.folder es :: around) es).mergeSort fun a b => decide (a.1 ≤ b.1)).flatMap Prod.snd

def Entry.descendantsEach (around : List Entry) : List (String × Entry) → List (String × List (String × Place))
  | [] => []
  | (name, e) :: rest => (name, (name, ⟨e, around⟩) :: e.descendants around) :: descendantsEach around rest

end

namespace Place

def children (p : Place) : List (String × Place) :=
  p.here.sorted.map fun m => (m.1, ⟨m.2, p.here :: p.around⟩)

/-- The places that one part of a pattern leads to. Dots are no names in a folder, and are meant only by
a part that begins with one. -/
def step (p : Place) (part : List Wildcard) : List Place :=
  match Wildcard.literals? part with
  | some name => (p.enter name).toOption.toList
  | none =>
    let dots := if part.head? = some (.literal '.') then ["..", "."] else []
    (dots.filter fun d => Wildcard.matchAll part d.toList).filterMap (fun d => (p.enter d).toOption) ++
      (p.children.filter fun m => Wildcard.matchAll part m.1.toList).map Prod.snd

/-- The places that a path of patterns leads to. Two stars stand for any number of folders, and what
comes behind them is told by its name. -/
def glob : List (List Wildcard) → Place → List Place
  | [], p => [p]
  | part :: rest, p =>
    if part ≠ [.anyFolders] then (p.step part).flatMap (glob rest)
    else
      match rest with
      | [] => ((p.here.descendants p.around).filter fun m => m.2.here.isFolder).map Prod.snd
      | next :: more =>
        if next = [.anyFolders] then glob (next :: more) p
        else
          ((p.here.descendants p.around).filter fun m => Wildcard.matchAll next m.1.toList).flatMap
            fun m => glob more m.2

end Place

def Entry.globPath (root : Entry) (path : String) : Except PatternFault (List Place) := do
  let _ ← pattern path
  let parts ← (splitPath path).mapM pattern
  pure (Place.glob parts root.place)

end SemanticLayer.Files
