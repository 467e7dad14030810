import SemanticLayer.Document
/-!
Tables of TOML. A table can be opened by a header, come into being on the way to another one, or by the
dots in a key. How it came into being decides whether it may be opened once more or added to.
-/
namespace SemanticLayer.Toml

/-- How a table came into being. -/
inductive Origin where
  /-- By a header of its own, or as a value. -/
  | opened
  /-- On the way to a table that has a header. -/
  | passed
  /-- By the dots in a key. -/
  | dotted
  deriving DecidableEq, Repr

inductive Item where
  | value (value : Document)
  | table (origin : Origin) (members : List (String × Item))
  /-- A list of tables, of which the last one is open. -/
  | tables (earlier : List Item) (last : Item)
  deriving Inhabited

abbrev Members := List (String × Item)

namespace Item

mutual

def document : Item → Document
  | value d => d
  | table _ ms => .members (membersData ms)
  | tables earlier last => .items (itemsData earlier ++ [last.document])

def itemsData : List Item → List Document
  | [] => []
  | x :: xs => x.document :: itemsData xs

def membersData : Members → List (Option String × Document)
  | [] => []
  | (k, x) :: ms => (some k, x.document) :: membersData ms

end

end Item

namespace Members

def put (key : String) (item : Item) : Members → Members
  | [] => [(key, item)]
  | (k, x) :: ms => if k = key then (k, item) :: ms else (k, x) :: put key item ms

/-- Changes the table at the end of a path. Tables that are not there come into being on the way; the
dots of a key may not lead into a table that was opened. -/
def within? (byDots : Bool) (change : Origin → Members → Option Members) :
    List String → Origin → Members → Option Members
  | [], origin, ms => change origin ms
  | key :: path, _, ms =>
    match ms.lookup key with
    | none => do
      let origin := if byDots then Origin.dotted else .passed
      let inner ← within? byDots change path origin []
      pure (put key (.table origin inner) ms)
    | some (.table origin inner) =>
      if byDots && origin == .opened then none
      else do
        let inner ← within? byDots change path origin inner
        pure (put key (.table origin inner) ms)
    | some (.tables earlier (.table origin inner)) => do
      let inner ← within? byDots change path origin inner
      pure (put key (.tables earlier (.table origin inner)) ms)
    | some _ => none

/-- Adds a value under a key with dots. No key may be given twice, and a table that dots made takes
members by dots only. -/
def add? (path : List String) (key : String) (value : Document) (origin : Origin) (ms : Members) :
    Option Members :=
  within? true (fun origin inner =>
    if (origin == .dotted) == path.isEmpty then none
    else if (inner.lookup key).isSome then none
    else some (inner ++ [(key, .value value)])) path origin ms

/-- Opens a table. One that exists on the way to others may be opened once. -/
def openTable? (path : List String) (key : String) (ms : Members) : Option Members :=
  within? false (fun _ inner =>
    match inner.lookup key with
    | none => some (put key (.table .opened []) inner)
    | some (.table .passed own) => some (put key (.table .opened own) inner)
    | some _ => none) path .opened ms

def openItem? (path : List String) (key : String) (ms : Members) : Option Members :=
  within? false (fun _ inner =>
    match inner.lookup key with
    | none => some (put key (.tables [] (.table .opened [])) inner)
    | some (.tables earlier last) =>
      some (put key (.tables (earlier ++ [last]) (.table .opened [])) inner)
    | some _ => none) path .opened ms

end Members

end SemanticLayer.Toml
