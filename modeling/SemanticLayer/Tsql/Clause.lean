import SemanticLayer.Tsql.Change
/-!
Reading the clauses around the body of a query: limits, locks and the form of the output.
-/
namespace SemanticLayer.Tsql

namespace Reader

variable (inner : Inner)

/-! ## Limits -/

def offset : Reader String := do
  let e ← expressionText inner
  pure (e ++ spaced (← takeOneOf ["ROW", "ROWS"]))

/-- The clause of `LIMIT` and `OFFSET`, which may stand in either order. -/
def limit? : Reader (Option String) := do
  let before ← clause ["OFFSET"] (offset inner)
  let unlimited ← takeKeywords ["LIMIT", "ALL"]
  let limit ← if unlimited then pure [] else clause ["LIMIT"] (expressionText inner)
  let after ←
    if before.isEmpty && (unlimited || !limit.isEmpty) then clause ["OFFSET"] (offset inner)
    else pure []
  let parts := limit ++ before ++ after
  pure (if parts.isEmpty then none else some (String.intercalate " " parts))

def fetch? : Reader (Option String) := do
  if ← takeKeyword "FETCH" then
    skip (takeOneOf ["FIRST", "NEXT"])
    let quantity ←
      if (← takeOneOf ["ROW", "ROWS"]).isSome then pure ""
      else (do
        let n ← literal
        let percent ← takePhrase ["PERCENT"]
        skip (takeOneOf ["ROW", "ROWS"])
        pure (" " ++ n ++ spaced percent))
    let ties ← if ← takeKeyword "ONLY" then pure false else takeKeywords ["WITH", "TIES"]
    pure (some ("FETCH FIRST" ++ quantity ++ " ROWS " ++ (if ties then "WITH TIES" else "ONLY")))
  else pure none

/-! ## The form of the output -/

def elementName : Reader String := do
  if ← atSign "(" then pure ("('" ++ (← inParentheses literalString) ++ "')") else pure ""

/-- The option of the output that comes next; one that is not known leaves nothing behind. -/
def outputOption : List String → Reader (Option String)
  | [] => pure none
  | phrase :: rest => do
    let words := Text.words phrase
    if ← atKeyword (words.headD "") then
      expectKeywords words
      if phrase = "ROOT" then
        pure (some ("ROOT('" ++ (← inParentheses literalString) ++ "')"))
      else pure (some phrase)
    else outputOption rest

/-- The options that were given, each once, in the order of the known ones; of two roots the last
counts. -/
def orderedOptions (known given : List String) : String :=
  String.join (known.flatMap fun phrase =>
    let same := given.filter fun o => if phrase = "ROOT" then o.startsWith "ROOT(" else o == phrase
    (same.getLast?.map (", " ++ ·)).toList)

def outputOptions (known : List String) : Reader String := do
  let given ← all (do
    if ← takeSign "," then pure (some (← outputOption known)) else pure none)
  pure (orderedOptions known (given.filterMap id))

/-- What stands behind `FOR`, where it asks for another form of output. -/
def outputForm? : Reader (Option String) := do
  if ← takeKeyword "XML" then
    match ← takeOneOf ["RAW", "AUTO", "EXPLICIT", "PATH"] with
    | none => stop (.spoken "Expected FOR XML [RAW | AUTO | EXPLICIT | PATH ]" none)
    | some kind =>
      let element ← if ["RAW", "PATH"].contains kind then elementName else pure ""
      let options ← outputOptions ["BINARY BASE64", "TYPE", "ROOT", "ELEMENTS"]
      pure (some ("FOR XML " ++ kind ++ element ++ options))
  else if ← takeKeyword "JSON" then
    match ← takeOneOf ["AUTO", "PATH"] with
    | none => stop (.spoken "Expected FOR JSON [AUTO | PATH ]" none)
    | some kind =>
      let options ← outputOptions ["ROOT", "INCLUDE_NULL_VALUES", "WITHOUT_ARRAY_WRAPPER"]
      pure (some ("FOR JSON " ++ kind ++ options))
  else if ← takeKeyword "BROWSE" then pure (some "FOR BROWSE")
  else pure none

/-! ## Locks -/

/-- A lock, whose `FOR` is taken already. -/
def lock : Reader String := do
  let kind ← expectOneOf ["UPDATE", "SHARE"]
  let table ← clause ["OF"] objectText
  let wait ← takePhrase ["NOWAIT", "SKIP LOCKED"]
  pure ("FOR " ++ kind ++ spaced table.head? ++ spaced wait)

/-- Locks and the form of output; every step takes a `FOR`. -/
def forClauses : Nat → List String → Reader (List String × Option String)
  | 0, locks => pure (locks, none)
  | steps + 1, locks => do
    if ← takeKeyword "FOR" then
      match ← outputForm? with
      | some form => pure (locks, some form)
      | none => forClauses steps (locks ++ [← lock])
    else pure (locks, none)

end Reader

end SemanticLayer.Tsql
