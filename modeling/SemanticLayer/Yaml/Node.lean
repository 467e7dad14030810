import SemanticLayer.Yaml.Lexer
/-!
Nodes of YAML: scalars, sequences and mappings, and aliases of nodes that were given a name. Where a
node is missing, an empty plain scalar stands in its place.
-/
namespace SemanticLayer.Yaml

/-- What may stand in front of a node: a name for aliases, and a tag. -/
structure Properties where
  anchor : Option String
  tag : Option String
  deriving DecidableEq, Repr

inductive Node where
  | reference (name : String)
  | scalar (properties : Properties) (text : String) (plain : Bool)
  | sequence (properties : Properties) (items : List Node)
  | mapping (properties : Properties) (members : List (Node × Node))
  deriving Inhabited, Repr

def Properties.none : Properties :=
  ⟨.none, .none⟩

/-- The node that stands where there is none. -/
def Node.missing (properties : Properties) : Node :=
  .scalar properties "" true

abbrev Shorthands := List (String × String)

/-- The shorthands that need no directive. -/
def usualShorthands : Shorthands :=
  [("!", "!"), ("!!", "tag:yaml.org,2002:")]

def fullTag? (shorthands : Shorthands) (handle suffix : String) : Option String :=
  if handle.isEmpty then some suffix else (shorthands.lookup handle).map (· ++ suffix)

namespace Node

/-- The properties at the front of tokens, in either order. -/
def properties? (shorthands : Shorthands) : List Token → Option (Properties × List Token)
  | .anchor a :: .tag h s :: rest => (fullTag? shorthands h s).map fun t => (⟨a, t⟩, rest)
  | .tag h s :: .anchor a :: rest => (fullTag? shorthands h s).map fun t => (⟨a, t⟩, rest)
  | .anchor a :: rest => some (⟨a, none⟩, rest)
  | .tag h s :: rest => (fullTag? shorthands h s).map fun t => (⟨none, t⟩, rest)
  | rest => some (.none, rest)

/-- Whether one of the given tokens comes next, at which a missing node ends. -/
def isNext (ends : List Token) (tokens : List Token) : Bool :=
  match tokens with
  | t :: _ => ends.contains t
  | [] => false

mutual

/-- The node at the front of tokens. Blocks may start only where they are allowed; items without a
block of their own may stand where `indentless` says so. -/
def read? (shorthands : Shorthands) (block indentless : Bool) (tokens : List Token) :
    Nat → Option (Node × List Token)
  | 0 => none
  | steps + 1 =>
    match tokens with
    | .reference name :: rest => some (.reference name, rest)
    | _ => do
      let (properties, rest) ← properties? shorthands tokens
      let sequence (r : Option (List Node × List Token)) :=
        r.map fun (items, rest) => (Node.sequence properties items, rest)
      let mapping (r : Option (List (Node × Node) × List Token)) :=
        r.map fun (members, rest) => (Node.mapping properties members, rest)
      match rest with
      | .scalar text plain :: rest => pure (.scalar properties text plain, rest)
      | .flowSequenceStart :: rest => sequence (flowItems? shorthands true rest steps)
      | .flowMappingStart :: rest => mapping (flowMembers? shorthands true rest steps)
      | .sequenceStart :: more =>
        if block then sequence (blockItems? shorthands more steps) else absent properties tokens rest
      | .mappingStart :: more =>
        if block then mapping (blockMembers? shorthands more steps) else absent properties tokens rest
      | .blockEntry :: _ =>
        if indentless then sequence (looseItems? shorthands rest steps)
        else absent properties tokens rest
      | _ => absent properties tokens rest
where
  /-- A node of which there are only the properties. -/
  absent (properties : Properties) (tokens rest : List Token) : Option (Node × List Token) :=
    if rest.length < tokens.length then some (.missing properties, rest) else none

/-- A node, or nothing in front of one of the tokens at which a missing node ends. -/
def readOr? (shorthands : Shorthands) (block indentless : Bool) (ends : List Token)
    (tokens : List Token) : Nat → Option (Node × List Token)
  | 0 => none
  | steps + 1 =>
    if isNext ends tokens then some (.missing .none, tokens)
    else read? shorthands block indentless tokens steps

def blockItems? (shorthands : Shorthands) (tokens : List Token) :
    Nat → Option (List Node × List Token)
  | 0 => none
  | steps + 1 =>
    match tokens with
    | .blockEntry :: rest => do
      let (item, rest) ← readOr? shorthands true false [.blockEntry, .blockEnd] rest steps
      let (items, rest) ← blockItems? shorthands rest steps
      pure (item :: items, rest)
    | .blockEnd :: rest => some ([], rest)
    | _ => none

/-- Items without a block of their own. -/
def looseItems? (shorthands : Shorthands) (tokens : List Token) :
    Nat → Option (List Node × List Token)
  | 0 => none
  | steps + 1 =>
    match tokens with
    | .blockEntry :: rest => do
      let (item, rest) ←
        readOr? shorthands true false [.blockEntry, .key, .value, .blockEnd] rest steps
      let (items, rest) ← looseItems? shorthands rest steps
      pure (item :: items, rest)
    | _ => some ([], tokens)

def blockMembers? (shorthands : Shorthands) (tokens : List Token) :
    Nat → Option (List (Node × Node) × List Token)
  | 0 => none
  | steps + 1 =>
    match tokens with
    | .blockEnd :: rest => some ([], rest)
    | .key :: rest => do
      let ends := [.key, .value, .blockEnd]
      let (key, rest) ← readOr? shorthands true true ends rest steps
      let (value, rest) ← match rest with
        | .value :: rest => readOr? shorthands true true ends rest steps
        | _ => some (.missing .none, rest)
      let (members, rest) ← blockMembers? shorthands rest steps
      pure ((key, value) :: members, rest)
    | _ => none

/-- The items in square brackets. A key among them makes a mapping of one member. -/
def flowItems? (shorthands : Shorthands) (first : Bool) (tokens : List Token) :
    Nat → Option (List Node × List Token)
  | 0 => none
  | steps + 1 => do
    match tokens with
    | .flowSequenceEnd :: rest => pure ([], rest)
    | _ =>
      let rest ← if first then some tokens
        else match tokens with
          | .flowEntry :: rest => some rest
          | _ => none
      match rest with
      | .flowSequenceEnd :: rest => pure ([], rest)
      | .key :: rest =>
        let ends := [.flowEntry, .flowSequenceEnd]
        let (key, rest) ← if isNext (.value :: ends) rest then some (.missing .none, rest.tail)
          else read? shorthands false false rest steps
        let (value, rest) ← match rest with
          | .value :: rest => readOr? shorthands false false ends rest steps
          | _ => some (.missing .none, rest)
        let (items, rest) ← flowItems? shorthands false rest steps
        pure (.mapping .none [(key, value)] :: items, rest)
      | _ =>
        let (item, rest) ← read? shorthands false false rest steps
        let (items, rest) ← flowItems? shorthands false rest steps
        pure (item :: items, rest)

/-- The members in curly brackets. A node that is no key has no value. -/
def flowMembers? (shorthands : Shorthands) (first : Bool) (tokens : List Token) :
    Nat → Option (List (Node × Node) × List Token)
  | 0 => none
  | steps + 1 => do
    match tokens with
    | .flowMappingEnd :: rest => pure ([], rest)
    | _ =>
      let rest ← if first then some tokens
        else match tokens with
          | .flowEntry :: rest => some rest
          | _ => none
      match rest with
      | .flowMappingEnd :: rest => pure ([], rest)
      | .key :: rest =>
        let ends := [.flowEntry, .flowMappingEnd]
        let (key, rest) ← readOr? shorthands false false (.value :: ends) rest steps
        let (value, rest) ← match rest with
          | .value :: rest => readOr? shorthands false false ends rest steps
          | _ => some (.missing .none, rest)
        let (members, rest) ← flowMembers? shorthands false rest steps
        pure ((key, value) :: members, rest)
      | _ =>
        let (key, rest) ← read? shorthands false false rest steps
        let (members, rest) ← flowMembers? shorthands false rest steps
        pure ((key, .missing .none) :: members, rest)

end

end Node

/-- The directives in front of a document: the shorthands they add, and the tokens behind them. Only
one of them may give a version, and none may repeat a handle. -/
def directives? (versioned : Bool) (added : Shorthands) :
    List Token → Option (Shorthands × List Token)
  | .version major minor :: rest =>
    if versioned || major != 1 || (minor != 1 && minor != 2) then none
    else directives? true added rest
  | .tagShorthand handle front :: rest =>
    if (added.lookup handle).isSome then none
    else directives? versioned ((handle, front) :: added) rest
  | rest => some (added, rest)

/-- The root of the only document among tokens; nothing where there is no document. -/
def Node.ofTokens? (tokens : List Token) : Option (Option Node) := do
  let steps := 4 * tokens.length + 8
  let (added, rest) ← directives? false [] tokens
  let shorthands := added ++ usualShorthands
  let explicit := rest.length < tokens.length
  match rest with
  | [.streamEnd] => if explicit then none else pure none
  | _ =>
    let (marked, rest) ← match rest with
      | .documentStart :: rest => some (true, rest)
      | _ => if explicit then none else some (false, rest)
    let ends := if marked then [.documentStart, .documentEnd, .streamEnd] else []
    let isEmpty := isNext ends rest || (marked && isDirective rest)
    let (node, rest) ← if isEmpty then some (.missing .none, rest)
      else read? shorthands true false rest steps
    if rest.dropWhile (· == .documentEnd) == [.streamEnd] then pure (some node) else none
where
  isDirective : List Token → Bool
    | .version _ _ :: _ => true
    | .tagShorthand _ _ :: _ => true
    | _ => false

end SemanticLayer.Yaml
