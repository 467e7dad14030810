import SemanticLayer.Failure
import SemanticLayer.Model.Source
/-!
The registry of sources. A source enters only if the joins it names exist and no join requires
itself, so that compiling never meets an unknown or circular join.
-/
namespace SemanticLayer

namespace Source

def checkReference (source : Source) (owner key : String) : Option String → Except Failure Unit
  | none => .ok ()
  | some join =>
    if source.joins.contains join then .ok ()
    else
      .error (.schema ("source " ++ source.name ++ ": " ++ owner ++ " " ++ key ++
        " references unknown join " ++ join))

def checkRequirement (source : Source) (join required : String) : Except Failure Unit :=
  if source.joins.contains required then .ok ()
  else
    .error (.schema ("source " ++ source.name ++ ": join " ++ join ++ " requires unknown join " ++
      required))

/-- Follows the requirements of a join and refuses a circle. `path` leads to the join, and the
joins in `done` are known to have no circle behind them; it gives back the latter with those it
found. A path without a repetition has at most as many steps as there are joins. -/
def checkCircles (source : Source) :
    Nat → List String → List String → String → Except Failure (List String)
  | 0, _, done, _ => .ok done
  | steps + 1, path, done, name =>
    if done.contains name then .ok done
    else if path.contains name then
      .error (.schema ("source " ++ source.name ++ ": cyclic join requirements " ++
        String.intercalate " -> " (path ++ [name])))
    else do
      let requires := match source.joins.get? name with
        | some join => join.requires
        | none => []
      let done ← requires.foldlM (checkCircles source steps (path ++ [name])) done
      pure (name :: done)

/-- Refuses a source that has no table or names joins that cannot be made. -/
def validate (source : Source) : Except Failure Unit := do
  if (Text.trimmed source.table).isEmpty then
    throw (.schema ("source " ++ source.name ++ " has no table"))
  source.dimensions.entries.forM fun e => source.checkReference "dimension" e.1 e.2.join
  source.measures.entries.forM fun e => source.checkReference "measure" e.1 e.2.join
  source.filterColumns.entries.forM fun e => source.checkReference "filter" e.1 e.2.join
  source.joins.entries.forM fun e => e.2.requires.forM (source.checkRequirement e.1)
  -- a path without a repetition has at most `size` joins, so that the steps never run out
  let _ ← source.joins.keys.foldlM (source.checkCircles (source.joins.size + 2) []) []

end Source

structure Registry where
  sources : Dictionary Source

namespace Registry

def empty : Registry :=
  ⟨.empty⟩

def insert (r : Registry) (source : Source) : Except Failure Registry := do
  source.validate
  if r.sources.contains source.name then
    throw (.schema ("source " ++ source.name ++ " defined more than once"))
  pure ⟨r.sources.insert source.name source⟩

def ofSources (sources : List Source) : Except Failure Registry :=
  sources.foldlM insert empty

def get? (r : Registry) (name : String) : Option Source :=
  r.sources.get? name

def names (r : Registry) : List String :=
  r.sources.keys

end Registry

structure PublicField where
  key : String
  label : String

structure PublicMeasure where
  key : String
  label : String
  defaultAggregation : Aggregation

/-- A source as users see it: keys and labels without any SQL. -/
structure PublicSource where
  label : String
  dimensions : List PublicField
  measures : List PublicMeasure
  filters : List String

/-- What users see of a source. A field without a label shows its key. -/
def Source.toPublic (s : Source) : PublicSource where
  label := s.displayLabel
  dimensions := s.dimensions.entries.map fun e => ⟨e.1, e.2.label.getD e.1⟩
  measures := s.measures.entries.map fun e => ⟨e.1, e.2.label.getD e.1, e.2.defaultAggregation⟩
  filters := s.filterColumns.keys

def Registry.publicSchema (r : Registry) : List (String × PublicSource) :=
  r.sources.entries.map fun e => (e.1, e.2.toPublic)

def PublicSource.toJson (s : PublicSource) : Json :=
  .obj [("label", .str s.label),
    ("dimensions", .arr (s.dimensions.map fun d =>
      .obj [("key", .str d.key), ("label", .str d.label)])),
    ("measures", .arr (s.measures.map fun m =>
      .obj [("key", .str m.key), ("label", .str m.label),
        ("defaultAgg", .str m.defaultAggregation.name)])),
    ("filters", .arr (s.filters.map .str))]

end SemanticLayer
