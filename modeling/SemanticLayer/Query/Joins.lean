import SemanticLayer.Model.Source
/-!
The joins a query needs: those its columns name and what these require, each once and after all
that it requires.
-/
namespace SemanticLayer

structure NamedJoin where
  name : String
  clause : JoinClause
  deriving DecidableEq

namespace Source

/-- Adds a join to a list behind the joins it requires. A join that is listed, unknown or being
added further out adds nothing. Every level takes a join that the levels further out do not have,
so there are at most as many levels as joins. -/
def addJoin (source : Source) :
    Nat → List String → List NamedJoin → String → List NamedJoin
  | 0, _, listed, _ => listed
  | levels + 1, pending, listed, name =>
    match source.joins.get? name with
    | none => listed
    | some clause =>
      if listed.any (fun j => j.name == name) || pending.contains name then listed
      else
        clause.requires.foldl (addJoin source levels (name :: pending)) listed ++ [⟨name, clause⟩]

/-- The joins to make for the required ones, in an order in which they can be written. -/
def resolveJoins (source : Source) (required : List String) : List NamedJoin :=
  required.foldl (source.addJoin (source.joins.size + 1) []) []

end Source

end SemanticLayer
