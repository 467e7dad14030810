import SemanticLayer.Json.Basic
/-!
Results of statements. A database returns rows by position; here every row is a record under the
names of the columns, of which repeated ones are told apart by a number.
-/
namespace SemanticLayer

/-- The names of the columns in order and the rows as records. -/
structure ResultSet where
  columns : List String
  rows : List Record

namespace ResultSet

def empty : ResultSet :=
  ⟨[], []⟩

/-- The name itself or else the first numbered form of it, from `number` on, that is not taken.
Among as many forms as there are taken names and one more, one is free. -/
def freshName (taken : List String) (name : String) : Nat → Nat → String → String
  | 0, _, candidate => candidate
  | tries + 1, number, candidate =>
    if taken.contains candidate then
      freshName taken name tries (number + 1) (name ++ "_" ++ toString number)
    else candidate

/-- Gives every column a name of its own, from left to right. -/
def distinctNames (taken : List String) : List String → List String
  | [] => []
  | name :: rest =>
    let fresh := freshName taken name (taken.length + 1) 1 name
    fresh :: distinctNames (fresh :: taken) rest

/-- A row as a record; values that are missing are null. -/
def record : List String → List Json → Record
  | [], _ => []
  | name :: names, [] => (name, .null) :: record names []
  | name :: names, value :: values => (name, value) :: record names values

def ofPositional (names : List String) (rows : List (List Json)) : ResultSet :=
  let columns := distinctNames [] names
  ⟨columns, rows.map (record columns)⟩

/-- The value of a column in the first row. -/
def scalar? (r : ResultSet) (column : String) : Option Json :=
  r.rows.head?.bind fun row => row.get? column

end ResultSet

end SemanticLayer
