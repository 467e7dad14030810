import Mathlib.Data.List.TFAE
import Mathlib.Tactic.TFAE
import SemanticLayer.Proofs.Sandbox.RowLimit
/-!
Which queries a limit bounds the rows of. What a query returns is not fixed but for what its limits say: at most so
many rows, unless they stand for more of the same rank.
-/
namespace SemanticLayer.Tsql

variable {Row : Type} {q : Query} {selection : Selection} {limit k n : Nat}

/-- The number of rows that the `TOP` of a query lets through at most; one with ties, by percents or with an
expression says nothing. -/
def Query.cap? (q : Query) : Option Nat :=
  match q.body with
  | .select ⟨_, some ⟨.constant k, false, false⟩, _, _⟩ => some k
  | _ => none

/-- How the `FETCH` clause of a query is written that lets so many rows through. -/
def fetchFirst (k : Nat) : String :=
  "FETCH FIRST " ++ toString k ++ " ROWS ONLY"

/-- What queries may return. -/
structure RowSemantics (Row : Type) where
  query : Query → List Row
  /-- The rows of a derived table that a `TOP` lets through. -/
  top : Nat → List Row → List Row
  /-- The rows that a `FETCH` behind a query lets through. -/
  fetch : Nat → List Row → List Row
  length_query_cap : ∀ q k, q.cap? = some k → (query q).length ≤ k
  length_query_fetch : ∀ q k, q.fetch = some (fetchFirst k) → (query q).length ≤ k
  length_top : ∀ k rows, (top k rows).length ≤ k
  length_fetch : ∀ k rows, (fetch k rows).length ≤ k

def Query.withCtes (ctes : Option String) : Query → Query
  | mk _ body order limit fetch locks forClause => mk ctes body order limit fetch locks forClause

/-- What a query with a limit returns. A derived table returns what its query returns. -/
def RowSemantics.rows (m : RowSemantics Row) : LimitedQuery → List Row
  | .topped query => m.query query
  | .fetched query k => m.fetch k (m.query query)
  | .wrapped ctes query k => m.top k (m.query (query.withCtes ctes))

/-- Whether a limit leaves it to a query to return more rows, of the same rank as the last one. -/
def Query.KeepsTies (q : Query) : Prop :=
  q.isPaged = false ∧
    ∃ selection k, q.body = .select selection ∧ selection.top = some ⟨.constant k, false, true⟩

@[simp] theorem fetch_withBody (q : Query) (b : Body) : (q.withBody b).fetch = q.fetch := by
  cases q
  rfl

theorem cap?_capped (q : Query) (selection : Selection) (k : Nat) :
    (q.withBody (.select { selection with top := some ⟨.constant k, false, false⟩ })).cap? = some k := by
  simp [Query.cap?]

theorem limited_of_keepsTies (h : q.KeepsTies) (limit : Nat) : ∃ (selection : Selection) (k : Nat),
    q.limited limit = .topped (q.withBody (.select { selection with top := some ⟨.constant k, false, true⟩ })) := by
  obtain ⟨hpaged, selection, k, hbody, htop⟩ := h
  refine ⟨selection, min k limit, ?_⟩
  rw [Query.limited, hpaged, hbody]
  simp [htop, Top.capped?]

/-- A query that keeps no ties lets at most so many rows through by its own `TOP`, or is put where it cannot pass. -/
theorem length_rows_le (h : ¬q.KeepsTies) (m : RowSemantics Row) :
    (m.rows (q.limited limit)).length ≤ limit := by
  rcases Sandbox.limited_cases q limit with ⟨selection, top, hbody, htop, hlimited⟩ | hlimited | hlimited
  · have hpaged : q.isPaged = false := by
      by_contra hpaged
      rw [Query.limited, if_pos (by simpa using hpaged)] at hlimited
      simp [Query.wrap] at hlimited
    rw [hlimited, RowSemantics.rows]
    unfold Top.capped? at htop
    split at htop
    · obtain rfl := Option.some.inj htop
      exact m.length_query_cap _ _ (cap?_capped q selection limit)
    · rename_i k withTies hsome
      obtain rfl := Option.some.inj htop
      cases withTies with
      | true => exact absurd ⟨hpaged, selection, k, hbody, hsome⟩ h
      | false =>
          have hcap := m.length_query_cap _ _ (cap?_capped q selection (min k limit))
          exact hcap.trans (Nat.min_le_right k limit)
    · simp at htop
  · rw [hlimited]
    exact m.length_fetch limit _
  · rw [hlimited]
    exact m.length_top limit _

/-- A semantics in which a query returns so many rows that nothing bounds. -/
def looseRows (n : Nat) : RowSemantics Unit where
  query q := if q.cap?.isSome || q.fetch.isSome then [] else List.replicate n ()
  top k rows := rows.take k
  fetch k rows := rows.take k
  length_query_cap q k hcap := by simp [hcap]
  length_query_fetch q k hfetch := by simp [hfetch]
  length_top := List.length_take_le
  length_fetch := List.length_take_le

theorem length_looseRows (h : q.KeepsTies) (n limit : Nat) :
    ((looseRows n).rows (q.limited limit)).length = n := by
  obtain ⟨selection, k, hlimited⟩ := limited_of_keepsTies h limit
  have hfetch : q.fetch = none := by
    have hpaged := h.1
    simp only [Query.isPaged, Bool.or_eq_false_iff, Option.isSome_eq_false_iff, Option.isNone_iff_eq_none] at hpaged
    exact hpaged.2
  rw [hlimited]
  simp [RowSemantics.rows, looseRows, Query.cap?, hfetch]

/-- A limit bounds the rows of a query under every semantics, unless its `TOP` keeps ties: then nothing does. -/
theorem rows_limited_tfae (q : Query) (limit : Nat) : List.TFAE [
    ¬q.KeepsTies,
    ∀ (Row : Type) (m : RowSemantics Row), (m.rows (q.limited limit)).length ≤ limit,
    ∃ n, ∀ m : RowSemantics Unit, (m.rows (q.limited limit)).length ≤ n] := by
  tfae_have 1 → 2 := fun h Row m => length_rows_le h m
  tfae_have 2 → 3 := fun h => ⟨limit, h Unit⟩
  tfae_have 3 → 1 := by
    rintro ⟨n, hbound⟩ h
    have hloose := hbound (looseRows (n + 1))
    rw [length_looseRows h] at hloose
    omega
  tfae_finish

/-- A sorted query for the first rows with all of the same rank as the last of them. -/
def topWithTies : Query :=
  .mk none (.select ⟨none, some ⟨.constant 5, false, true⟩, [.column [⟨"a", none⟩]], ["FROM t"]⟩)
    (some "ORDER BY a") none none [] none

theorem length_rows_topWithTies : topWithTies.text = "SELECT TOP 5 WITH TIES a FROM t ORDER BY a" ∧
    (topWithTies.limited 10).text = "SELECT TOP 5 WITH TIES a FROM t ORDER BY a" ∧
    ¬∀ (Row : Type) (m : RowSemantics Row), (m.rows (topWithTies.limited 10)).length ≤ 10 := by
  have hties : topWithTies.KeepsTies := ⟨rfl, _, 5, rfl, rfl⟩
  refine ⟨by decide +kernel, by decide +kernel, fun h => ?_⟩
  have hloose := h Unit (looseRows 11)
  rw [length_looseRows hties] at hloose
  exact absurd hloose (by decide)

end SemanticLayer.Tsql
