import SemanticLayer.Proofs.Tsql.Opening
/-!
Queries as they are written, taken apart where a limit on their rows puts something in.
-/
namespace SemanticLayer.Tsql

open Sql.LexicalRules (Spaced isPlain)

variable {q : Query} {b : Body}

/-! ## Parts -/

def Query.front (q : Query) : List Char :=
  (q.ctes.map fun c => c.toList ++ [' ']).getD []

def Query.back : Query → List Char
  | .mk _ _ order limit fetch locks forClause =>
      behindSpaces (order.toList ++ limit.toList ++ fetch.toList ++ locks ++ forClause.toList)

theorem Query.text_toList (q : Query) : q.text.toList = q.front ++ (q.body.text.toList ++ q.back) := by
  obtain ⟨ctes, body, order, limit, fetch, locks, forClause⟩ := q
  have htext (first : List String) :
      first ++ [body.text] ++ order.toList ++ limit.toList ++ fetch.toList ++ locks ++ forClause.toList =
        first ++ body.text :: (order.toList ++ limit.toList ++ fetch.toList ++ locks ++ forClause.toList) := by
    simp
  rw [Query.text, htext]
  cases ctes with
  | none =>
      rw [Option.toList_none, List.nil_append, intercalate_cons]
      rfl
  | some c =>
      rw [Option.toList_some, List.singleton_append, intercalate_cons]
      simp [front, Query.ctes, Query.body, back, behindSpaces]

@[simp] theorem body_withBody (q : Query) (b : Body) : (q.withBody b).body = b := by
  cases q
  rfl

@[simp] theorem front_withBody (q : Query) (b : Body) : (q.withBody b).front = q.front := by
  cases q
  rfl

@[simp] theorem back_withBody (q : Query) (b : Body) : (q.withBody b).back = q.back := by
  cases q
  rfl

def Selection.front (s : Selection) : List Char :=
  "SELECT".toList ++ behindSpaces s.distinct.toList

def Selection.back (s : Selection) : List Char :=
  behindSpaces (String.intercalate ", " (s.items.map Item.text) :: s.clauses)

theorem Selection.text_toList (s : Selection) :
    s.text.toList = s.front ++ (behindSpaces (s.top.map Top.text).toList ++ s.back) := by
  rw [Selection.text, List.append_assoc, List.append_assoc, List.append_assoc, List.singleton_append,
    intercalate_cons]
  simp [front, back, behindSpaces]

/-- A query whose body is a SELECT, around the `TOP` of that. -/
theorem Query.text_withSelect (q : Query) (s : Selection) :
    (q.withBody (.select s)).text.toList =
      (q.front ++ s.front) ++ (behindSpaces (s.top.map Top.text).toList ++ (s.back ++ q.back)) := by
  rw [Query.text_toList, front_withBody, back_withBody, body_withBody, Body.text, Selection.text_toList]
  simp only [List.append_assoc]

theorem Selection.text_opens (s : Selection) : ∃ x, s.text.toList = "SELECT".toList ++ ' ' :: x := by
  have hspaced : ∃ x, behindSpaces s.distinct.toList ++
      (behindSpaces (s.top.map Top.text).toList ++ s.back) = ' ' :: x := by
    cases s.distinct <;> cases s.top <;> exact ⟨_, rfl⟩
  obtain ⟨x, hx⟩ := hspaced
  exact ⟨x, by rw [text_toList, front, List.append_assoc, hx]⟩

/-! ## The front of a body -/

/-- A text that begins with a plain word or a parenthesis. -/
def Fronted (text : String) : Prop :=
  Worded text ∨ ∃ x, text.toList = '(' :: x

theorem Fronted.append {text : String} (h : Fronted text) (more : String) : Fronted (text ++ more) := by
  rcases h with h | ⟨x, hx⟩
  · exact .inl (h.append more)
  · exact .inr ⟨x ++ more.toList, by simp [hx]⟩

theorem Body.Opens.fronted (h : b.Opens) : Fronted b.text := by
  cases b with
  | select s =>
      obtain ⟨x, hx⟩ := s.text_opens
      exact .inl ⟨"SELECT", x, by decide, by decide, hx⟩
  | setOperation operator left right => exact h.elim
  | parenthesised query => exact .inr ⟨query.text.toList ++ [')'], by simp [Body.text]⟩
  | other text => exact .inl h

theorem Body.text_leftmost : (b : Body) → ∃ more, b.text = b.leftmost.text ++ more
  | .select _ => ⟨"", by simp [Body.leftmost]⟩
  | .setOperation operator left right => by
      obtain ⟨more, hleft⟩ := left.text_leftmost
      exact ⟨more ++ " " ++ operator ++ " " ++ right.text, by
        rw [Body.text, hleft, Body.leftmost]
        simp [String.append_assoc]⟩
  | .parenthesised _ => ⟨"", by simp [Body.leftmost]⟩
  | .other _ => ⟨"", by simp [Body.leftmost]⟩

theorem Body.leftmost_nameColumns : (b : Body) → b.nameColumns.leftmost = b.leftmost.nameColumns
  | .select _ => rfl
  | .setOperation _ left _ => by
      rw [Body.nameColumns, Body.leftmost, Body.leftmost, left.leftmost_nameColumns]
  | .parenthesised _ => rfl
  | .other _ => rfl

theorem Body.Opens.nameColumns (h : b.Opens) : b.nameColumns.Opens := by
  cases b with
  | setOperation operator left right => exact h.elim
  | _ => exact h

/-! ## Derived tables -/

theorem Query.derived_text (q : Query) : ∃ more,
    q.withoutCtes.nameColumns.text = q.body.leftmost.nameColumns.text ++ more := by
  obtain ⟨ctes, body, order, limit, fetch, locks, forClause⟩ := q
  obtain ⟨more, hmore⟩ := body.nameColumns.text_leftmost
  rw [Body.leftmost_nameColumns] at hmore
  refine ⟨more ++ String.ofList (Query.mk none body.nameColumns order limit fetch locks forClause).back, ?_⟩
  rw [← String.toList_inj]
  change (Query.mk none body.nameColumns order limit fetch locks forClause).text.toList = _
  rw [Query.text_toList]
  simp [Query.front, Query.ctes, Query.body, hmore]

/-- Inside a derived table a query begins as its body does. -/
theorem Query.Opens.derived (h : q.Opens) : Fronted q.withoutCtes.nameColumns.text := by
  obtain ⟨more, hmore⟩ := q.derived_text
  rw [hmore]
  exact h.body.nameColumns.fronted.append more

theorem Query.Opens.derived_select (h : q.Opens) (hctes : q.ctes = none) :
    ∃ x, q.withoutCtes.nameColumns.text.toList = "SELECT".toList ++ ' ' :: x := by
  obtain ⟨more, hmore⟩ := q.derived_text
  obtain ⟨s, hs⟩ := h.selects hctes
  obtain ⟨x, hx⟩ := Selection.text_opens { s with items := nameItems s.items }
  refine ⟨x ++ more.toList, ?_⟩
  rw [hmore, hs, Body.nameColumns, Body.text, String.toList_append, hx, List.append_assoc,
    List.cons_append]

/-- A query is written with an opening word in front. -/
theorem Query.Opens.text (h : q.Opens) :
    ∃ w ∈ Sandbox.openingWords, ∃ x, q.text.toList = w.toList ++ ' ' :: x := by
  rw [q.text_toList]
  cases hctes : q.ctes with
  | none =>
      obtain ⟨s, hs⟩ := h.selects hctes
      obtain ⟨more, hmore⟩ := q.body.text_leftmost
      obtain ⟨x, hx⟩ := s.text_opens
      rw [hs, Body.text] at hmore
      exact ⟨"SELECT", by decide, x ++ (more.toList ++ q.back), by simp [Query.front, hctes, hmore, hx]⟩
  | some c =>
      obtain ⟨x, hx⟩ := h.ctes c hctes
      exact ⟨"WITH", by decide, x ++ ' ' :: (q.body.text.toList ++ q.back),
        by simp [Query.front, hctes, hx]⟩

end SemanticLayer.Tsql
