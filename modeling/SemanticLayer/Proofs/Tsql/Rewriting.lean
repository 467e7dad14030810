import SemanticLayer.Proofs.Sandbox.RowLimit
/-!
What a limit on the rows of a query changes in its text: a `TOP`, a clause behind everything else, or what stands
around it as a derived table. In a derived table only columns without a name get one.
-/
namespace SemanticLayer.Tsql

variable {q : Query} {n m : Nat}

/-! ## Names for columns -/

/-- The same column, which has got a name if it is an expression without one. -/
inductive Item.Named : Item → Item → Prop where
  | wildcard (table : List Ident) : Named (.wildcard table) (.wildcard table)
  | column (parts : List Ident) : Named (.column parts) (.column parts)
  | unnamed (text : String) (aliasName : Ident) : Named (.unnamed text) (.named text aliasName)
  | named (text : String) (aliasName : Ident) : Named (.named text aliasName) (.named text aliasName)

/-- The same body but for names of columns in its leftmost SELECT. -/
inductive Body.Named : Body → Body → Prop where
  | select {s : Selection} {items : List Item} :
      List.Forall₂ Item.Named s.items items → Named (.select s) (.select { s with items := items })
  | setOperation {operator : String} {left left' right : Body} :
      Named left left' → Named (.setOperation operator left right) (.setOperation operator left' right)
  | parenthesised {query : Query} {body : Body} :
      Named query.body body → Named (.parenthesised query) (.parenthesised (query.withBody body))
  | other (text : String) : Named (.other text) (.other text)

theorem Item.named_naming (position : Nat) (item : Item) : item.Named (item.naming position) := by
  cases item with
  | wildcard table => exact .wildcard table
  | column parts => exact .column parts
  | unnamed text => exact .unnamed text _
  | named text aliasName => exact .named text aliasName

theorem forall₂_nameItems (items : List Item) : List.Forall₂ Item.Named items (nameItems items) := by
  rw [List.forall₂_iff_get]
  refine ⟨by simp [nameItems], fun i h _ => ?_⟩
  simpa [nameItems] using Item.named_naming (i + 1) items[i]

theorem Query.nameColumns_eq (q : Query) : q.nameColumns = q.withBody q.body.nameColumns := by
  cases q
  rfl

theorem Body.named_nameColumns : (b : Body) → b.Named b.nameColumns
  | .select s => .select (forall₂_nameItems s.items)
  | .setOperation _ left _ => .setOperation left.named_nameColumns
  | .parenthesised (.mk _ body _ _ _ _ _) => .parenthesised body.named_nameColumns
  | .other text => .other text

/-! ## The number of rows that a TOP asks for -/

/-- What a limit makes of a `TOP` that counts rows: it asks for at most so many rows, for no more than before, and
keeps ties as before. -/
inductive Top.Lowered (limit : Nat) : Option Top → Top → Prop where
  | added : Lowered limit none ⟨.constant limit, false, false⟩
  | kept {k : Nat} (withTies : Bool) :
      k ≤ limit → Lowered limit (some ⟨.constant k, false, withTies⟩) ⟨.constant k, false, withTies⟩
  | cut {k : Nat} (withTies : Bool) :
      limit < k → Lowered limit (some ⟨.constant k, false, withTies⟩) ⟨.constant limit, false, withTies⟩

/-- Whether a `TOP`, if there is one, counts rows. -/
def Top.CountsRows (top : Option Top) : Prop :=
  ∀ t ∈ top, t.percent = false ∧ ∃ k, t.quantity = .constant k

theorem Top.countsRows_iff {top : Option Top} :
    CountsRows top ↔ top = none ∨ ∃ k withTies, top = some ⟨.constant k, false, withTies⟩ := by
  constructor
  · intro h
    cases top with
    | none => exact .inl rfl
    | some t =>
        obtain ⟨quantity, percent, withTies⟩ := t
        obtain ⟨rfl, k, rfl⟩ := h _ rfl
        exact .inr ⟨k, withTies, rfl⟩
  · rintro (rfl | ⟨k, withTies, rfl⟩)
    · simp [CountsRows]
    · intro t ht
      obtain rfl := Option.some.inj ht
      exact ⟨rfl, k, rfl⟩

theorem Top.lowered_of_capped {top : Option Top} {capped : Top} (h : Top.capped? n top = some capped) :
    Lowered n top capped := by
  unfold Top.capped? at h
  split at h
  · obtain rfl := Option.some.inj h
    exact .added
  · rename_i k withTies
    obtain rfl := Option.some.inj h
    rcases Nat.lt_or_ge n k with hlt | hle
    · rw [Nat.min_eq_right hlt.le]
      exact .cut withTies hlt
    · rw [Nat.min_eq_left hle]
      exact .kept withTies hle
  · simp at h

theorem Top.exists_capped_iff {top : Option Top} :
    (∃ capped, Top.capped? n top = some capped) ↔ CountsRows top := by
  rw [Top.countsRows_iff]
  constructor
  · rintro ⟨capped, h⟩
    cases lowered_of_capped h with
    | added => exact .inl rfl
    | kept withTies _ => exact .inr ⟨_, withTies, rfl⟩
    | cut withTies _ => exact .inr ⟨_, withTies, rfl⟩
  · rintro (rfl | ⟨k, withTies, rfl⟩)
    · exact ⟨_, rfl⟩
    · exact ⟨_, rfl⟩

/-- Two limits one after the other are the lesser one. -/
theorem Top.capped_capped {top : Option Top} {capped : Top} (h : Top.capped? n top = some capped) :
    Top.capped? m (some capped) = Top.capped? (min n m) top := by
  cases lowered_of_capped h with
  | added => rfl
  | kept withTies hle => simp only [Top.capped?, ← Nat.min_assoc, Nat.min_eq_left hle]
  | cut withTies hlt => simp only [Top.capped?, ← Nat.min_assoc, Nat.min_eq_right hlt.le]

/-! ## Limited queries -/

/-- A SELECT without paging, with a `TOP` that counts rows or with none. -/
def Query.TakesTop (q : Query) : Prop :=
  q.isPaged = false ∧ ∃ selection, q.body = .select selection ∧ Top.CountsRows selection.top

/-- A sorted query without paging that is no SELECT and has no `FOR` clause. -/
def Query.TakesFetch (q : Query) : Prop :=
  q.isPaged = false ∧ (∀ selection, q.body ≠ .select selection) ∧ q.order ≠ none ∧ q.forClause = none

def Top.behind (top : Option Top) : String :=
  (top.map fun t => " " ++ t.text).getD ""

/-- The text of a SELECT changes with its `TOP` in one place only. -/
theorem exists_around_top (q : Query) (selection : Selection) : ∃ front back, ∀ top,
    (q.withBody (.select { selection with top := top })).text = front ++ Top.behind top ++ back := by
  refine ⟨String.ofList (q.front ++ selection.front), String.ofList (selection.back ++ q.back), fun top => ?_⟩
  rw [← String.toList_inj, Query.text_withSelect]
  cases top with
  | none => simp [Top.behind, behindSpaces, Selection.front, Selection.back]
  | some t => simp [Top.behind, behindSpaces, Selection.front, Selection.back]

theorem withBody_self {selection : Selection} (h : q.body = .select selection) :
    q.withBody (.select { selection with top := selection.top }) = q := by
  rw [← h]
  cases q
  rfl

theorem limited_of_takesTop {selection : Selection} {top : Top} (hpaged : q.isPaged = false)
    (hbody : q.body = .select selection) (htop : Top.capped? n selection.top = some top) :
    q.limited n = .topped (q.withBody (.select { selection with top := some top })) := by
  unfold Query.limited
  rw [if_neg (by simp [hpaged]), hbody]
  simp only [htop]

@[simp] theorem withBody_withBody (q : Query) (b b' : Body) : (q.withBody b).withBody b' = q.withBody b' := by
  cases q
  rfl

@[simp] theorem isPaged_withBody (q : Query) (b : Body) : (q.withBody b).isPaged = q.isPaged := by
  cases q
  rfl

theorem limited_of_takesFetch (h : q.TakesFetch) : q.limited n = .fetched q n := by
  obtain ⟨hpaged, hbody, horder, hfor⟩ := h
  unfold Query.limited
  rw [if_neg (by simp [hpaged])]
  split
  · rename_i selection hselect
    exact absurd hselect (hbody selection)
  · rw [if_pos (by simp [hfor, Option.isSome_iff_ne_none, horder])]

theorem limited_of_not (htop : ¬q.TakesTop) (hfetch : ¬q.TakesFetch) : q.limited n = q.wrap n := by
  by_cases hpaged : q.isPaged = true
  · rw [Query.limited, if_pos hpaged]
  · rw [Query.limited, if_neg hpaged]
    have hunpaged : q.isPaged = false := by simpa using hpaged
    split
    · rename_i selection hbody
      split
      · rename_i top hcapped
        exact absurd ⟨hunpaged, selection, hbody, Top.exists_capped_iff.1 ⟨top, hcapped⟩⟩ htop
      · rfl
    · rename_i hbody
      refine if_neg fun h => hfetch ⟨hunpaged, hbody, ?_⟩
      simpa [Option.isSome_iff_ne_none] using h

/-- The text of a derived table: common table expressions stand once, in front of everything. -/
theorem text_wrap (q : Query) (n : Nat) : (q.wrap n).text = String.intercalate " " (q.ctes.toList ++
    ["SELECT TOP " ++ toString n ++ " * FROM (" ++ (q.withoutCtes.withBody q.body.nameColumns).text ++
      ") AS __result"]) := by
  obtain ⟨ctes, body, order, limit, fetch, locks, forClause⟩ := q
  rw [Query.wrap, LimitedQuery.text, Query.nameColumns_eq]
  cases ctes with
  | none => simp [Query.ctes, Query.withoutCtes, Query.body]
  | some c =>
      rw [← String.toList_inj]
      simp [Query.ctes, Query.withoutCtes, Query.body]

/-- A limit changes the `TOP` of a SELECT and nothing else, or stands behind the query as it is, or around it as a
derived table in which only columns without a name are written otherwise. A limit on a limited SELECT is the lesser
of the two. -/
theorem limited_rewrites (q : Query) (n m : Nat) :
    ((q.TakesTop ∧ ∃ selection top front back, q.body = .select selection ∧ Top.Lowered n selection.top top ∧
        (q.limited n).text = (q.withBody (.select { selection with top := some top })).text ∧
        q.text = front ++ Top.behind selection.top ++ back ∧
        (q.limited n).text = front ++ Top.behind (some top) ++ back) ∨
      (q.TakesFetch ∧
        (q.limited n).text = q.text ++ " OFFSET 0 ROWS FETCH NEXT " ++ toString n ++ " ROWS ONLY") ∨
      (¬q.TakesTop ∧ ¬q.TakesFetch ∧ ∃ body, q.body.Named body ∧
        (q.limited n).text = String.intercalate " " (q.ctes.toList ++
          ["SELECT TOP " ++ toString n ++ " * FROM (" ++ (q.withoutCtes.withBody body).text ++ ") AS __result"]))) ∧
    (q.TakesTop → ∃ capped, q.limited n = .topped capped ∧ capped.limited m = q.limited (min n m)) := by
  constructor
  · by_cases htop : q.TakesTop
    · obtain ⟨hpaged, selection, hbody, hcounts⟩ := id htop
      obtain ⟨top, hcapped⟩ := Top.exists_capped_iff.2 hcounts
      have hlimited := limited_of_takesTop hpaged hbody hcapped
      obtain ⟨front, back, haround⟩ := exists_around_top q selection
      have hown := haround selection.top
      rw [withBody_self hbody] at hown
      refine .inl ⟨htop, selection, top, front, back, hbody, Top.lowered_of_capped hcapped, ?_, hown, ?_⟩
      · rw [hlimited, LimitedQuery.text]
      · rw [hlimited, LimitedQuery.text, haround]
    · by_cases hfetch : q.TakesFetch
      · rw [limited_of_takesFetch hfetch]
        exact .inr (.inl ⟨hfetch, rfl⟩)
      · rw [limited_of_not htop hfetch]
        exact .inr (.inr ⟨htop, hfetch, _, q.body.named_nameColumns, text_wrap q n⟩)
  · rintro ⟨hpaged, selection, hbody, hcounts⟩
    obtain ⟨top, hcapped⟩ := (Top.exists_capped_iff (n := n)).2 hcounts
    obtain ⟨least, hleast⟩ := (Top.exists_capped_iff (n := min n m)).2 hcounts
    refine ⟨_, limited_of_takesTop hpaged hbody hcapped, ?_⟩
    rw [limited_of_takesTop hpaged hbody hleast,
      limited_of_takesTop (by simpa using hpaged) (body_withBody _ _) ((Top.capped_capped hcapped).trans hleast),
      withBody_withBody]

end SemanticLayer.Tsql
