import SemanticLayer.Proofs.Decimal.Spelled
import SemanticLayer.Proofs.Tsql.Rewriting
/-!
The names of columns in a derived table. A column without a name gets one by its position, whatever the others are
called, and a value of the session passes for a column with a name. The main statement says for which queries the
derived table still has a name of its own for every column.
-/
namespace SemanticLayer.Tsql

variable {items named : List Item} {item : Item} {parts : List Ident} {q : Query} {i j limit : Nat}
  {x y : String}

/-! ## Names in a result -/

/-- Whether a column is written as a name that it does not have: as a variable or a function without parentheses, which
stand for values of the session, or as a name without parts. -/
def Item.isNameless : Item → Bool
  | .column [] => true
  | .column [⟨value, none⟩] =>
    value.toList.head? == some '@' || ["CURRENT_USER", "SESSION_USER", "SYSTEM_USER", "USER"].any fun word =>
      Text.sameLetters word.toList value.toList
  | _ => false

/-- The name that a selected column has in the result. -/
def Item.resultName? (item : Item) : Option String :=
  if item.isNameless then none else item.outputName?

/-- Whether every column has a name, wildcards apart. -/
def AllNamed (items : List Item) : Prop :=
  ∀ item ∈ items, (∀ table, item ≠ .wildcard table) → item.resultName?.isSome

/-- The name of the column at a place. -/
def nameAt? (items : List Item) (i : Nat) : Option String :=
  items[i]?.bind Item.resultName?

theorem isSome_resultName?_column :
    (Item.column parts).resultName?.isSome ↔ (Item.column parts).isNameless = false := by
  unfold Item.resultName?
  cases hnameless : (Item.column parts).isNameless with
  | true => simp
  | false =>
      have hparts : parts ≠ [] := by
        rintro rfl
        cases hnameless
      simp [Item.outputName?, hparts]

theorem nameAt?_unnamed {text : String} (h : items[i]? = some (.unnamed text)) : nameAt? items i = none := by
  rw [nameAt?, h]
  rfl

theorem exists_nameAt?_of_mem (hitem : item ∈ items) (hname : item.resultName? = some x) :
    ∃ i, nameAt? items i = some x := by
  obtain ⟨i, hi⟩ := List.mem_iff_getElem?.1 hitem
  exact ⟨i, by rw [nameAt?, hi, Option.bind_some, hname]⟩

theorem exists_mem_of_nameAt? (h : nameAt? items i = some x) : ∃ item ∈ items, item.resultName? = some x := by
  obtain ⟨item, hi, hname⟩ := Option.bind_eq_some_iff.1 h
  exact ⟨item, List.mem_of_getElem? hi, hname⟩

/-! ## Names by position -/

/-- The name that the column at a place gets. -/
def byPosition (i : Nat) : String :=
  "column_" ++ toString (i + 1)

theorem nameAt?_nameItems : nameAt? (nameItems items) i = some x ↔
    (∃ text, items[i]? = some (.unnamed text)) ∧ x = byPosition i ∨ nameAt? items i = some x := by
  have hplace : (nameItems items)[i]? = items[i]?.map (Item.naming (i + 1)) := by
    simp [nameItems]
  unfold nameAt?
  rw [hplace]
  cases items[i]? with
  | none => simp
  | some item =>
      cases item with
      | unnamed text =>
          have hold : (Item.unnamed text).resultName? = none := rfl
          have hnew : (Item.naming (i + 1) (.unnamed text)).resultName? = some (byPosition i) := rfl
          simp [hold, hnew, eq_comm]
      | _ => simp [Item.naming]

theorem nameAt?_nameItems_unnamed {text : String} (h : items[i]? = some (.unnamed text)) :
    nameAt? (nameItems items) i = some (byPosition i) :=
  nameAt?_nameItems.2 (.inl ⟨⟨text, h⟩, rfl⟩)

/-- With names put in, just those columns have none that are written as a name that they do not have. -/
theorem allNamed_iff_of_named (h : List.Forall₂ Item.Named items named) :
    AllNamed named ↔ ∀ item ∈ items, item.isNameless = false := by
  induction h with
  | nil => simp [AllNamed]
  | @cons item item' items named hitem _ ih =>
      have hhead : ((∀ table, item' ≠ .wildcard table) → item'.resultName?.isSome) ↔ item.isNameless = false := by
        cases hitem with
        | wildcard table => simp [Item.isNameless]
        | column parts => simp [isSome_resultName?_column]
        | unnamed text aliasName => simp [Item.resultName?, Item.isNameless, Item.outputName?]
        | named text aliasName => simp [Item.resultName?, Item.isNameless, Item.outputName?]
      unfold AllNamed at ih ⊢
      rw [List.forall_mem_cons, List.forall_mem_cons, hhead, ih]

mutual

def Body.columns : Body → List Item
  | .select s => s.items
  | .setOperation _ left _ => left.columns
  | .parenthesised query => query.columns
  | .other _ => []

def Query.columns : Query → List Item
  | .mk _ body _ _ _ _ _ => body.columns

end

theorem columns_nameColumns : (b : Body) → b.nameColumns.columns = nameItems b.columns
  | .select _ => rfl
  | .setOperation _ left _ => columns_nameColumns left
  | .parenthesised (.mk _ body _ _ _ _ _) => columns_nameColumns body
  | .other _ => rfl

/-! ## The comparison of names -/

/-- How names are compared: regardless of the case of letters, while numbers behind the same start are told apart. -/
structure Collation where
  Same : String → String → Prop
  symm : ∀ x y, Same x y → Same y x
  of_sameLetters : ∀ x y, Text.sameLetters x.toList y.toList = true → Same x y
  numbered : ∀ (start : String) (m n : Nat), Same (start ++ toString m) (start ++ toString n) → m = n

namespace Collation

/-- Names are the same if they differ in the case of ASCII letters only. -/
def caseless : Collation where
  Same x y := Text.sameLetters x.toList y.toList = true
  symm x y h := by
    rw [Text.sameLetters, beq_iff_eq] at h ⊢
    exact h.symm
  of_sameLetters _ _ h := h
  numbered start m n h := by
    -- Digits have no case, so that they are what is left behind the start.
    have hdigits (n : Nat) : (Text.digits n).map Char.toLower = (Text.digits n).map id :=
      List.map_congr_left fun d hd => Decimal.toLower_eq_self (.inl (Text.isDigit_of_mem_digits hd))
    rw [Text.sameLetters, beq_iff_eq, String.toList_append, String.toList_append, List.map_append, List.map_append,
      List.append_cancel_left_eq] at h
    change (Text.digits m).map Char.toLower = (Text.digits n).map Char.toLower at h
    rw [hdigits, hdigits, List.map_id, List.map_id] at h
    rw [← Text.digitsValue_digits m, h, Text.digitsValue_digits]

variable (c : Collation)

/-- No two columns have the same name. -/
def Apart (items : List Item) : Prop :=
  ∀ i j x y, i ≠ j → nameAt? items i = some x → nameAt? items j = some y → ¬c.Same x y

/-- Every column that had no name has one that no other column has. -/
def AliasesApart (items named : List Item) : Prop :=
  ∀ i j text x y, i ≠ j → items[i]? = some (.unnamed text) → nameAt? named i = some x → nameAt? named j = some y →
    ¬c.Same x y

/-- No column has the name that one without a name gets by its position. -/
def PositionsFree (items : List Item) : Prop :=
  ∀ i text, items[i]? = some (.unnamed text) → ∀ item ∈ items, ∀ y ∈ item.resultName?, ¬c.Same (byPosition i) y

variable {c}

theorem aliasesApart_iff : c.AliasesApart items (nameItems items) ↔ c.PositionsFree items := by
  constructor
  · intro h i text hi item hitem y hy
    obtain ⟨j, hj⟩ := exists_nameAt?_of_mem hitem hy
    have hij : i ≠ j := by
      rintro rfl
      simp [nameAt?_unnamed hi] at hj
    exact h i j text _ y hij hi (nameAt?_nameItems_unnamed hi) (nameAt?_nameItems.2 (.inr hj))
  · intro h i j text x y hij hi hx hy hsame
    obtain rfl := Option.some.inj (hx.symm.trans (nameAt?_nameItems_unnamed hi))
    rcases nameAt?_nameItems.1 hy with ⟨-, rfl⟩ | hy
    · exact hij (Nat.succ_injective (c.numbered "column_" _ _ hsame))
    · obtain ⟨item, hitem, hname⟩ := exists_mem_of_nameAt? hy
      exact h i text hi item hitem y hname hsame

/-- Two names are the same only if they were before, or if one of them is new. -/
theorem apart_nameItems :
    c.Apart (nameItems items) ↔ c.Apart items ∧ c.AliasesApart items (nameItems items) := by
  constructor
  · intro h
    refine ⟨fun i j x y hij hx hy => ?_, fun i j _ x y hij _ => h i j x y hij⟩
    exact h i j x y hij (nameAt?_nameItems.2 (.inr hx)) (nameAt?_nameItems.2 (.inr hy))
  · rintro ⟨hown, haliases⟩ i j x y hij hx hy hsame
    rcases nameAt?_nameItems.1 hx with ⟨⟨text, hi⟩, -⟩ | hx'
    · exact haliases i j text x y hij hi hx hy hsame
    · rcases nameAt?_nameItems.1 hy with ⟨⟨text, hj⟩, -⟩ | hy'
      · exact haliases j i text y x hij.symm hj hy hx (c.symm x y hsame)
      · exact hown i j x y hij hx' hy' hsame

/-- Whether the columns of a limited query are named as they must be, wildcards apart. Only a derived table asks for
names: one for each column, and none twice. -/
def Accepts (c : Collation) : LimitedQuery → Prop
  | .wrapped _ query _ => AllNamed query.body.columns ∧ c.Apart query.body.columns
  | _ => True

theorem accepts_wrap : c.Accepts (q.wrap limit) ↔
    AllNamed q.body.nameColumns.columns ∧ c.Apart q.body.nameColumns.columns := by
  cases q
  rfl

theorem accepts_limited : c.Accepts (q.limited limit) ↔ q.TakesTop ∨ q.TakesFetch ∨
    AllNamed q.body.nameColumns.columns ∧ c.Apart q.body.nameColumns.columns := by
  by_cases htop : q.TakesTop
  · obtain ⟨hpaged, selection, hbody, hcounts⟩ := id htop
    obtain ⟨top, hcapped⟩ := (Top.exists_capped_iff (n := limit)).2 hcounts
    rw [limited_of_takesTop hpaged hbody hcapped]
    exact iff_of_true trivial (.inl htop)
  · by_cases hfetch : q.TakesFetch
    · rw [limited_of_takesFetch hfetch]
      exact iff_of_true trivial (.inr (.inl hfetch))
    · rw [limited_of_not htop hfetch, accepts_wrap]
      simp [htop, hfetch]

end Collation

/-- The columns of the query that a text is read as. -/
def readColumns? (s : List Char) : Option (List Item) :=
  match parse s with
  | .ok [.query q] => some q.body.columns
  | _ => none

theorem exists_query_of_readColumns? {s : List Char} (h : readColumns? s = some items) :
    ∃ q, parse s = .ok [.query q] ∧ q.body.columns = items := by
  unfold readColumns? at h
  split at h
  · rename_i q hparse
    exact ⟨q, hparse, Option.some.inj h⟩
  · cases h

/-- After names are put in, every column has one but for those that are written as a name that they do not have, and the
new names are apart from all others exactly if no column has the name that another gets by its position. As a derived
table a query has a name of its own for every column exactly if both holds and its own names are apart. -/
theorem derived_names_iff (q : Query) (limit : Nat) (c : Collation) :
    (AllNamed q.body.nameColumns.columns ↔ ∀ item ∈ q.body.columns, item.isNameless = false) ∧
      (c.AliasesApart q.body.columns q.body.nameColumns.columns ↔ c.PositionsFree q.body.columns) ∧
      (c.Accepts (q.limited limit) ↔ q.TakesTop ∨ q.TakesFetch ∨
        (∀ item ∈ q.body.columns, item.isNameless = false) ∧ c.Apart q.body.columns ∧
          c.PositionsFree q.body.columns) := by
  have hnamed : AllNamed q.body.nameColumns.columns ↔ ∀ item ∈ q.body.columns, item.isNameless = false := by
    rw [columns_nameColumns]
    exact allNamed_iff_of_named (forall₂_nameItems _)
  have haliases : c.AliasesApart q.body.columns q.body.nameColumns.columns ↔ c.PositionsFree q.body.columns := by
    rw [columns_nameColumns]
    exact Collation.aliasesApart_iff
  have hapart : c.Apart q.body.nameColumns.columns ↔ c.Apart q.body.columns ∧ c.PositionsFree q.body.columns := by
    rw [← haliases, columns_nameColumns]
    exact Collation.apart_nameItems
  exact ⟨hnamed, haliases, by rw [Collation.accepts_limited, hnamed, hapart]⟩

/-- A name by position is given beside a column of that name, and none is given to a value of the session. -/
theorem derived_names_clash :
    (∃ q, parse "SELECT a + 1, b AS column_1 FROM t UNION ALL SELECT c, d FROM u".toList = .ok [.query q] ∧
      Collation.caseless.Apart q.body.columns ∧
      ¬Collation.caseless.AliasesApart q.body.columns q.body.nameColumns.columns) ∧
    limitRows "SELECT a + 1, b AS column_1 FROM t UNION ALL SELECT c, d FROM u" 10 =
      .ok ("SELECT TOP 10 * FROM (SELECT a + 1 AS column_1, b AS column_1 FROM t UNION ALL " ++
        "SELECT c, d FROM u) AS __result") ∧
    (∃ q, parse "SELECT @@VERSION UNION ALL SELECT @@LANGUAGE".toList = .ok [.query q] ∧
      ¬AllNamed q.body.nameColumns.columns) ∧
    limitRows "SELECT @@VERSION UNION ALL SELECT @@LANGUAGE" 10 =
      .ok "SELECT TOP 10 * FROM (SELECT @@VERSION UNION ALL SELECT @@LANGUAGE) AS __result" := by
  refine ⟨?_, by decide +kernel, ?_, by decide +kernel⟩
  · have hread : readColumns? "SELECT a + 1, b AS column_1 FROM t UNION ALL SELECT c, d FROM u".toList =
        some [.unnamed "a + 1", .named "b" ⟨"column_1", none⟩] := by decide +kernel
    obtain ⟨q, hparse, hcolumns⟩ := exists_query_of_readColumns? hread
    refine ⟨q, hparse, ?_, ?_⟩
    · have hplace : ∀ i x, nameAt? [.unnamed "a + 1", .named "b" ⟨"column_1", none⟩] i = some x → i = 1
        | 0, _, h => by cases h
        | 1, _, _ => rfl
        | _ + 2, _, h => by cases h
      rw [hcolumns]
      exact fun i j x y hij hx hy => absurd ((hplace i x hx).trans (hplace j y hy).symm) hij
    · rw [columns_nameColumns, Collation.aliasesApart_iff, hcolumns]
      intro hfree
      refine hfree 0 "a + 1" rfl (.named "b" ⟨"column_1", none⟩) (by simp) "column_1" rfl ?_
      exact Collation.caseless.of_sameLetters _ _ (by decide)
  · have hread : readColumns? "SELECT @@VERSION UNION ALL SELECT @@LANGUAGE".toList =
        some [.column [⟨"@@VERSION", none⟩]] := by decide +kernel
    obtain ⟨q, hparse, hcolumns⟩ := exists_query_of_readColumns? hread
    refine ⟨q, hparse, ?_⟩
    rw [columns_nameColumns, hcolumns]
    intro hnamed
    exact absurd (hnamed (.column [⟨"@@VERSION", none⟩]) (by decide) (by simp)) (by decide)

end SemanticLayer.Tsql
