import Mathlib.Algebra.Ring.Nat
import Mathlib.Data.List.Perm.Basic
import SemanticLayer.Proofs.Checks
import SemanticLayer.Schema.Assembly
/-!
What a description of a database says is what the rows of its catalog say, no less and no more. The rows of columns are
followed by their numbers, so that two rows that say the same stay apart: each row of a table that is listed is in one
place of one table.
-/
namespace SemanticLayer.CatalogRows

/-- A row with its number. -/
abbrev Numbered := Record × Nat

def tableName (row : Record) : String :=
  text row "table_name"

def lists (tables : List Record) (name : String) : Bool :=
  tables.any fun row => tableName row = name

variable {rows : CatalogRows} {row : Record} {tables : List Record} {share left : List Numbered} {p : Numbered}

/-! ## Order of position -/

/-- Whether one of two rows of columns stands in front: its position is lower, or the same and its number lower. -/
def Precedes (rows : CatalogRows) (p q : Numbered) : Prop :=
  (rows.column p.1).position < (rows.column q.1).position ∨
    (rows.column p.1).position = (rows.column q.1).position ∧ p.2 < q.2

def sorted (rows : CatalogRows) (share : List Numbered) : List Numbered :=
  share.mergeSort fun p q => (rows.column p.1).position ≤ (rows.column q.1).position

theorem sorted_perm (rows : CatalogRows) (share : List Numbered) : (rows.sorted share).Perm share :=
  List.mergeSort_perm _ _

theorem map_sorted (rows : CatalogRows) (share : List Numbered) :
    (rows.sorted share).map (fun p => rows.column p.1) = ordered (share.map fun p => rows.column p.1) :=
  List.map_mergeSort fun _ _ _ _ => rfl

/-- The sort is stable: rows with the same position stay in order of their numbers. -/
theorem pairwise_sorted (h : share.Pairwise fun p q => p.2 < q.2) : (rows.sorted share).Pairwise rows.Precedes := by
  let le (p q : Numbered) : Bool := (rows.column p.1).position ≤ (rows.column q.1).position
  have htrans (p q r : Numbered) (hpq : le p q = true) (hqr : le q r = true) : le p r = true :=
    decide_eq_true (Nat.le_trans (of_decide_eq_true hpq) (of_decide_eq_true hqr))
  have htotal (p q : Numbered) : (le p q || le q p) = true := by
    simpa [le] using Nat.le_total _ _
  change (share.mergeSort le).Pairwise rows.Precedes
  induction share with
  | nil => simp
  | cons p share ih =>
      obtain ⟨hp, hshare⟩ := List.pairwise_cons.1 h
      -- The row goes behind those only that have a lower position.
      obtain ⟨before, behind, hsorted, hothers, hbefore⟩ := List.mergeSort_cons htrans htotal p share
      have hlater {q : Numbered} (hq : q ∈ before ++ behind) : p.2 < q.2 := by
        rw [← hothers] at hq
        exact hp q (List.mem_mergeSort.1 hq)
      have hle := List.pairwise_mergeSort htrans htotal (p :: share)
      rw [hsorted] at hle ⊢
      have hbehind := (List.pairwise_cons.1 (List.pairwise_append.1 hle).2.1).1
      obtain ⟨hfront, hback, hacross⟩ := List.pairwise_append.1 (hothers ▸ ih hshare)
      refine List.pairwise_append.2 ⟨hfront, List.pairwise_cons.2 ⟨fun q hq => ?_, hback⟩, fun q hq r hr => ?_⟩
      · have hposition := of_decide_eq_true (hbehind q hq)
        exact (Nat.lt_or_eq_of_le hposition).imp_right fun heq => ⟨heq, hlater (List.mem_append_right _ hq)⟩
      · rcases List.mem_cons.1 hr with rfl | hr
        · have hlower := hbefore q hq
          simp only [le, Bool.not_eq_true', decide_eq_false_iff_not, Nat.not_le] at hlower
          exact .inl hlower
        · exact hacross q hq r hr

/-! ## Tables and their shares -/

/-- A table is the one of a row of tables. -/
structure Announces (row : Record) (table : SchemaTable) : Prop where
  name : table.name = tableName row
  kind : table.kind = tableKind row
  rowCount : table.rowCount = if tableKind row = .view then none else count? row "row_count"

/-- The columns of a table are those of rows that name it, in order of position. -/
structure Holds (rows : CatalogRows) (table : SchemaTable) (share : List Numbered) : Prop where
  columns : table.columns = share.map fun p => rows.column p.1
  name : ∀ p ∈ share, tableName p.1 = table.name
  ordered : share.Pairwise rows.Precedes

theorem assembleTables_announced (columns : List (String × SchemaColumn)) (tables : List Record) :
    List.Forall₂ Announces tables (assembleTables columns tables) := by
  induction tables generalizing columns with
  | nil => exact .nil
  | cons row tables ih =>
      refine .cons ⟨rfl, rfl, ?_⟩ (ih _)
      simp only
      cases tableKind row <;> simp

theorem lists_cons (row : Record) (tables : List Record) (name : String) :
    lists (row :: tables) name = (decide (name = tableName row) || lists tables name) := by
  rw [lists, List.any_cons, lists]
  simp only [eq_comm]

/-- The rows of the first table, and those of the others that it does not take, are the rows of all. -/
theorem filter_lists_perm (row : Record) (tables : List Record) (left : List Numbered) :
    (left.filter (fun p => tableName p.1 = tableName row) ++
      (left.filter fun p => tableName p.1 ≠ tableName row).filter fun p => lists tables (tableName p.1)).Perm
    (left.filter fun p => lists (row :: tables) (tableName p.1)) := by
  have hfirst : (left.filter fun p => lists (row :: tables) (tableName p.1)).filter
      (fun p => tableName p.1 = tableName row) = left.filter fun p => tableName p.1 = tableName row := by
    rw [List.filter_filter]
    refine List.filter_congr fun p _ => ?_
    by_cases h : tableName p.1 = tableName row <;> simp [lists_cons, h]
  have hothers : (left.filter fun p => lists (row :: tables) (tableName p.1)).filter
      (fun p => !decide (tableName p.1 = tableName row)) =
      (left.filter fun p => tableName p.1 ≠ tableName row).filter fun p => lists tables (tableName p.1) := by
    rw [List.filter_filter, List.filter_filter]
    refine List.filter_congr fun p _ => ?_
    by_cases h : tableName p.1 = tableName row <;> simp [lists_cons, h]
  rw [← hfirst, ← hothers]
  exact List.filter_append_perm _ _

/-- The columns of rows go to tables with their names, each to one. -/
theorem exists_shares (rows : CatalogRows) (h : left.Pairwise fun p q => p.2 < q.2) (tables : List Record) :
    ∃ shares, List.Forall₂ rows.Holds
      (assembleTables (left.map fun p => (tableName p.1, rows.column p.1)) tables) shares ∧
      shares.flatten.Perm (left.filter fun p => lists tables (tableName p.1)) := by
  induction tables generalizing left with
  | nil => exact ⟨[], .nil, by simp [lists]⟩
  | cons row tables ih =>
      obtain ⟨shares, hholds, hperm⟩ := ih (h.filter fun p => tableName p.1 ≠ tableName row)
      refine ⟨rows.sorted (left.filter fun p => tableName p.1 = tableName row) :: shares, ?_, ?_⟩
      · simp only [assembleTables, List.filter_map]
        refine .cons ⟨?_, ?_, pairwise_sorted (h.filter _)⟩ hholds
        · rw [map_sorted, List.map_map]
          rfl
        · intro p hp
          have hmem := (rows.sorted_perm _).mem_iff.1 hp
          exact of_decide_eq_true (List.mem_filter.1 hmem).2
      · rw [List.flatten_cons]
        exact ((rows.sorted_perm _).append hperm).trans (filter_lists_perm row tables left)

/-! ## Marks -/

theorem isPrimaryKey_iff : (rows.column row).isPrimaryKey = true ↔
    ∃ key ∈ rows.primaryKeys, columnKey key = columnKey row := by
  simp [column]

theorem isUnique_iff : (rows.column row).isUnique = true ↔
    ∃ key ∈ rows.uniqueColumns, columnKey key = columnKey row := by
  simp [column]

theorem isForeignKey_iff : (rows.column row).isForeignKey = true ↔
    ∃ r ∈ rows.relationships, (r.sourceTable, r.sourceColumn) = columnKey row := by
  simp [column]

theorem contains_map_perm {keys keys' : List Record} (h : keys.Perm keys') (key : String × String) :
    (keys.map columnKey).contains key = (keys'.map columnKey).contains key := by
  rw [Bool.eq_iff_iff, List.contains_iff_mem, List.contains_iff_mem, (h.map columnKey).mem_iff]

/-- The order of the rows that name keys does not matter. -/
theorem column_perm {keys unique : List Record} (hkeys : rows.primaryKeys.Perm keys)
    (hunique : rows.uniqueColumns.Perm unique) (row : Record) :
    { rows with primaryKeys := keys, uniqueColumns := unique }.column row = rows.column row := by
  simp only [column, ← contains_map_perm hkeys, ← contains_map_perm hunique]
  rfl

/-! ## Descriptions -/

def numbered (rows : CatalogRows) : List Numbered :=
  rows.columns.zipIdx

theorem pairwise_numbered (rows : CatalogRows) : rows.numbered.Pairwise fun p q => p.2 < q.2 := by
  have h : (rows.numbered.map Prod.snd).Pairwise (· < ·) := by
    rw [numbered, List.zipIdx_map_snd]
    exact List.pairwise_lt_range'
  exact List.pairwise_map.1 h

theorem map_numbered {α : Type} (rows : CatalogRows) (f : Record → α) :
    rows.numbered.map (fun p => f p.1) = rows.columns.map f := by
  have h : rows.numbered.map Prod.fst = rows.columns := List.zipIdx_map_fst _ _
  rw [← h, List.map_map]
  rfl

def listed (rows : CatalogRows) : List Numbered :=
  rows.numbered.filter fun p => lists rows.tables (tableName p.1)

theorem exists_shares_assemble (rows : CatalogRows) (catalogName : String) (database : Database) :
    ∃ shares, List.Forall₂ rows.Holds (rows.assemble catalogName database).tables shares ∧
      shares.flatten.Perm rows.listed := by
  have h := rows.exists_shares rows.pairwise_numbered rows.tables
  rw [rows.map_numbered fun row => (tableName row, rows.column row)] at h
  exact h

theorem flatMap_columns {tables : List SchemaTable} {shares : List (List Numbered)}
    (h : List.Forall₂ rows.Holds tables shares) :
    tables.flatMap SchemaTable.columns = shares.flatten.map fun p => rows.column p.1 := by
  induction h with
  | nil => rfl
  | cons hfirst _ ih => rw [List.flatMap_cons, List.flatten_cons, List.map_append, hfirst.columns, ih]

/-- A column of a table comes from a row that names both. -/
theorem exists_row {table : SchemaTable} {column : SchemaColumn} (hholds : rows.Holds table share)
    (h : column ∈ table.columns) : ∃ row, column = rows.column row ∧ columnKey row = (table.name, column.name) := by
  rw [hholds.columns] at h
  obtain ⟨p, hp, rfl⟩ := List.mem_map.1 h
  exact ⟨p.1, rfl, Prod.ext (hholds.name p hp) rfl⟩

theorem length_filter_kind {described : List SchemaTable} (h : List.Forall₂ Announces tables described)
    (kind : TableKind) :
    (described.filter fun table => table.kind = kind).length = tables.countP fun row => tableKind row = kind := by
  rw [← List.countP_eq_length_filter]
  induction h with
  | nil => rfl
  | cons hfirst _ ih => rw [List.countP_cons, List.countP_cons, ih, hfirst.kind]

theorem countP_kinds (tables : List Record) :
    (tables.countP fun row => tableKind row = .table) + (tables.countP fun row => tableKind row = .view) =
      tables.length := by
  rw [List.length_eq_countP_add_countP fun row => tableKind row = .table]
  congr 1
  refine List.countP_congr fun row _ => ?_
  cases tableKind row <;> simp

theorem length_listed (rows : CatalogRows) :
    rows.listed.length = rows.columns.countP fun row => lists rows.tables (tableName row) := by
  have h : rows.numbered.map Prod.fst = rows.columns := List.zipIdx_map_fst _ _
  rw [listed, ← List.countP_eq_length_filter, ← h, List.countP_map]
  rfl

/-- A description has a table for each row of tables, in order. Every row of columns whose table is listed has one place
in one table of that name, and no other row has any; in each table the columns stand in order of position, and
those with the same one in order of their rows. A column is marked exactly as the rows of keys name it, which may come
in any order, and each reference has its row. -/
theorem assemble_conserves (rows : CatalogRows) (catalogName : String) (database : Database) :
    let schema := rows.assemble catalogName database
    List.Forall₂ Announces rows.tables schema.tables ∧
    (∃ shares, List.Forall₂ rows.Holds schema.tables shares ∧ shares.flatten.Perm rows.listed) ∧
    (∀ table ∈ schema.tables, ∀ column ∈ table.columns,
      (column.isPrimaryKey = true ↔ ∃ key ∈ rows.primaryKeys, columnKey key = (table.name, column.name)) ∧
      (column.isUnique = true ↔ ∃ key ∈ rows.uniqueColumns, columnKey key = (table.name, column.name)) ∧
      (column.isForeignKey = true ↔ ∃ key ∈ rows.foreignKeys,
        (text key "source_table", text key "source_column") = (table.name, column.name))) ∧
    schema.relationships = rows.foreignKeys.map relationship ∧
    (schema.statistics.tables = (schema.tables.countP fun table => table.kind = .table) ∧
      schema.statistics.views = (schema.tables.countP fun table => table.kind = .view) ∧
      schema.statistics.relationships = schema.relationships.length ∧
      schema.statistics.columns = (schema.tables.map fun table => table.columns.length).sum) ∧
    (schema.statistics.tables + schema.statistics.views = rows.tables.length ∧
      schema.statistics.relationships = rows.foreignKeys.length ∧
      schema.statistics.columns = rows.columns.countP fun row => lists rows.tables (tableName row)) ∧
    ∀ keys unique, rows.primaryKeys.Perm keys → rows.uniqueColumns.Perm unique →
      { rows with primaryKeys := keys, uniqueColumns := unique }.assemble catalogName database = schema := by
  intro schema
  have hannounced : List.Forall₂ Announces rows.tables schema.tables := assembleTables_announced _ rows.tables
  obtain ⟨shares, hholds, hperm⟩ := rows.exists_shares_assemble catalogName database
  have hcolumns : schema.statistics.columns = shares.flatten.length := by
    rw [DatabaseSchema.statistics, flatMap_columns hholds, List.length_map]
  refine ⟨hannounced, ⟨shares, hholds, hperm⟩, ?_, rfl, ⟨?_, ?_, rfl, ?_⟩, ⟨?_, ?_, ?_⟩, ?_⟩
  · intro table htable column hcolumn
    obtain ⟨share, -, hshare⟩ := (exists_mem_of_forall₂ hholds).1 table htable
    obtain ⟨row, rfl, hrow⟩ := exists_row hshare hcolumn
    rw [isPrimaryKey_iff, isUnique_iff, isForeignKey_iff, ← hrow]
    exact ⟨Iff.rfl, Iff.rfl, by simp [relationships, relationship]⟩
  · exact List.countP_eq_length_filter.symm
  · exact List.countP_eq_length_filter.symm
  · exact List.length_flatMap
  · exact (congrArg₂ (· + ·) (length_filter_kind hannounced _) (length_filter_kind hannounced _)).trans
      (countP_kinds rows.tables)
  · exact List.length_map _
  · rw [hcolumns, hperm.length_eq, length_listed]
  · intro keys unique hkeys hunique
    simp only [assemble, column_perm hkeys hunique]
    rfl

/-- Of two rows of one table the first takes the columns. -/
example : ((assemble ⟨[[("table_name", .str "t")], [("table_name", .str "t")]],
    [[("table_name", .str "t"), ("column_name", .str "a")], [("table_name", .str "u")]], [], [], []⟩
    "d" .mysql).tables.map fun table => table.columns.map SchemaColumn.name) = [["a"], []] := by decide +kernel

end SemanticLayer.CatalogRows
