import SemanticLayer.Proofs.Query.Columns
import SemanticLayer.Proofs.Sql.Frame
import SemanticLayer.Proofs.Sql.Quoting
/-!
The texts in the filters of a request reach the statement as literals and change nothing around
them.
-/
namespace SemanticLayer

open Sql

/-! ## Conditions -/

/-- The text at the place stays a text in a column of the given type. Only the value itself and the
items of the outermost array are brought to that type. -/
def Hole.Keeps (type : Option ValueType) (s : String) : Hole → Prop
  | here => ValueType.coerce type (.str s) = .str s
  | item _ here _ => ValueType.coerce type (.str s) = .str s
  | item _ (item _ _ _) _ => True

theorem coerce_arr (type : Option ValueType) (items : List Json) :
    ValueType.coerce type (.arr items) = .arr items := by
  rcases type with _ | _ | _ | _ | _ <;> rfl

theorem Hole.coerce_fill {type : Option ValueType} {s : String} {before behind : List Json}
    {inside : Hole} (h : (item before inside behind).Keeps type s) :
    ValueType.coerce type (inside.fill (.str s)) = inside.fill (.str s) := by
  cases inside with
  | here => exact h
  | item => exact coerce_arr _ _

namespace FilterColumn

/-- What the condition of a filter puts around the literal at a place of its value. -/
def frame (db : Database) (c : FilterColumn) : Hole → Frame
  | .here =>
      ⟨"(" ++ c.column ++ " " ++ (c.operator.getD .equal).comparison.sign ++ " ", ")"⟩
  | .item before inside behind =>
      let options (items : List Json) :=
        items.map fun v => db.literal (ValueType.coerce c.valueType v)
      Frame.within ⟨c.column ++ " IN (", ")"⟩
        ((Frame.between ", " (options before) (options behind)).within (inside.frame db))

theorem frame_calm (db : Database) (c : FilterColumn) (hole : Hole) : (c.frame db hole).Calm := by
  have hparenthesis (front : String) : (Frame.mk front ")").Calm := by simp [Frame.Calm]
  cases hole with
  | here => exact hparenthesis _
  | item before inside behind =>
      exact (hparenthesis _).within
        ((Frame.between_calm (by decide) (by decide) _ _).within (inside.frame_calm db))

end FilterColumn

theorem Select.renderAll_eq_map (db : Database) (terms : List Select.Term) :
    Select.renderAll db terms = terms.map (Select.Term.render db) := by
  induction terms with
  | nil => rfl
  | cons t terms ih => simp [renderAll, ih]

/-- A choice that has an option. -/
theorem Select.Term.render_oneOf (db : Database) (subject option : Select.Term)
    (before behind : List Select.Term) :
    (Select.Term.oneOf subject (before ++ option :: behind)).render db =
      subject.render db ++ " IN (" ++ String.intercalate ", "
        (before.map (render db) ++ option.render db :: behind.map (render db)) ++ ")" := by
  have hcons (first : Select.Term) (more : List Select.Term) :
      (Select.Term.oneOf subject (first :: more)).render db =
        subject.render db ++ " IN (" ++
          String.intercalate ", " ((first :: more).map (render db)) ++ ")" := by
    rw [render, renderAll_eq_map, List.map_cons]
  cases before with
  | nil => simpa using hcons option behind
  | cons first before => simpa using hcons first (before ++ option :: behind)

theorem FilterColumn.condition_fill (db : Database) {c : FilterColumn} {hole : Hole} {s : String}
    (h : hole.Keeps c.valueType s) :
    (c.condition (hole.fill (.str s))).render db = (c.frame db hole).around (db.textLiteral s) := by
  cases hole with
  | here =>
      have hcoerce : ValueType.coerce c.valueType (.str s) = .str s := h
      change (Select.Term.compare _ _ (.literal (ValueType.coerce c.valueType (.str s)))).render db = _
      rw [hcoerce, Select.Term.render, Select.Term.render, Select.Term.render, Database.literal]
      simp [frame, Frame.around, String.append_assoc]
  | item before inside behind =>
      rw [Hole.fill, condition, List.map_append, List.map_cons, Hole.coerce_fill h,
        Select.Term.render_oneOf, Frame.intercalate_around, frame, Frame.around_within,
        Frame.around_within, Select.Term.render, Select.Term.render, Hole.literal_fill,
        Database.literal]
      simp [Frame.around, List.map_map, Function.comp_def, Select.Term.render, String.append_assoc]

/-! ## Statements -/

namespace Select

/-- What a statement puts around one of its filters. -/
def filterFrame (db : Database) (q : Select) (before behind : List Term) : Frame :=
  (Frame.between " "
    ([q.head db, String.intercalate ", " (q.columns.map (Column.render db)),
      "FROM " ++ q.table.render] ++ q.joins.map Text.trimmed)
    (clause "GROUP BY " ", " (renderAll db q.groups) ++
      clause "ORDER BY " ", " (q.orders.map (Order.render db)) ++ q.tail db)).within
    (Frame.within ⟨"WHERE ", ""⟩
      (Frame.between " AND " (renderAll db before) (renderAll db behind)))

theorem filterFrame_calm (db : Database) (q : Select) (before behind : List Term) :
    (q.filterFrame db before behind).Calm := by
  have hwhere : (Frame.mk "WHERE " "").Calm := by simp [Frame.Calm]
  exact (Frame.between_calm (by decide) (by decide) _ _).within
    (hwhere.within (Frame.between_calm (by decide) (by decide) _ _))

theorem render_filters (db : Database) (q : Select) (before behind : List Term) (t : Term) :
    Select.render db { q with filters := before ++ t :: behind } =
      (q.filterFrame db before behind).around (t.render db) := by
  have hwhere : clause "WHERE " " AND " (renderAll db (before ++ t :: behind)) =
      [(Frame.within ⟨"WHERE ", ""⟩
        (Frame.between " AND " (renderAll db before) (renderAll db behind))).around
          (t.render db)] := by
    rw [Frame.around_within, ← Frame.intercalate_around]
    simp [clause, renderAll_eq_map, Frame.around]
  rw [filterFrame, Frame.around_within, ← Frame.intercalate_around]
  simp [render, parts, head, tail, hwhere]

end Select

/-! ## Requests -/

/-- The request with another value for a filter. -/
def Request.withFilter (request : Request) (key : String) (value : Json) : Request :=
  { request with filters := request.filters.insert key value }

namespace Source

variable {source : Source} {request : Request} {key : String} {value other : Json}
  {column : FilterColumn}

theorem appliedFilters_withFilter (hvalue : request.filters.get? key = some value)
    (hblank : value.isBlank = false) (hcolumn : source.filterColumns.get? key = some column) :
    ∃ before behind,
      source.appliedFilters request.filters = before ++ (column, value) :: behind ∧
      ∀ other : Json, other.isBlank = false →
        source.appliedFilters (request.withFilter key other).filters =
          before ++ (column, other) :: behind := by
  obtain ⟨before, behind, hentries, hinsert⟩ := Dictionary.entries_insert hvalue
  let applied (f : String × Json) : Option (FilterColumn × Json) :=
    if f.2.isBlank then none else (source.filterColumns.get? f.1).map (·, f.2)
  have hsplit : ∀ (d : Dictionary Json) (v : Json), v.isBlank = false →
      d.entries = before ++ (key, v) :: behind → source.appliedFilters d =
        before.filterMap applied ++ (column, v) :: behind.filterMap applied := by
    intro d v hv hd
    have happlied : applied (key, v) = some (column, v) := by simp [applied, hv, hcolumn]
    rw [appliedFilters, hd, List.filterMap_append, List.filterMap_cons_some happlied]
  exact ⟨_, _, hsplit _ _ hblank hentries, fun other hother => hsplit _ _ hother (hinsert other)⟩

theorem requestSelect_withFilter (limits : QueryLimits) (resolved : List ResolvedMeasure)
    (orders : List Select.Order) {before behind : List (FilterColumn × Json)}
    (hbefore : source.appliedFilters request.filters = before ++ (column, value) :: behind)
    (hafter : source.appliedFilters (request.withFilter key other).filters =
      before ++ (column, other) :: behind) :
    source.requestSelect limits (request.withFilter key other) resolved orders =
      { source.requestSelect limits request resolved orders with
        filters := before.map (fun f => f.1.condition f.2) ++
          column.condition other :: behind.map fun f => f.1.condition f.2 } := by
  have hjoins : (source.appliedFilters (request.withFilter key other).filters).filterMap
      (fun f => f.1.join) = (source.appliedFilters request.filters).filterMap fun f => f.1.join := by
    rw [hbefore, hafter]
    simp [List.filterMap_cons]
  unfold requestSelect
  rw [hjoins, hafter]
  simp [requestColumns, Request.withFilter]

/-- The statement of a request around a text in one of its filters. -/
theorem render_requestSelect (limits : QueryLimits) (db : Database)
    (resolved : List ResolvedMeasure) (orders : List Select.Order)
    {before behind : List (FilterColumn × Json)} {hole : Hole} {s : String}
    (happlied : source.appliedFilters request.filters =
      before ++ (column, hole.fill (.str s)) :: behind)
    (hkeeps : hole.Keeps column.valueType s) :
    (source.requestSelect limits request resolved orders).render db =
      (((source.requestSelect limits request resolved orders).filterFrame db
        (before.map fun f => f.1.condition f.2) (behind.map fun f => f.1.condition f.2)).within
          (column.frame db hole)).around (db.textLiteral s) := by
  have hfilters : source.requestSelect limits request resolved orders =
      { source.requestSelect limits request resolved orders with
        filters := before.map (fun f => f.1.condition f.2) ++
          column.condition (hole.fill (.str s)) :: behind.map fun f => f.1.condition f.2 } := by
    simp [requestSelect, happlied]
  rw [Frame.around_within, ← FilterColumn.condition_fill db hkeeps, ← Select.render_filters,
    ← hfilters]

theorem compile_withFilter {limits : QueryLimits} {db : Database} {hole : Hole} {a b : String}
    {compiled : CompiledQuery} (hcompile : source.compile limits db request = .ok compiled)
    (hcolumn : source.filterColumns.get? key = some column)
    (hvalue : request.filters.get? key = some (hole.fill (.str a)))
    (hblank : (hole.fill (.str a)).isBlank = false) (hb : b ≠ "")
    (hkeeps : hole.Keeps column.valueType a) (hkeeps' : hole.Keeps column.valueType b) :
    ∃ compiled' P Q,
      source.compile limits db (request.withFilter key (hole.fill (.str b))) = .ok compiled' ∧
      compiled.sql = P ++ db.textLiteral a ++ Q ∧ compiled'.sql = P ++ db.textLiteral b ++ Q ∧
      compiled'.plan = compiled.plan ∧ compiled'.limit = compiled.limit ∧
      ∀ s, (LexicalRules.ofDatabase db).readText .plain
        (LexicalRules.ofDatabase db).backslashEscapes (db.textLiteral s ++ Q).toList =
          .ok (.text .plain s, Q.toList) := by
  obtain ⟨resolved, orders, hcompiles, rfl⟩ := compile_eq_ok_iff.1 hcompile
  have hcompiles' : source.Compiles (request.withFilter key (hole.fill (.str b))) resolved orders :=
    ⟨hcompiles.known, hcompiles.resolves, hcompiles.distinct, hcompiles.selects, hcompiles.sorts⟩
  have hblank' : (hole.fill (.str b)).isBlank = false := by
    cases hole with
    | here => simpa [Hole.fill, Json.isBlank] using hb
    | item => simp [Hole.fill, Json.isBlank]
  obtain ⟨before, behind, hbefore, hafter⟩ := appliedFilters_withFilter hvalue hblank hcolumn
  have hselect := requestSelect_withFilter limits resolved orders hbefore (hafter _ hblank')
  have hsql := render_requestSelect limits db resolved orders hbefore hkeeps
  have hsql' := render_requestSelect limits db resolved orders (hafter _ hblank') hkeeps'
  refine ⟨_, _, _, compile_eq_ok_iff.2 ⟨resolved, orders, hcompiles', rfl⟩, hsql, ?_, rfl, rfl, ?_⟩
  · refine hsql'.trans ?_
    rw [hselect]
    rfl
  · intro s
    rw [String.toList_append]
    exact db.readText_textLiteral .plain s
      ((Select.filterFrame_calm db _ _ _).within (column.frame_calm db hole))

theorem compile_withFilter_quotes :
    ∃ compiled compiled' P Q, orders.compile .usual .mysql .openByRegion = .ok compiled ∧
      orders.compile .usual .mysql
        (Request.openByRegion.withFilter "status" (.str "\\' OR 1 = 1 -- ")) = .ok compiled' ∧
      compiled.sql = P ++ Database.mysql.textLiteral "open" ++ Q ∧
      compiled'.sql = P ++ Database.mysql.textLiteral "\\' OR 1 = 1 -- " ++ Q ∧
      compiled'.plan = compiled.plan ∧ compiled'.limit = compiled.limit ∧
      ∀ s, LexicalRules.mysql.readText .plain true (Database.mysql.textLiteral s ++ Q).toList =
        .ok (.text .plain s, Q.toList) := by
  have hvalue : Request.openByRegion.filters.get? "status" = some (Hole.here.fill (.str "open")) :=
    rfl
  have hkeeps (s : String) : Hole.here.Keeps (some .string) s := rfl
  have hother : "\\' OR 1 = 1 -- " ≠ "" := by decide
  obtain ⟨compiled', P, Q, hcompile', hsql, hsql', hplan, hlimit, hread⟩ :=
    compile_withFilter (rfl : orders.compile .usual .mysql .openByRegion = .ok _) rfl hvalue rfl hother
      (hkeeps _) (hkeeps _)
  exact ⟨_, compiled', P, Q, rfl, hcompile', hsql, hsql', hplan, hlimit, hread⟩

end Source

end SemanticLayer
