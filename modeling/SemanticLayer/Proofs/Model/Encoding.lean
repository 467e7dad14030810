import SemanticLayer.Model.Request
import SemanticLayer.Proofs.Document
import SemanticLayer.Proofs.Json.Merging
/-!
Sources and requests as JSON. What they are written as is read back as the same source or request.
-/
namespace SemanticLayer

open Document (json)

variable {α β : Type} {name : String}

namespace Document

/-! ## Reading what was written -/

section Fields

variable {f : Fields} {d : Document} {decode : Document → Option α}

theorem Fields.need_of_lookup (h : f.given.lookup name = some d) : f.need name decode = decode d := by
  rw [need, h, Option.bind_some]

theorem Fields.orElse_of_lookup {default : α} (h : f.given.lookup name = some d) :
    f.orElse name default decode = decode d := by
  rw [orElse, h]

theorem Fields.may_of_lookup {value : Option α} (encode : α → Json)
    (hdecode : ∀ a, value = some a → (json (encode a)).isNothing = false ∧ decode (json (encode a)) = some a)
    (h : f.given.lookup name = some (json (value.elim .null encode))) : f.may name decode = some value := by
  rw [may, h]
  cases value with
  | none => rfl
  | some a =>
      obtain ⟨hnull, ha⟩ := hdecode a rfl
      simp [hnull, ha]

theorem Fields.given_of_may {a : α} (h : f.may name decode = some (some a)) :
    ∃ d, f.given.lookup name = some d ∧ decode d = some a := by
  unfold may at h
  split at h
  · rename_i d hd
    split at h
    · cases h
    · exact ⟨d, hd, by simpa using h⟩
  · split at h <;> cases h

theorem Fields.may_ofText? {text : Option String} (h : f.given.lookup name = some (json (.ofText? text))) :
    f.may name text? = some text := by
  refine may_of_lookup .str (fun s _ => ⟨rfl, rfl⟩) ?_
  cases text <;> exact h

end Fields

theorem value?_json {v : Json} (h : v.WellFormed) : (json v).value? = some v :=
  congrArg some h.merged_eq

/-- To decode an object is to decode its members. -/
theorem bind_fields?_obj {names : List String} {r : Record} {build : Fields → Option α} {a : α}
    (hkeys : r.keys.Nodup)
    (h : ∀ f : Fields, (∀ name ∈ names, f.given.lookup name = (r.get? name).map json) → build f = some a) :
    ((json (.obj r)).fields? names).bind build = some a := by
  obtain ⟨f, hf, hgiven⟩ := fields?_obj names hkeys
  rw [hf, Option.bind_some]
  exact h f hgiven

theorem listOf?_map {decode : Document → Option α} {encode : α → Json} {items : List α}
    (h : ∀ a ∈ items, decode (json (encode a)) = some a) :
    listOf? decode (json (.arr (items.map encode))) = some items := by
  have hlist : (json (.arr (items.map encode))).list? = some ((items.map encode).map json) := rfl
  rw [listOf?, hlist, Option.bind_some, List.map_map, mapM_eq_some_iff, List.forall₂_map_left_iff]
  exact List.forall₂_same.2 h

theorem dictionaryOf?_toJson {decode : Document → Option α} {encode : α → Json} {dictionary : Dictionary α}
    (h : ∀ e ∈ dictionary.entries, decode (json (encode e.2)) = some e.2) :
    dictionaryOf? decode (json (dictionary.toJson encode)) = some dictionary := by
  rw [dictionaryOf?_eq_some_iff]
  refine ⟨dictionary.entries.map fun e => (e.1, json (encode e.2)), dictionary.entries, ?_, ?_,
    dictionary.ofList_entries.symm⟩
  · rw [named?_eq_some_iff, List.map_map]
    change some ((dictionary.entries.map _).map _) = _
    rw [List.map_map]
    rfl
  · rw [List.forall₂_map_left_iff]
    refine List.forall₂_same.2 fun e he => ?_
    rw [h e he]
    rfl

/-! ## What is read from JSON -/

section Json

variable {v value : Json} {d : Document} {names : List String}

theorem given?_json (h : (json v).given? names name = some d) : ∃ w, d = json w := by
  cases v with
  | obj r =>
      rw [given?_obj] at h
      obtain ⟨w, -, rfl⟩ := Option.map_eq_some_iff.1 h
      exact ⟨w, rfl⟩
  | arr items =>
      have hplace : (items.map json)[names.idxOf name]? = some d := h
      rw [List.getElem?_map] at hplace
      obtain ⟨w, -, rfl⟩ := Option.map_eq_some_iff.1 hplace
      exact ⟨w, rfl⟩
  | _ => cases h

theorem under?_json (h : (json v).under? name = some d) : ∃ w, d = json w := by
  obtain ⟨ms, hms, hd⟩ := Option.bind_eq_some_iff.1 h
  rw [named?_eq_some_iff] at hms
  cases v with
  | obj r =>
      have hmap : (r.map fun m => (some m.1, json m.2)) = ms.map fun m => (some m.1, m.2) := Option.some.inj hms
      have hmem : (name, d) ∈ ms := List.mem_reverse.1 (mem_of_lookup hd)
      have hpair : (some name, d) ∈ r.map fun m => (some m.1, json m.2) := hmap ▸ List.mem_map_of_mem hmem
      obtain ⟨m, -, heq⟩ := List.mem_map.1 hpair
      exact ⟨m.2, (Prod.mk.inj heq).2.symm⟩
  | _ => cases hms

theorem wellFormed_of_value? (h : (json v).value? = some value) : value.WellFormed :=
  Option.some.inj h ▸ v.wellFormed_merged

theorem unsigned?_int {bits n : Nat} (h : n < Nat.pow 2 bits) : (json (.int n)).unsigned? bits = some n := by
  have hrange : (decide (0 ≤ (n : Int)) && decide ((n : Int) < Nat.pow 2 bits)) = true := by
    rw [Bool.and_eq_true, decide_eq_true_eq, decide_eq_true_eq]
    exact ⟨Int.natCast_nonneg n, Int.ofNat_lt.2 h⟩
  exact if_pos hrange

theorem unsigned?_lt {bits n : Nat} (h : d.unsigned? bits = some n) : n < Nat.pow 2 bits := by
  have hrange (i : Int) (hi : (if 0 ≤ i && i < Nat.pow 2 bits then some i.toNat else none) = some n) :
      n < Nat.pow 2 bits := by
    rw [Option.ite_none_right_eq_some, Bool.and_eq_true, decide_eq_true_eq, decide_eq_true_eq] at hi
    obtain ⟨⟨hnonneg, hlt⟩, hi⟩ := hi
    obtain rfl := Option.some.inj hi
    exact (Int.toNat_lt hnonneg).2 hlt
  unfold unsigned? at h
  split at h
  · exact hrange _ h
  · exact hrange _ h
  · cases h

end Json

end Document

open Document

theorem Json.wellFormed_ofText? (text : Option String) : (ofText? text).WellFormed := by
  cases text
  · exact .null
  · exact .str _

/-! ## Sources -/

theorem Aggregation.ofExactName?_name (a : Aggregation) : ofExactName? a.name = some a := by
  cases a <;> decide

theorem FilterOperator.ofName?_name (op : FilterOperator) : ofName? op.name = some op := by
  cases op <;> rfl

theorem ValueType.ofName?_name (t : ValueType) : ofName? t.name = some t := by
  cases t <;> rfl

theorem Dimension.full?_toJson (d : Dimension) : full? d.toJson = some d := by
  rw [full?, toJson]
  refine bind_fields?_obj (by simp [Record.keys]) fun f hf => ?_
  have hexpr : f.need "expr" text? = some d.expression := Fields.need_of_lookup (hf "expr" (by simp))
  have hlabel : f.may "label" text? = some d.label := Fields.may_ofText? (hf "label" (by simp))
  have hjoin : f.may "join" text? = some d.join := Fields.may_ofText? (hf "join" (by simp))
  simp [hexpr, hlabel, hjoin]

theorem Dimension.wellFormed_toJson (d : Dimension) : d.toJson.WellFormed := by
  refine .obj _ (by simp [Record.keys]) ?_
  simp [Json.WellFormed.str, Json.wellFormed_ofText?]

theorem Dimension.ofDocument?_toJson (d : Dimension) : ofDocument? (json d.toJson) = some d := by
  rw [ofDocument?, value?_json d.wellFormed_toJson, Option.bind_some]
  exact d.full?_toJson

theorem Measure.ofDocument?_toJson (m : Measure) : ofDocument? (json m.toJson) = some m := by
  rw [ofDocument?, toJson]
  refine bind_fields?_obj (by simp [Record.keys]) fun f hf => ?_
  have hexpr : f.need "expr" text? = some m.expression := Fields.need_of_lookup (hf "expr" (by simp))
  have hlabel : f.may "label" text? = some m.label := Fields.may_ofText? (hf "label" (by simp))
  have hagg : f.orElse "default_agg" .sum Aggregation.ofDocument? = some m.defaultAggregation :=
    (Fields.orElse_of_lookup (hf "default_agg" (by simp))).trans (Aggregation.ofExactName?_name _)
  have hjoin : f.may "join" text? = some m.join := Fields.may_ofText? (hf "join" (by simp))
  simp [hexpr, hlabel, hagg, hjoin]

theorem JoinClause.full?_toJson (j : JoinClause) : full? j.toJson = some j := by
  rw [full?, toJson]
  refine bind_fields?_obj (by simp [Record.keys]) fun f hf => ?_
  have hsql : f.need "sql" text? = some j.sql := Fields.need_of_lookup (hf "sql" (by simp))
  have hrequires : f.orElse "requires" [] (listOf? text?) = some j.requires :=
    (Fields.orElse_of_lookup (hf "requires" (by simp))).trans (listOf?_map fun _ _ => rfl)
  simp [hsql, hrequires]

theorem JoinClause.wellFormed_toJson (j : JoinClause) : j.toJson.WellFormed := by
  have hrequires : (Json.arr (j.requires.map .str)).WellFormed :=
    .arr _ (List.forall_mem_map.2 fun s _ => .str s)
  refine .obj _ (by simp [Record.keys]) ?_
  simp [Json.WellFormed.str, hrequires]

theorem JoinClause.ofDocument?_toJson (j : JoinClause) : ofDocument? (json j.toJson) = some j := by
  rw [ofDocument?, value?_json j.wellFormed_toJson, Option.bind_some]
  exact j.full?_toJson

theorem FilterColumn.full?_toJson (c : FilterColumn) : full? c.toJson = some c := by
  rw [full?, toJson]
  refine bind_fields?_obj (by simp [Record.keys]) fun f hf => ?_
  have hcolumn : f.need "column" text? = some c.column := Fields.need_of_lookup (hf "column" (by simp))
  have htype : f.may "type" (fun d => d.choice?.bind ValueType.ofName?) = some c.valueType := by
    refine Fields.may_of_lookup (fun t => .str t.name) (fun t _ => ⟨rfl, t.ofName?_name⟩) ?_
    rw [hf "type" (by simp)]
    cases c.valueType <;> rfl
  have hop : f.may "op" (fun d => d.choice?.bind FilterOperator.ofName?) = some c.operator := by
    refine Fields.may_of_lookup (fun op => .str op.name) (fun op _ => ⟨rfl, op.ofName?_name⟩) ?_
    rw [hf "op" (by simp)]
    cases c.operator <;> rfl
  have hjoin : f.may "join" text? = some c.join := Fields.may_ofText? (hf "join" (by simp))
  simp [hcolumn, htype, hop, hjoin]

theorem FilterColumn.wellFormed_toJson (c : FilterColumn) : c.toJson.WellFormed := by
  refine .obj _ (by simp [Record.keys]) ?_
  simp [Json.WellFormed.str, Json.wellFormed_ofText?]

theorem FilterColumn.ofDocument?_toJson (c : FilterColumn) : ofDocument? (json c.toJson) = some c := by
  rw [ofDocument?, value?_json c.wellFormed_toJson, Option.bind_some]
  exact c.full?_toJson

theorem Source.ofDocument?_toJson (s : Source) : ofDocument? (json s.toJson) = some s := by
  rw [ofDocument?, toJson]
  refine bind_fields?_obj (by simp [Record.keys]) fun f hf => ?_
  have hname : f.need "name" text? = some s.name := Fields.need_of_lookup (hf "name" (by simp))
  have hlabel : f.may "label" text? = some s.label := Fields.may_ofText? (hf "label" (by simp))
  have htable : f.need "table" text? = some s.table := Fields.need_of_lookup (hf "table" (by simp))
  have halias : f.may "alias" text? = some s.aliasName := Fields.may_ofText? (hf "alias" (by simp))
  have hconnection : f.may "connection_id" text? = some s.connectionId :=
    Fields.may_ofText? (hf "connection_id" (by simp))
  have hdimensions : f.orElse "dimensions" .empty (dictionaryOf? Dimension.ofDocument?) = some s.dimensions :=
    (Fields.orElse_of_lookup (hf "dimensions" (by simp))).trans
      (dictionaryOf?_toJson fun e _ => e.2.ofDocument?_toJson)
  have hmeasures : f.orElse "measures" .empty (dictionaryOf? Measure.ofDocument?) = some s.measures :=
    (Fields.orElse_of_lookup (hf "measures" (by simp))).trans
      (dictionaryOf?_toJson fun e _ => e.2.ofDocument?_toJson)
  have hjoins : f.orElse "joins" .empty (dictionaryOf? JoinClause.ofDocument?) = some s.joins :=
    (Fields.orElse_of_lookup (hf "joins" (by simp))).trans
      (dictionaryOf?_toJson fun e _ => e.2.ofDocument?_toJson)
  have hfilters : f.orElse "filter_columns" .empty (dictionaryOf? FilterColumn.ofDocument?) =
      some s.filterColumns :=
    (Fields.orElse_of_lookup (hf "filter_columns" (by simp))).trans
      (dictionaryOf?_toJson fun e _ => e.2.ofDocument?_toJson)
  have hdescription : f.may "description" text? = some s.description :=
    Fields.may_ofText? (hf "description" (by simp))
  simp [hname, hlabel, htable, halias, hconnection, hdimensions, hmeasures, hjoins, hfilters, hdescription]

/-! ## Requests -/

theorem MeasureKind.ofName_name (k : MeasureKind) : ofName k.name = k := by
  cases k <;> rfl

theorem SortDirection.ofName?_name (d : SortDirection) : ofName? d.name = some d := by
  cases d <;> rfl

theorem MeasureRequest.ofDocument?_toJson (m : MeasureRequest) : ofDocument? (json m.toJson) = some m := by
  rw [ofDocument?, toJson]
  refine bind_fields?_obj (by simp [Record.keys]) fun f hf => ?_
  have hfield : f.may "field" text? = some m.field := Fields.may_ofText? (hf "field" (by simp))
  have hexpression : f.may "expression" text? = some m.expression :=
    Fields.may_ofText? (hf "expression" (by simp))
  have haggregation : f.may "aggregation" text? = some m.aggregation :=
    Fields.may_ofText? (hf "aggregation" (by simp))
  have halias : f.may "alias" text? = some m.aliasName := Fields.may_ofText? (hf "alias" (by simp))
  have hkind : f.orElse "type" .aggregate (fun d => d.choice?.map MeasureKind.ofName) = some m.kind :=
    (Fields.orElse_of_lookup (hf "type" (by simp))).trans (congrArg some m.kind.ofName_name)
  simp [hfield, hexpression, haggregation, halias, hkind]

theorem SortKey.ofDocument?_toJson (s : SortKey) : ofDocument? (json s.toJson) = some s := by
  rw [ofDocument?, toJson]
  refine bind_fields?_obj (by simp [Record.keys]) fun f hf => ?_
  have hfield : f.need "field" text? = some s.field := Fields.need_of_lookup (hf "field" (by simp))
  have hdirection : f.orElse "direction" .ascending (fun d => d.choice?.bind SortDirection.ofName?) =
      some s.direction :=
    (Fields.orElse_of_lookup (hf "direction" (by simp))).trans s.direction.ofName?_name
  simp [hfield, hdirection]

/-- A request that can be written as it is: its limit fits 64 bits, and no object among the values of its filters
repeats a key. -/
structure Request.Proper (r : Request) : Prop where
  limit : ∀ n, r.limit = some n → n < Nat.pow 2 64
  filters : ∀ name value, r.filters.get? name = some value → value.WellFormed

theorem Request.ofDocument?_toJson {r : Request} (h : r.Proper) : ofDocument? (json r.toJson) = some r := by
  rw [ofDocument?, toJson]
  refine bind_fields?_obj (by simp [Record.keys]) fun f hf => ?_
  have hsource : f.need "source" text? = some r.source := Fields.need_of_lookup (hf "source" (by simp))
  have hdimensions : f.orElse "dimensions" [] (listOf? text?) = some r.dimensions :=
    (Fields.orElse_of_lookup (hf "dimensions" (by simp))).trans (listOf?_map fun _ _ => rfl)
  have hmeasures : f.orElse "measures" [] (listOf? MeasureRequest.ofDocument?) = some r.measures :=
    (Fields.orElse_of_lookup (hf "measures" (by simp))).trans (listOf?_map fun m _ => m.ofDocument?_toJson)
  have hfilters : f.orElse "filters" .empty (dictionaryOf? value?) = some r.filters := by
    refine (Fields.orElse_of_lookup (hf "filters" (by simp))).trans (dictionaryOf?_toJson fun e he => ?_)
    exact value?_json (h.filters e.1 e.2 (Dictionary.get?_eq_some_iff.2 he))
  have hsort : f.may "sort" SortKey.ofDocument? = some r.sort := by
    refine Fields.may_of_lookup SortKey.toJson (fun s _ => ⟨rfl, s.ofDocument?_toJson⟩) ?_
    rw [hf "sort" (by simp)]
    cases r.sort <;> rfl
  have hlimit : f.may "limit" (unsigned? 64) = some r.limit := by
    refine Fields.may_of_lookup (fun n => .int n) (fun n hn => ⟨rfl, unsigned?_int (h.limit n hn)⟩) ?_
    rw [hf "limit" (by simp)]
    cases r.limit <;> rfl
  have hconnection : f.may "connectionId" text? = some r.connectionId :=
    Fields.may_ofText? (hf "connectionId" (by simp))
  simp [hsource, hdimensions, hmeasures, hfilters, hsort, hlimit, hconnection]

theorem Request.proper_of_ofDocument? {v : Json} {r : Request} (h : ofDocument? (json v) = some r) : r.Proper := by
  simp only [ofDocument?, Option.bind_eq_bind, Option.bind_eq_some_iff] at h
  obtain ⟨f, hf, source, -, dimensions, -, measures, -, filters, hfilters, sort, -, limit, hlimit, connection, -, h⟩ := h
  obtain rfl := Option.some.inj h
  constructor
  · intro n hn
    obtain rfl : limit = some n := hn
    obtain ⟨d, -, hd⟩ := Fields.given_of_may hlimit
    exact unsigned?_lt hd
  · intro name value hvalue
    rw [orElse_eq hf (by simp)] at hfilters
    cases hgiven : (json v).given? _ "filters" with
    | none =>
        rw [hgiven] at hfilters
        obtain rfl := Option.some.inj hfilters
        cases hvalue
    | some d =>
        rw [hgiven] at hfilters
        obtain ⟨w, rfl⟩ := given?_json hgiven
        have hunder := map_under? hfilters name
        rw [hvalue] at hunder
        obtain ⟨e, he, hdecode⟩ := Option.map_eq_some_iff.1 hunder
        obtain ⟨u, rfl⟩ := under?_json he
        exact wellFormed_of_value? hdecode

/-- Sources and requests are read back from what they are written as, and so whatever JSON stood for one of them, it
stays the same when it is written and read again. A request that was read from JSON is one that can be written. -/
theorem read_written :
    (∀ s : Source, Source.ofDocument? (json s.toJson) = some s) ∧
      (∀ r : Request, Request.ofDocument? (json r.toJson) = some r ↔ r.Proper) ∧
      (∀ v, ((Source.ofDocument? (json v)).bind fun s => Source.ofDocument? (json s.toJson)) =
        Source.ofDocument? (json v)) ∧
      ∀ v, ((Request.ofDocument? (json v)).bind fun r => Request.ofDocument? (json r.toJson)) =
        Request.ofDocument? (json v) := by
  refine ⟨Source.ofDocument?_toJson, fun r => ?_, fun v => ?_, fun v => ?_⟩
  · exact ⟨Request.proper_of_ofDocument?, Request.ofDocument?_toJson⟩
  · cases h : Source.ofDocument? (json v) with
    | none => rfl
    | some s => exact s.ofDocument?_toJson
  · cases h : Request.ofDocument? (json v) with
    | none => rfl
    | some r => exact Request.ofDocument?_toJson (Request.proper_of_ofDocument? h)

/-- Short forms, other names and unknown fields are read, and written in full. -/
example : (Source.ofDocument? (json (.obj [("table", .str "sales"), ("name", .str "sales"), ("owner", .null),
    ("dimensions", .obj [("day", .str "s.day")]),
    ("filter_columns", .obj [("region", .obj [("op", .str "neq"), ("column", .str "s.region")])])]))).map
    Source.toJson =
    some (.obj [("name", .str "sales"), ("label", .null), ("table", .str "sales"), ("alias", .null),
      ("connection_id", .null),
      ("dimensions", .obj [("day", .obj [("expr", .str "s.day"), ("label", .null), ("join", .null)])]),
      ("measures", .obj []), ("joins", .obj []),
      ("filter_columns", .obj [("region", .obj [("column", .str "s.region"), ("type", .null), ("op", .str "!="),
        ("join", .null)])]),
      ("description", .null)]) := by
  rfl

end SemanticLayer
