import SemanticLayer.Proofs.Query.Columns
import SemanticLayer.Proofs.Registry.Circles
/-!
The joins of a compiled statement, on sources that the registry accepts: those that the request needs
and no others.
-/
namespace SemanticLayer

open Relation

/-- What a request takes a join for: a dimension, an aggregate, or a filter that applies. -/
inductive Request.Names (request : Request) (source : Source) : String → Prop where
  | dimension {key : String} {d : Dimension} {join : String} (hkey : key ∈ request.dimensions)
      (hd : source.dimensions.get? key = some d) (hjoin : d.join = some join) :
      request.Names source join
  | aggregate {m : MeasureRequest} {field : String} {measure : Measure} {join : String}
      (hm : m ∈ request.measures) (hkind : m.kind = .aggregate) (hfield : m.field = some field)
      (hmeasure : source.measures.get? field = some measure) (hjoin : measure.join = some join) :
      request.Names source join
  | filter {key : String} {value : Json} {c : FilterColumn} {join : String}
      (hvalue : request.filters.get? key = some value) (hblank : value.isBlank = false)
      (hc : source.filterColumns.get? key = some c) (hjoin : c.join = some join) :
      request.Names source join

namespace Source

/-- The joins to make where some are named: those that can be reached from one through
requirements, each once and behind all that it requires. -/
structure JoinsFor (source : Source) (named : String → Prop) (joins : List NamedJoin) : Prop where
  clause : ∀ j ∈ joins, source.joins.get? j.name = some j.clause
  distinct : (joins.map NamedJoin.name).Nodup
  exact : ∀ name, name ∈ joins.map NamedJoin.name ↔
    ∃ first, named first ∧ ReflTransGen source.Requires first name
  ordered : ∀ before j behind, joins = before ++ j :: behind → ∀ r ∈ j.clause.requires,
    r ∈ before.map NamedJoin.name

variable {source : Source}

theorem Sound.known_of_reach (h : source.Sound) {a b : String} (ha : source.joins.contains a)
    (hreach : ReflTransGen source.Requires a b) : source.joins.contains b := by
  induction hreach with
  | refl => exact ha
  | tail _ hrequires _ => exact h.requires _ _ hrequires

theorem Sound.resolveJoins (h : source.Sound) {required : List String}
    (hknown : ∀ name ∈ required, source.joins.contains name) :
    source.JoinsFor (· ∈ required) (source.resolveJoins required) := by
  have hlisting := (resolveJoins_adds source required).listing
  refine ⟨hlisting.clause, hlisting.distinct, ?_, ?_⟩
  · intro name
    rw [mem_resolveJoins_iff]
    constructor
    · exact fun hname => hname.2
    · rintro ⟨first, hfirst, hreach⟩
      exact ⟨h.known_of_reach (hknown first hfirst) hreach, first, hfirst, hreach⟩
  · intro before j behind hsplit r hr
    have hj : j ∈ source.resolveJoins required := by simp [hsplit]
    have hr' : source.joins.contains r := h.requires j.name r ⟨j.clause, hlisting.clause j hj, hr⟩
    exact (hlisting.ordered before j behind hsplit r hr hr').resolve_right (h.acyclic j.name)

theorem JoinsFor.congr {named named' : String → Prop} {joins : List NamedJoin}
    (h : source.JoinsFor named joins) (hiff : ∀ name, named name ↔ named' name) :
    source.JoinsFor named' joins where
  clause := h.clause
  distinct := h.distinct
  exact := by simpa only [hiff] using h.exact
  ordered := h.ordered

/-! ## What a request names -/

theorem join_of_resolveMeasure {m : MeasureRequest} {r : ResolvedMeasure} {join : String}
    (h : source.resolveMeasure m = .ok r) :
    r.join? = some join ↔ m.kind = .aggregate ∧ ∃ field measure, m.field = some field ∧
      source.measures.get? field = some measure ∧ measure.join = some join := by
  rcases resolveMeasure_cases h with ⟨hkind, key, -, rfl⟩ | ⟨hkind, field, measure, hfield, hmeasure, rfl⟩
  · simp [hkind, ResolvedMeasure.join?]
  · simp [hkind, hfield, hmeasure, ResolvedMeasure.join?]

theorem mem_join_dimensions_iff {keys : List String} {join : String} :
    join ∈ (source.dimensionColumns 0 keys).filterMap SelectedColumn.join ↔
      ∃ key ∈ keys, ∃ d, source.dimensions.get? key = some d ∧ d.join = some join := by
  rw [filterMap_join_dimensionColumns, List.mem_filterMap]
  simp only [Option.bind_eq_some_iff]

theorem mem_join_aggregates_iff {requests : List MeasureRequest} {resolved : List ResolvedMeasure}
    {join : String}
    (h : List.Forall₂ (fun m r => source.resolveMeasure m = .ok r) requests resolved) :
    join ∈ (aggregateColumns 0 resolved).filterMap SelectedColumn.join ↔
      ∃ m ∈ requests, m.kind = .aggregate ∧ ∃ field measure, m.field = some field ∧
        source.measures.get? field = some measure ∧ measure.join = some join := by
  rw [filterMap_join_aggregateColumns, List.mem_filterMap]
  constructor
  · rintro ⟨r, hr, hjoin⟩
    obtain ⟨m, hm, hresolve⟩ := (exists_mem_of_forall₂ h).2 r hr
    exact ⟨m, hm, (join_of_resolveMeasure hresolve).1 hjoin⟩
  · rintro ⟨m, hm, hmeasure⟩
    obtain ⟨r, hr, hresolve⟩ := (exists_mem_of_forall₂ h).1 m hm
    exact ⟨r, hr, (join_of_resolveMeasure hresolve).2 hmeasure⟩

theorem mem_appliedFilters_iff {filters : Dictionary Json} {c : FilterColumn} {value : Json} :
    (c, value) ∈ source.appliedFilters filters ↔
      ∃ key, filters.get? key = some value ∧ value.isBlank = false ∧
        source.filterColumns.get? key = some c := by
  unfold appliedFilters
  rw [List.mem_filterMap]
  constructor
  · rintro ⟨⟨key, v⟩, hmem, h⟩
    split at h
    · simp at h
    · rename_i hblank
      obtain ⟨c', hc', heq⟩ := Option.map_eq_some_iff.1 h
      obtain ⟨rfl, rfl⟩ := Prod.mk.inj heq
      exact ⟨key, Dictionary.get?_eq_some_iff.2 hmem, by simpa using hblank, hc'⟩
  · rintro ⟨key, hvalue, hblank, hc⟩
    exact ⟨(key, value), Dictionary.get?_eq_some_iff.1 hvalue, by simp [hblank, hc]⟩

/-- The joins that the statement of a request asks for are those that the request names. -/
theorem mem_required_iff {request : Request} {resolved : List ResolvedMeasure}
    {orders : List Select.Order} (h : source.Compiles request resolved orders) (join : String) :
    join ∈ (source.requestColumns request resolved).filterMap SelectedColumn.join ++
        (source.appliedFilters request.filters).filterMap (fun f => f.1.join) ↔
      request.Names source join := by
  rw [requestColumns, List.filterMap_append, List.mem_append, List.mem_append,
    mem_join_dimensions_iff, mem_join_aggregates_iff h.resolves, List.mem_filterMap]
  constructor
  · rintro ((⟨key, hkey, d, hd, hjoin⟩ |
      ⟨m, hm, hkind, field, measure, hfield, hmeasure, hjoin⟩) | ⟨⟨c, value⟩, hf, hjoin⟩)
    · exact .dimension hkey hd hjoin
    · exact .aggregate hm hkind hfield hmeasure hjoin
    · obtain ⟨key, hvalue, hblank, hc⟩ := mem_appliedFilters_iff.1 hf
      exact .filter hvalue hblank hc hjoin
  · rintro (⟨hkey, hd, hjoin⟩ | ⟨hm, hkind, hfield, hmeasure, hjoin⟩ | ⟨hvalue, hblank, hc, hjoin⟩)
    · exact Or.inl (Or.inl ⟨_, hkey, _, hd, hjoin⟩)
    · exact Or.inl (Or.inr ⟨_, hm, hkind, _, _, hfield, hmeasure, hjoin⟩)
    · exact Or.inr ⟨(_, _), mem_appliedFilters_iff.2 ⟨_, hvalue, hblank, hc⟩, hjoin⟩

theorem Sound.known_of_names (h : source.Sound) {request : Request} {join : String}
    (hnames : request.Names source join) : source.joins.contains join := by
  cases hnames with
  | dimension _ hd hjoin => exact h.dimensions _ _ _ hd hjoin
  | aggregate _ _ _ hmeasure hjoin => exact h.measures _ _ _ hmeasure hjoin
  | filter _ _ hc hjoin => exact h.filters _ _ _ hc hjoin

theorem Sound.known_of_field (h : source.Sound) {field expression join : String}
    (hfield : source.field? field = some (expression, some join)) :
    source.joins.contains join := by
  unfold field? at hfield
  split at hfield
  · rename_i d hd
    exact h.dimensions field d join hd (Prod.mk.inj (Option.some.inj hfield)).2
  · obtain ⟨c, hc, heq⟩ := Option.map_eq_some_iff.1 hfield
    exact h.filters field c join hc (Prod.mk.inj heq).2

theorem compile_joinsFor {registry accepted : Registry}
    (haccepted : registry.insert source = .ok accepted) :
    (∀ limits db request compiled, source.compile limits db request = .ok compiled →
      ∃ select joins, source.plan limits request = .ok (select, compiled.plan) ∧
        compiled.sql = select.render db ∧ select.joins = joins.map (fun j => j.clause.sql) ∧
        source.JoinsFor (request.Names source) joins) ∧
    (∀ limits field select, source.distinctValues limits field = .ok select →
      ∃ joins, select.joins = joins.map (fun j => j.clause.sql) ∧
        source.JoinsFor
          (fun join => ∃ expression, source.field? field = some (expression, some join)) joins) := by
  have hsound := sound_of_insert haccepted
  constructor
  · intro limits db request compiled hcompile
    obtain ⟨select, hplan, hsql⟩ := plan_of_compile hcompile
    obtain ⟨resolved, orders, hcompiles, rfl, -⟩ := plan_eq_ok_iff.1 hplan
    refine ⟨_, _, hplan, hsql, rfl, ?_⟩
    refine (hsound.resolveJoins ?_).congr (mem_required_iff hcompiles)
    intro name hname
    exact hsound.known_of_names ((mem_required_iff hcompiles name).1 hname)
  · intro limits field select hselect
    unfold distinctValues at hselect
    split at hselect
    · simp at hselect
    · rename_i expression join hfield
      obtain rfl := Except.ok.inj hselect
      have hnamed : ∀ name, name ∈ join.toList ↔
          ∃ expression, source.field? field = some (expression, some name) := by
        intro name
        simp [hfield]
      refine ⟨_, rfl, (hsound.resolveJoins ?_).congr hnamed⟩
      intro name hname
      obtain ⟨_, hname⟩ := (hnamed name).1 hname
      exact hsound.known_of_field hname

theorem joinsFor_openByRegion :
    ∃ accepted compiled select, Registry.empty.insert orders = .ok accepted ∧
      orders.compile .usual .postgresql .openByRegion = .ok compiled ∧
      orders.distinctValues .usual "region" = .ok select ∧
      (∃ select joins, orders.plan .usual .openByRegion = .ok (select, compiled.plan) ∧
        compiled.sql = select.render .postgresql ∧
        select.joins = joins.map (fun j => j.clause.sql) ∧
        orders.JoinsFor (Request.openByRegion.Names orders) joins) ∧
      ∃ joins, select.joins = joins.map (fun j => j.clause.sql) ∧
        orders.JoinsFor
          (fun join => ∃ expression, orders.field? "region" = some (expression, some join))
          joins := by
  have haccepted : Registry.empty.insert orders = .ok ⟨.insert .empty "orders" orders⟩ := rfl
  have hjoins := compile_joinsFor haccepted
  exact ⟨_, _, _, haccepted, rfl, rfl, hjoins.1 _ _ _ _ rfl, hjoins.2 _ _ _ rfl⟩

end Source

end SemanticLayer
