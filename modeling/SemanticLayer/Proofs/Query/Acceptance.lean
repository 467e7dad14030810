import SemanticLayer.Proofs.Query.Shaping
/-!
Which requests compile, and of which class the failure of the others is: the first part of a request that
cannot be used decides it.
-/
namespace SemanticLayer

/-! ## Parts of a request -/

/-- What is requested at one place. -/
inductive Requested where
  | dimension (key : String)
  | measure (request : MeasureRequest)

def Requested.key? : Requested → Option String
  | dimension key => some key
  | measure m => m.key?

def Request.parts (request : Request) : List Requested :=
  request.dimensions.map .dimension ++ request.measures.map .measure

namespace Source

/-- Whether a part can be used by itself: a known dimension, an aggregate of a known measure, or a
calculation with a key to answer it under. -/
def Resolves (source : Source) : Requested → Prop
  | .dimension key => source.dimensions.contains key = true
  | .measure m =>
      match m.kind with
      | .calculated => m.key?.isSome = true
      | .aggregate => ∃ field, m.field = some field ∧ source.measures.contains field = true

/-- Whether a part names something that the source does not have, which `text` says. -/
def Unknown (source : Source) (text : String) : Requested → Prop
  | .dimension key => source.dimensions.contains key = false ∧
      text = "unknown dimension '" ++ key ++ "' on source '" ++ source.name ++ "'"
  | .measure m => m.kind = .aggregate ∧ ∃ field, m.field = some field ∧
      source.measures.contains field = false ∧
      text = "unknown measure '" ++ field ++ "' on source '" ++ source.name ++ "'"

/-- Whether the parts of a request can be used together. -/
def Usable (source : Source) (parts : List Requested) : Prop :=
  (∀ part ∈ parts, source.Resolves part) ∧ (parts.filterMap Requested.key?).Nodup

end Source

/-- A request that a source can answer. Its filters, its limit, the names of its aggregations and the
texts of its calculations do not matter. -/
structure Request.Valid (source : Source) (request : Request) : Prop where
  usable : source.Usable request.parts
  selects : request.dimensions ≠ [] ∨ ∃ m ∈ request.measures, m.kind = .aggregate
  sorts : ∀ sort, request.sort = some sort → sort.field ∈ request.answeredKeys

namespace Source

variable {source : Source} {request : Request} {limits : QueryLimits} {db : Database} {text : String}

/-! ## Single parts -/

theorem resolves_calculated {m : MeasureRequest} (hkind : m.kind = .calculated) :
    source.Resolves (.measure m) ↔ m.key?.isSome = true := by
  simp only [Resolves, hkind]

theorem resolves_aggregate {m : MeasureRequest} (hkind : m.kind = .aggregate) :
    source.Resolves (.measure m) ↔
      ∃ field, m.field = some field ∧ source.measures.contains field = true := by
  simp only [Resolves, hkind]

theorem exists_resolveMeasure_iff {m : MeasureRequest} :
    (∃ r, source.resolveMeasure m = .ok r) ↔ source.Resolves (.measure m) := by
  unfold resolveMeasure
  cases hkind : m.kind with
  | calculated =>
      rw [resolves_calculated hkind, MeasureRequest.key?]
      cases m.aliasName <|> m.field <;> simp
  | aggregate =>
      rw [resolves_aggregate hkind]
      cases m.field with
      | none => simp
      | some field => cases hmeasure : source.measures.get? field <;> simp [Dictionary.contains, hmeasure]

theorem resolveMeasure_eq_invalidField_iff {m : MeasureRequest} :
    source.resolveMeasure m = .error (.invalidField text) ↔ source.Unknown text (.measure m) := by
  rw [Unknown, resolveMeasure]
  cases hkind : m.kind with
  | calculated => cases m.aliasName <|> m.field <;> simp
  | aggregate =>
      cases hfield : m.field with
      | none => simp
      | some field =>
          cases hmeasure : source.measures.get? field <;>
            simp [Dictionary.contains, hmeasure, @eq_comm _ text]

theorem not_unknown_of_resolveMeasure {m : MeasureRequest} {r : ResolvedMeasure}
    (h : source.resolveMeasure m = .ok r) : ¬source.Unknown text (.measure m) := by
  intro hunknown
  rw [← resolveMeasure_eq_invalidField_iff, h] at hunknown
  exact absurd hunknown (by simp)

/-! ## The first part that is unknown -/

/-- Whether an unknown part stands behind parts that can be used together. -/
def Stumbles (source : Source) (text : String) (before : List Requested) (part : Requested) : Prop :=
  source.Unknown text part ∧ source.Usable before

theorem unknown_dimension_iff {key : String} : source.Unknown text (.dimension key) ↔
    source.dimensions.get? key = none ∧
      "unknown dimension '" ++ key ++ "' on source '" ++ source.name ++ "'" = text := by
  simp [Unknown, Dictionary.contains, @eq_comm _ text]

theorem claimKey_of_mem {taken : List String} {key : String} (h : key ∈ taken) :
    claimKey taken key = .error (.validation
      ("output key '" ++ key ++ "' is requested more than once; use an alias")) := by
  simp [claimKey, h]

theorem selectDimensions_eq_invalidField_iff {taken : List SelectedColumn} {keys : List String}
    (htaken : (taken.map SelectedColumn.key).Nodup) :
    source.selectDimensions taken keys = .error (.invalidField text) ↔
      Met (fun before key => source.Unknown text (.dimension key) ∧
        (∀ k ∈ before, source.dimensions.contains k = true) ∧
        (taken.map SelectedColumn.key ++ before).Nodup) keys := by
  induction keys generalizing taken with
  | nil => simp [selectDimensions, not_met_nil]
  | cons key keys ih =>
      rw [met_cons, selectDimensions]
      cases hkey : source.dimensions.get? key with
      | none =>
          have hcontains : source.dimensions.contains key = false := by simp [Dictionary.contains, hkey]
          simp [unknown_dimension_iff, hkey, hcontains, htaken, Met]
      | some d =>
          have hcontains : source.dimensions.contains key = true := by simp [Dictionary.contains, hkey]
          have hknown : ¬source.Unknown text (.dimension key) := by simp [unknown_dimension_iff, hkey]
          by_cases hfresh : key ∈ taken.map SelectedColumn.key
          · have hdup (before : List String) :
                ¬(taken.map SelectedColumn.key ++ key :: before).Nodup := fun h =>
              not_mem_of_nodup_append_cons h hfresh
            simp [claimKey_of_mem hfresh, hknown, hdup, Met]
          · have hclaim : claimKey (taken.map SelectedColumn.key) key = .ok () :=
              claimKey_eq_ok_iff.2 hfresh
            simp only [hclaim, ok_bind]
            rw [ih (by simpa [List.nodup_append, htaken] using hfresh)]
            simp [hknown, hcontains]

section selectMeasures

variable {dimensions : List String} {requests : List MeasureRequest} {taken : List SelectedColumn}
  {calculated : List CalculatedColumn}

theorem selectMeasures_eq_invalidField_iff (htaken : (takenKeys dimensions taken calculated).Nodup) :
    source.selectMeasures dimensions taken calculated requests = .error (.invalidField text) ↔
      Met (fun before m => source.Unknown text (.measure m) ∧
        (∀ b ∈ before, source.Resolves (.measure b)) ∧
        (takenKeys dimensions taken calculated ++ before.filterMap MeasureRequest.key?).Nodup)
        requests := by
  induction requests generalizing taken calculated with
  | nil => simp [selectMeasures, not_met_nil]
  | cons m requests ih =>
      rw [met_cons]
      cases hm : source.resolveMeasure m with
      | error e =>
          have hresolves : ¬source.Resolves (.measure m) := by
            rw [← exists_resolveMeasure_iff]
            simp [hm]
          simp [selectMeasures, ← resolveMeasure_eq_invalidField_iff, hm, hresolves, htaken, Met]
      | ok r =>
          have hresolves : source.Resolves (.measure m) := exists_resolveMeasure_iff.1 ⟨r, hm⟩
          have hknown : ¬source.Unknown text (.measure m) := not_unknown_of_resolveMeasure hm
          have hkey := key_of_resolveMeasure hm
          rw [selectMeasures_cons hm]
          by_cases hfresh : r.key ∈ takenKeys dimensions taken calculated
          · have hdup (before : List String) :
                ¬(takenKeys dimensions taken calculated ++ r.key :: before).Nodup := fun h =>
              not_mem_of_nodup_append_cons h hfresh
            simp [claimKey_of_mem hfresh, hknown, hdup, hkey, Met]
          · have hkeys := takenKeys_select dimensions taken calculated taken.length r
            have hmore (more : List String) := (hkeys.append_right more).nodup_iff
            rw [claimKey_eq_ok_iff.2 hfresh, ok_bind,
              ih (hkeys.nodup_iff.2 (nodup_append_singleton htaken hfresh))]
            simp only [hmore]
            simp [hknown, hresolves, hkey]

end selectMeasures

/-! ## Requests -/

theorem usable_parts_iff {dimensions : List String} {requests : List MeasureRequest} :
    source.Usable (dimensions.map .dimension ++ requests.map .measure) ↔
      (∀ key ∈ dimensions, source.dimensions.contains key = true) ∧
      (∀ m ∈ requests, source.Resolves (.measure m)) ∧
      (dimensions ++ requests.filterMap MeasureRequest.key?).Nodup := by
  have hkeys : (dimensions.map Requested.dimension ++ requests.map Requested.measure).filterMap
      Requested.key? = dimensions ++ requests.filterMap MeasureRequest.key? := by
    rw [List.filterMap_append, List.filterMap_map, List.filterMap_map]
    congr 1
    exact List.filterMap_some
  simp [Usable, hkeys, or_imp, forall_and, Resolves, and_assoc]

theorem sortOrders_ne_invalidField (columns measures : List SelectedColumn) (sort : Option SortKey) :
    sortOrders columns measures sort ≠ .error (.invalidField text) := by
  cases sort with
  | none => cases measures <;> simp [sortOrders]
  | some sort =>
      rw [sortOrders]
      cases columns.find? fun c => c.key == sort.field <;> simp

/-- A dimension is met in front of every measure. -/
theorem met_stumbles_iff : Met (source.Stumbles text) request.parts ↔
    source.selectDimensions [] request.dimensions = .error (.invalidField text) ∨
    (∀ key ∈ request.dimensions, source.dimensions.contains key = true) ∧ request.dimensions.Nodup ∧
      source.selectMeasures request.dimensions [] [] request.measures = .error (.invalidField text) := by
  have husable (before : List String) : source.Usable (before.map .dimension) ↔
      (∀ k ∈ before, source.dimensions.contains k = true) ∧ before.Nodup := by
    have h : source.Usable (before.map .dimension ++ [].map .measure) ↔ _ := usable_parts_iff
    simpa using h
  rw [Request.parts, met_append, met_map, met_map]
  refine or_congr ?_ ?_
  · rw [selectDimensions_eq_invalidField_iff (by simp)]
    refine met_congr fun before key => ?_
    rw [Stumbles, husable]
    simp
  · by_cases hdimensions : source.Usable (request.dimensions.map .dimension)
    · obtain ⟨hknown, hnodup⟩ := (husable _).1 hdimensions
      have hnil : takenKeys request.dimensions [] [] = request.dimensions := by simp [takenKeys]
      rw [selectMeasures_eq_invalidField_iff (by rwa [hnil]), hnil]
      simp only [hnodup, true_and, iff_true_intro hknown]
      refine met_congr fun before m => ?_
      rw [Stumbles, usable_parts_iff]
      simp [iff_true_intro hknown]
    · have hnone : ¬((∀ k ∈ request.dimensions, source.dimensions.contains k = true) ∧
          request.dimensions.Nodup) := fun h => hdimensions ((husable _).2 h)
      rw [← and_assoc, iff_false_intro hnone, false_and]
      simp only [iff_false]
      rintro ⟨before, m, behind, -, -, hbefore⟩
      exact hdimensions ((husable _).2 (by
        obtain ⟨hknown, -, hnodup⟩ := usable_parts_iff.1 hbefore
        exact ⟨hknown, (List.nodup_append.1 hnodup).1⟩))

theorem plan_eq_invalidField_iff (limits : QueryLimits) :
    source.plan limits request = .error (.invalidField text) ↔
      Met (source.Stumbles text) request.parts := by
  rw [met_stumbles_iff]
  unfold Source.plan
  by_cases hempty : (request.dimensions.isEmpty && request.measures.isEmpty) = true
  · obtain ⟨hd, hm⟩ : request.dimensions = [] ∧ request.measures = [] := by simpa using hempty
    rw [if_pos hempty, throw_bind]
    simp [hd, hm, selectDimensions, selectMeasures]
  · rw [if_neg hempty]
    constructor
    · intro h
      rcases bind_eq_error_iff.1 h with h | ⟨dimensions, hdimensions, h⟩
      · exact .inl h
      obtain ⟨hknown, hdistinct, rfl⟩ := (selectDimensions_eq_ok_iff (by simp)).1 hdimensions
      simp only [List.nil_append, List.length_nil, List.map_nil] at hdistinct h
      rw [map_key_dimensionColumns hknown] at h
      rcases bind_eq_error_iff.1 h with h | ⟨⟨measures, calculated⟩, -, h⟩
      · exact .inr ⟨hknown, hdistinct, h⟩
      dsimp only at h
      split at h
      · rw [throw_bind] at h
        simp at h
      · rcases bind_eq_error_iff.1 h with h | ⟨orders, -, h⟩
        · exact absurd h (sortOrders_ne_invalidField _ _ _)
        · simp [pure, Except.pure] at h
    · rintro (h | ⟨hknown, hnodup, h⟩)
      · rw [h, error_bind]
      · have hdimensions : source.selectDimensions [] request.dimensions =
            .ok (source.dimensionColumns 0 request.dimensions) :=
          (selectDimensions_eq_ok_iff (by simp)).2 ⟨hknown, by simpa using hnodup, by simp⟩
        rw [hdimensions, ok_bind, map_key_dimensionColumns hknown, h, error_bind]

/-! ## Refusals -/

/-- Whether all failures of a computation are about the request. -/
def Refusing {α : Type} (x : Except Failure α) : Prop :=
  ∀ e, x = .error e → (∃ text, e = .invalidField text) ∨ ∃ text, e = .validation text

theorem refusing_bind {α β : Type} {x : Except Failure α} {f : α → Except Failure β}
    (hx : Refusing x) (hf : ∀ a, Refusing (f a)) : Refusing (x >>= f) := by
  intro e h
  rcases bind_eq_error_iff.1 h with h | ⟨a, -, h⟩
  · exact hx e h
  · exact hf a e h

@[simp] theorem refusing_ok {α : Type} (a : α) : Refusing (.ok a) := by
  simp [Refusing]

@[simp] theorem refusing_pure {α : Type} (a : α) : Refusing (pure a) := refusing_ok a

@[simp] theorem refusing_validation {α : Type} (text : String) :
    Refusing (.error (.validation text) : Except Failure α) := by
  simp [Refusing]

@[simp] theorem refusing_invalidField {α : Type} (text : String) :
    Refusing (.error (.invalidField text) : Except Failure α) := by
  simp [Refusing]

theorem refusing_claimKey (taken : List String) (key : String) : Refusing (claimKey taken key) := by
  unfold claimKey
  split <;> simp

theorem refusing_resolveMeasure (m : MeasureRequest) : Refusing (source.resolveMeasure m) := by
  unfold resolveMeasure
  split
  · dsimp only
    split <;> simp
  · split
    · simp
    · split <;> simp

theorem refusing_selectDimensions (taken : List SelectedColumn) (keys : List String) :
    Refusing (source.selectDimensions taken keys) := by
  induction keys generalizing taken with
  | nil => simp [selectDimensions]
  | cons key keys ih =>
      unfold selectDimensions
      split
      · simp
      · exact refusing_bind (refusing_claimKey _ _) fun _ => ih _

theorem refusing_selectMeasures (dimensions : List String) (taken : List SelectedColumn)
    (calculated : List CalculatedColumn) (requests : List MeasureRequest) :
    Refusing (source.selectMeasures dimensions taken calculated requests) := by
  induction requests generalizing taken calculated with
  | nil => simp [selectMeasures]
  | cons m requests ih =>
      unfold selectMeasures
      refine refusing_bind (refusing_resolveMeasure m) fun r => ?_
      refine refusing_bind (refusing_claimKey _ _) fun _ => ?_
      cases r with
      | aggregate key measure aggregation => exact ih _ _
      | calculated column => exact ih _ _

theorem refusing_sortOrders (columns measures : List SelectedColumn) (sort : Option SortKey) :
    Refusing (sortOrders columns measures sort) := by
  unfold sortOrders
  split
  · split <;> simp
  · split <;> simp

theorem refusing_plan : Refusing (source.plan limits request) := by
  unfold Source.plan
  split
  · rw [throw_bind]
    simp
  · refine refusing_bind (refusing_selectDimensions _ _) fun dimensions => ?_
    refine refusing_bind (refusing_selectMeasures _ _ _ _) fun ⟨measures, calculated⟩ => ?_
    dsimp only
    split
    · rw [throw_bind]
      simp
    · exact refusing_bind (refusing_sortOrders _ _ _) fun orders => refusing_pure _

theorem refusing_compile : Refusing (source.compile limits db request) :=
  refusing_bind refusing_plan fun _ => refusing_pure _

/-! ## Requests that compile -/

variable {resolved : List ResolvedMeasure} {orders : List Select.Order}

theorem map_key_of_resolves
    (h : List.Forall₂ (fun m r => source.resolveMeasure m = .ok r) request.measures resolved) :
    request.measures.filterMap MeasureRequest.key? = resolved.map ResolvedMeasure.key := by
  rw [filterMap_eq_of_forall₂ (g := some ∘ ResolvedMeasure.key) h fun _ _ => key_of_resolveMeasure,
    List.filterMap_eq_map]

theorem exists_sortOrders_iff {columns measures : List SelectedColumn} {sort : Option SortKey} :
    (∃ orders, sortOrders columns measures sort = .ok orders) ↔
      ∀ s, sort = some s → s.field ∈ columns.map SelectedColumn.key := by
  cases sort with
  | none => cases measures <;> simp [sortOrders]
  | some sort =>
      rw [sortOrders]
      cases hfind : columns.find? fun c => c.key == sort.field with
      | none =>
          have hnone : ∀ c ∈ columns, c.key ≠ sort.field := by simpa using hfind
          simpa using hnone
      | some c =>
          have hkey : c.key = sort.field := by simpa using List.find?_some hfind
          have hmem : ∃ c ∈ columns, c.key = sort.field :=
            ⟨c, List.mem_of_find?_eq_some hfind, hkey⟩
          simpa using hmem

theorem answeredKeys_ne_nil_iff (h : ∀ m ∈ request.measures, source.Resolves (.measure m)) :
    request.answeredKeys ≠ [] ↔
      request.dimensions ≠ [] ∨ ∃ m ∈ request.measures, m.kind = .aggregate := by
  have hkey : ∀ m ∈ request.measures,
      (∃ key, m.aggregateKey? = some key) ↔ m.kind = .aggregate := by
    intro m hm
    have hresolves := h m hm
    unfold MeasureRequest.aggregateKey?
    cases hkind : m.kind with
    | calculated => simp
    | aggregate =>
        obtain ⟨field, hfield, -⟩ := (resolves_aggregate hkind).1 hresolves
        cases halias : m.aliasName <;> simp [MeasureRequest.key?, hfield, halias]
  rw [Request.answeredKeys, Ne, List.append_eq_nil_iff, not_and_or, ← Ne]
  refine or_congr_right ?_
  constructor
  · intro hkeys
    obtain ⟨key, hmem⟩ := List.exists_mem_of_ne_nil _ hkeys
    obtain ⟨m, hm, hmkey⟩ := List.mem_filterMap.1 hmem
    exact ⟨m, hm, (hkey m hm).1 ⟨key, hmkey⟩⟩
  · rintro ⟨m, hm, hkind⟩
    obtain ⟨key, hmkey⟩ := (hkey m hm).2 hkind
    exact List.ne_nil_of_mem (List.mem_filterMap.2 ⟨m, hm, hmkey⟩)

theorem exists_compiles_iff :
    (∃ resolved orders, source.Compiles request resolved orders) ↔ request.Valid source := by
  constructor
  · rintro ⟨resolved, orders, h⟩
    have hresolves : ∀ m ∈ request.measures, source.Resolves (.measure m) := fun m hm =>
      exists_resolveMeasure_iff.1 (exists_forall₂_iff.1 ⟨resolved, h.resolves⟩ m hm)
    refine ⟨usable_parts_iff.2 ⟨h.known, hresolves, ?_⟩, ?_, ?_⟩
    · rw [map_key_of_resolves h.resolves]
      exact h.distinct
    · rw [← answeredKeys_ne_nil_iff hresolves, ← h.map_key]
      simpa using h.selects
    · rw [← h.map_key]
      exact exists_sortOrders_iff.1 ⟨orders, h.sorts⟩
  · intro h
    obtain ⟨hknown, hresolves, hdistinct⟩ := usable_parts_iff.1 h.usable
    obtain ⟨resolved, hresolved⟩ := exists_forall₂_iff.2 fun m hm =>
      exists_resolveMeasure_iff.2 (hresolves m hm)
    rw [map_key_of_resolves hresolved] at hdistinct
    have hkeys := map_key_requestColumns hknown hresolved
    have hselects := (answeredKeys_ne_nil_iff hresolves).2 h.selects
    rw [← hkeys] at hselects
    have hsorts := h.sorts
    rw [← hkeys] at hsorts
    obtain ⟨orders, horders⟩ := exists_sortOrders_iff.2 hsorts
    exact ⟨resolved, orders, hknown, hresolved, hdistinct, by simpa using hselects, horders⟩

theorem compile_verdict (source : Source) (limits : QueryLimits) (db : Database) (request : Request) :
    ((∃ compiled, source.compile limits db request = .ok compiled) ↔ request.Valid source) ∧
    (∀ text, source.compile limits db request = .error (.invalidField text) ↔
      Met (source.Stumbles text) request.parts) ∧
    ((∃ text, source.compile limits db request = .error (.validation text)) ↔
      ¬request.Valid source ∧ ∀ text, ¬Met (source.Stumbles text) request.parts) := by
  have haccepts : (∃ compiled, source.compile limits db request = .ok compiled) ↔
      request.Valid source := by
    rw [← exists_compiles_iff]
    constructor
    · rintro ⟨compiled, h⟩
      obtain ⟨resolved, orders, h, -⟩ := compile_eq_ok_iff.1 h
      exact ⟨resolved, orders, h⟩
    · rintro ⟨resolved, orders, h⟩
      exact ⟨_, compile_eq_ok_iff.2 ⟨resolved, orders, h, rfl⟩⟩
  have hinvalid (text : String) : source.compile limits db request = .error (.invalidField text) ↔
      Met (source.Stumbles text) request.parts := by
    rw [← plan_eq_invalidField_iff limits, compile, bind_eq_error_iff]
    simp [pure, Except.pure]
  refine ⟨haccepts, hinvalid, ?_⟩
  rw [← haccepts]
  simp only [← hinvalid]
  constructor
  · rintro ⟨text, h⟩
    simp [h]
  · rintro ⟨hrejects, hother⟩
    cases hcompile : source.compile limits db request with
    | ok compiled => exact absurd ⟨compiled, hcompile⟩ hrejects
    | error e =>
        rcases refusing_compile e hcompile with ⟨text, rfl⟩ | ⟨text, rfl⟩
        · exact absurd hcompile (hother text)
        · exact ⟨text, rfl⟩

end Source

end SemanticLayer
