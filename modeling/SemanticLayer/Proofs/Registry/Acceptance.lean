import Mathlib.Data.List.Chain
import Mathlib.Data.List.DropRight
import SemanticLayer.Proofs.Registry.Circles
/-!
Which lists of sources make a registry and which registry they make. The search for a circle among
the joins of a source is compared with one that has no bound on its depth.
-/
namespace SemanticLayer.Source

open Relation

/-- What a join requires. One that does not exist requires nothing. -/
def requirements (source : Source) (name : String) : List String :=
  match source.joins.get? name with
  | some clause => clause.requires
  | none => []

/-- The failure that reports a walk along requirements. -/
def circleFailure (source : Source) (walk : List String) : Failure :=
  .schema ("source " ++ source.name ++ ": cyclic join requirements " ++ String.intercalate " -> " walk)

/-- What it comes to when the requirements of `names` are followed one after another, as deep as they
lead: `path` leads there, and the joins in `done` have been left again. -/
inductive Searches (source : Source) :
    List String → List String → List String → Except Failure (List String) → Prop where
  | nil {path done : List String} : Searches source path [] done (.ok done)
  | known {path names done : List String} {name : String} {result : Except Failure (List String)}
      (hdone : name ∈ done) (hrest : Searches source path names done result) :
      Searches source path (name :: names) done result
  | circle {path names done : List String} {name : String} (hnew : name ∉ done) (hpath : name ∈ path) :
      Searches source path (name :: names) done (.error (source.circleFailure (path ++ [name])))
  | refused {path names done : List String} {name : String} {f : Failure} (hnew : name ∉ done)
      (hpath : name ∉ path)
      (hinside : Searches source (path ++ [name]) (source.requirements name) done (.error f)) :
      Searches source path (name :: names) done (.error f)
  | left {path names done inside : List String} {name : String} {result : Except Failure (List String)}
      (hnew : name ∉ done) (hpath : name ∉ path)
      (hinside : Searches source (path ++ [name]) (source.requirements name) done (.ok inside))
      (hrest : Searches source path names (name :: inside) result) :
      Searches source path (name :: names) done result

/-- A walk along requirements that ends at a join it has met before. -/
structure Closes (source : Source) (walk : List String) (last : String) : Prop where
  steps : (walk ++ [last]).IsChain source.Requires
  met : last ∈ walk

/-- A source that has a table and all the joins it names. -/
structure Complete (source : Source) : Prop where
  table : ∃ c ∈ source.table.toList, Text.isBlank c = false
  dimensions : ∀ key d name, source.dimensions.get? key = some d → d.join = some name →
    source.joins.contains name
  measures : ∀ key m name, source.measures.get? key = some m → m.join = some name →
    source.joins.contains name
  filters : ∀ key c name, source.filterColumns.get? key = some c → c.join = some name →
    source.joins.contains name
  requires : ∀ a b, source.Requires a b → source.joins.contains b

/-- A complete source of which no join requires itself, in one step or in more. -/
structure WellFormed (source : Source) : Prop extends source.Complete where
  acyclic : ∀ name, ¬source.Circular name

variable {source : Source} {path names done : List String} {name : String}

/-! ## The search for circles -/

theorem mem_requirements {a b : String} : b ∈ source.requirements a ↔ source.Requires a b := by
  unfold requirements Requires
  cases source.joins.get? a <;> simp

theorem checkCircles_succ {steps : Nat} :
    source.checkCircles (steps + 1) path done name =
      if done.contains name then .ok done
      else if path.contains name then .error (source.circleFailure (path ++ [name]))
      else (source.requirements name).foldlM (source.checkCircles steps (path ++ [name])) done >>=
        fun inside => pure (name :: inside) :=
  rfl

/-- The search that is bounded by the number of joins does what the one without a bound does. -/
theorem searches_foldlM {steps : Nat} (hsteps : source.joins.size < steps + path.length)
    (hdistinct : path.Nodup) (hknown : ∀ p ∈ path, source.joins.contains p) :
    source.Searches path names done (names.foldlM (source.checkCircles steps path) done) := by
  -- the steps bound how deep a search goes, the names how broad: one induction inside the other
  induction steps generalizing path names done with
  | zero =>
      have := length_pending_le hdistinct hknown
      omega
  | succ steps ih =>
      have hinside (name : String) (hpath : name ∉ path) (done : List String) :
          source.Searches (path ++ [name]) (source.requirements name) done
            ((source.requirements name).foldlM (source.checkCircles steps (path ++ [name])) done) := by
        -- a name without a clause requires nothing, so that a path goes on behind known joins only
        cases hclause : source.joins.get? name with
        | none =>
            have hnone : source.requirements name = [] := by simp [requirements, hclause]
            rw [hnone]
            exact .nil
        | some clause =>
            refine ih ?_ ?_ ?_
            · rw [List.length_append, List.length_singleton]
              omega
            · simpa [List.nodup_append] using ⟨hdistinct, fun a ha heq => hpath (heq ▸ ha)⟩
            · intro p hp
              rcases List.mem_append.1 hp with hp | hp
              · exact hknown p hp
              · rw [List.mem_singleton.1 hp]
                exact Dictionary.contains_iff.2 ⟨clause, hclause⟩
      induction names generalizing done with
      | nil => exact .nil
      | cons name names ihnames =>
          rw [List.foldlM_cons, checkCircles_succ]
          by_cases hdone : name ∈ done
          · rw [if_pos (by simpa using hdone), ok_bind]
            exact .known hdone ihnames
          rw [if_neg (by simpa using hdone)]
          by_cases hpath : name ∈ path
          · rw [if_pos (by simpa using hpath)]
            exact .circle hdone hpath
          rw [if_neg (by simpa using hpath)]
          have hfollowed := hinside name hpath done
          revert hfollowed
          cases (source.requirements name).foldlM (source.checkCircles steps (path ++ [name])) done with
          | error f => exact fun hfollowed => .refused hdone hpath hfollowed
          | ok inside => exact fun hfollowed => .left hdone hpath hfollowed ihnames

theorem Searches.unique {result result' : Except Failure (List String)}
    (h : source.Searches path names done result) (h' : source.Searches path names done result') :
    result = result' := by
  induction h generalizing result' with
  | nil =>
      cases h'
      rfl
  | known hdone _ ih =>
      cases h' with
      | known _ hrest => exact ih hrest
      | circle hnew _ => exact absurd hdone hnew
      | refused hnew _ _ => exact absurd hdone hnew
      | left hnew _ _ _ => exact absurd hdone hnew
  | circle hnew hpath =>
      cases h' with
      | known hdone _ => exact absurd hdone hnew
      | circle _ _ => rfl
      | refused _ hoff _ => exact absurd hpath hoff
      | left _ hoff _ _ => exact absurd hpath hoff
  | refused hnew hpath _ ih =>
      cases h' with
      | known hdone _ => exact absurd hdone hnew
      | circle _ hmet => exact absurd hmet hpath
      | refused _ _ hinside => exact ih hinside
      | left _ _ hinside _ => exact absurd (ih hinside) (by simp)
  | left hnew hpath _ _ ih ihrest =>
      cases h' with
      | known hdone _ => exact absurd hdone hnew
      | circle _ hmet => exact absurd hmet hpath
      | refused _ _ hinside => exact absurd (ih hinside) (by simp)
      | left _ _ hinside hrest =>
          obtain rfl := Except.ok.inj (ih hinside)
          exact ihrest hrest

/-- A refusal reports a walk that closes a circle. -/
theorem Searches.closes {f : Failure} (h : source.Searches path names done (.error f))
    (hwalk : ∀ name ∈ names, (path ++ [name]).IsChain source.Requires) :
    ∃ walk last, source.Closes walk last ∧ f = source.circleFailure (walk ++ [last]) := by
  generalize hresult : (Except.error f : Except Failure (List String)) = result at h
  induction h with
  | nil => cases hresult
  | known _ _ ih => exact ih (fun name hname => hwalk name (List.mem_cons_of_mem _ hname)) hresult
  | @circle path names done name _ hpath =>
      cases hresult
      exact ⟨path, name, ⟨hwalk name List.mem_cons_self, hpath⟩, rfl⟩
  | @refused path names done name f' _ _ _ ih =>
      refine ih ?_ hresult
      intro b hb
      rw [List.isChain_append]
      refine ⟨hwalk name List.mem_cons_self, List.isChain_singleton b, ?_⟩
      simpa using mem_requirements.1 hb
  | left _ _ _ _ _ ih => exact ih (fun name hname => hwalk name (List.mem_cons_of_mem _ hname)) hresult

theorem transGen_of_isChain {α : Type} {r : α → α → Prop} {a b : α} {between : List α}
    (h : (a :: between ++ [b]).IsChain r) : TransGen r a b := by
  induction between generalizing a with
  | nil => exact TransGen.single (by simpa using h)
  | cons c between ih =>
      rw [List.cons_append, List.cons_append, List.isChain_cons_cons] at h
      exact TransGen.head h.1 (ih h.2)

theorem Closes.circular {walk : List String} {last : String} (h : source.Closes walk last) :
    source.Circular last := by
  obtain ⟨front, back, rfl⟩ := List.append_of_mem h.met
  have hwalk := h.steps
  rw [List.append_assoc, List.isChain_append] at hwalk
  exact transGen_of_isChain hwalk.2.1

/-! ## The checks of a source -/

theorem trim_eq_nil_iff {s : List Char} : Text.trim s = [] ↔ ∀ c ∈ s, Text.isBlank c = true := by
  unfold Text.trim Text.trimRight Text.trimLeft
  rw [List.reverse_eq_nil_iff, List.dropWhile_eq_nil_iff]
  constructor
  · intro h c hc
    rw [← List.takeWhile_append_dropWhile (p := Text.isBlank) (l := s), List.mem_append] at hc
    rcases hc with hc | hc
    · exact List.mem_takeWhile_imp hc
    · exact h c (List.mem_reverse.2 hc)
  · intro h c hc
    exact h c ((List.dropWhile_sublist _).subset (List.mem_reverse.1 hc))

theorem isEmpty_trimmed_eq_false_iff {s : String} :
    (Text.trimmed s).isEmpty = false ↔ ∃ c ∈ s.toList, Text.isBlank c = false := by
  rw [Bool.eq_false_iff, Ne, String.isEmpty_iff, ← String.toList_inj]
  unfold Text.trimmed
  rw [String.toList_ofList, String.toList_empty, trim_eq_nil_iff]
  simp

theorem complete_iff :
    source.Complete ↔
      (Text.trimmed source.table).isEmpty = false ∧
      (∀ e ∈ source.dimensions.entries, ∀ name, e.2.join = some name → source.joins.contains name) ∧
      (∀ e ∈ source.measures.entries, ∀ name, e.2.join = some name → source.joins.contains name) ∧
      (∀ e ∈ source.filterColumns.entries, ∀ name, e.2.join = some name → source.joins.contains name) ∧
      ∀ e ∈ source.joins.entries, ∀ r ∈ e.2.requires, source.joins.contains r := by
  rw [isEmpty_trimmed_eq_false_iff]
  simp only [← Dictionary.get?_eq_some_iff, Prod.forall]
  constructor
  · rintro ⟨htable, hdimensions, hmeasures, hfilters, hrequires⟩
    refine ⟨htable, ?_, ?_, ?_, ?_⟩
    · exact fun key d hd name => hdimensions key d name hd
    · exact fun key m hm name => hmeasures key m name hm
    · exact fun key c hc name => hfilters key c name hc
    · exact fun a clause hclause b hb => hrequires a b ⟨clause, hclause, hb⟩
  · rintro ⟨htable, hdimensions, hmeasures, hfilters, hrequires⟩
    refine ⟨htable, ?_, ?_, ?_, ?_⟩
    · exact fun key d name hd => hdimensions key d hd name
    · exact fun key m name hm => hmeasures key m hm name
    · exact fun key c name hc => hfilters key c hc name
    · rintro a b ⟨clause, hclause, hb⟩
      exact hrequires a clause hclause b hb

theorem validate_eq_ok_iff_complete :
    source.validate = .ok () ↔ source.Complete ∧
      ∃ done, source.joins.keys.foldlM (source.checkCircles (source.joins.size + 2) []) [] = .ok done := by
  rw [validate_eq_ok_iff, complete_iff]
  simp only [and_assoc]

theorem searches_keys (source : Source) :
    source.Searches [] source.joins.keys []
      (source.joins.keys.foldlM (source.checkCircles (source.joins.size + 2) []) []) :=
  searches_foldlM (by simp) List.nodup_nil (by simp)

theorem validate_of_complete (h : source.Complete) :
    source.validate =
      (source.joins.keys.foldlM (source.checkCircles (source.joins.size + 2) []) [] >>= fun _ => pure ()) := by
  obtain ⟨htable, hdimensions, hmeasures, hfilters, hrequires⟩ := complete_iff.1 h
  have hreferences {α : Type} {owner : String} {join : α → Option String} {d : Dictionary α}
      (h : ∀ e ∈ d.entries, ∀ name, join e.2 = some name → source.joins.contains name) :
      (forM d.entries fun e => source.checkReference owner e.1 (join e.2)) = .ok () :=
    forM_eq_ok_iff.2 fun e he => checkReference_eq_ok_iff.2 (h e he)
  have hrequirements :
      (forM source.joins.entries fun e => forM e.2.requires (source.checkRequirement e.1)) = .ok () :=
    forM_eq_ok_iff.2 fun e he =>
      forM_eq_ok_iff.2 fun r hr => checkRequirement_eq_ok_iff.2 (hrequires e he r hr)
  unfold validate
  rw [if_neg (by simp [htable])]
  simp only [List.forM_eq_forM, hreferences hdimensions, hreferences hmeasures, hreferences hfilters,
    hrequirements, ok_bind]

/-- Of a complete source only circles can be refused. -/
theorem closes_of_validate {f : Failure} (hcomplete : source.Complete) (h : source.validate = .error f) :
    ∃ walk last, source.Closes walk last ∧ f = source.circleFailure (walk ++ [last]) := by
  rw [validate_of_complete hcomplete, bind_eq_error_iff] at h
  rcases h with h | ⟨_, _, h⟩
  · have hsearch := source.searches_keys
    rw [h] at hsearch
    exact hsearch.closes (by simp)
  · cases h

theorem validate_eq_ok_iff_wellFormed : source.validate = .ok () ↔ source.WellFormed := by
  constructor
  · intro h
    exact ⟨(validate_eq_ok_iff_complete.1 h).1, (validate_sound h).acyclic⟩
  · intro h
    cases hresult : source.validate with
    | ok _ => rfl
    | error f =>
        obtain ⟨walk, last, hcloses, -⟩ := closes_of_validate h.toComplete hresult
        exact absurd hcloses.circular (h.acyclic last)

end SemanticLayer.Source

namespace SemanticLayer.Registry

open Source

variable {r r' start : Registry} {source : Source} {sources : List Source}

theorem ext_get? (h : ∀ name source, r.get? name = some source ↔ r'.get? name = some source) : r = r' := by
  cases r
  cases r'
  exact congrArg Registry.mk (Dictionary.ext_get? h)

def added (r : Registry) (source : Source) : Registry :=
  ⟨r.sources.insert source.name source⟩

theorem get?_added {name : String} :
    (r.added source).get? name = if name = source.name then some source else r.get? name :=
  Dictionary.get?_insert

theorem get?_added_eq_none_iff {name : String} :
    (r.added source).get? name = none ↔ name ≠ source.name ∧ r.get? name = none := by
  rw [get?_added]
  split <;> simp_all

theorem get?_added_eq_some_iff {name : String} {s : Source} (hfree : r.get? source.name = none) :
    (r.added source).get? name = some s ↔ r.get? name = some s ∨ s = source ∧ s.name = name := by
  rw [get?_added]
  by_cases hname : name = source.name
  · subst hname
    rw [if_pos rfl, hfree]
    constructor
    · intro h
      exact .inr ⟨(Option.some.inj h).symm, by rw [Option.some.inj h]⟩
    · rintro (h | ⟨rfl, -⟩)
      · cases h
      · rfl
  · rw [if_neg hname]
    constructor
    · exact Or.inl
    · rintro (h | ⟨rfl, h⟩)
      · exact h
      · exact absurd h.symm hname

theorem insert_eq_ok_iff :
    r.insert source = .ok r' ↔ source.WellFormed ∧ r.get? source.name = none ∧ r' = r.added source := by
  unfold insert get? added
  rw [bind_unit_eq_ok_iff, validate_eq_ok_iff_wellFormed]
  cases hold : r.sources.get? source.name with
  | none =>
      rw [if_neg (by simp [Dictionary.contains, hold]), pure_eq_ok_iff]
      simp [eq_comm]
  | some old => simp [Dictionary.contains, hold]

/-- What the sources of a list make of a registry, whatever their order. -/
theorem foldlM_insert_eq_ok_iff :
    sources.foldlM insert start = .ok r ↔
      (∀ s ∈ sources, s.WellFormed) ∧ (sources.map Source.name).Nodup ∧
      (∀ s ∈ sources, start.get? s.name = none) ∧
      ∀ name s, r.get? name = some s ↔ start.get? name = some s ∨ s ∈ sources ∧ s.name = name := by
  induction sources generalizing start with
  | nil =>
      constructor
      · intro h
        obtain rfl : start = r := by simpa using h
        simp
      · intro h
        -- without sources the two registries answer every name alike
        obtain rfl : start = r := ext_get? fun name s => by simp [h.2.2.2 name s]
        rfl
  | cons source sources ih =>
      rw [List.foldlM_cons, bind_eq_ok_iff]
      simp only [insert_eq_ok_iff, List.map_cons, List.nodup_cons, List.forall_mem_cons]
      constructor
      · rintro ⟨next, ⟨hformed, hfree, rfl⟩, hrest⟩
        obtain ⟨hall, hnodup, hnew, hcontent⟩ := ih.1 hrest
        simp only [get?_added_eq_none_iff] at hnew
        refine ⟨⟨hformed, hall⟩, ⟨?_, hnodup⟩, ⟨hfree, fun s hs => (hnew s hs).2⟩, ?_⟩
        · rw [List.mem_map]
          rintro ⟨s, hs, hname⟩
          exact (hnew s hs).1 hname
        · intro name s
          rw [hcontent, get?_added_eq_some_iff hfree, List.mem_cons, or_assoc, ← or_and_right]
      · rintro ⟨⟨hformed, hall⟩, ⟨hname, hnodup⟩, ⟨hfree, hnew⟩, hcontent⟩
        refine ⟨start.added source, ⟨hformed, hfree, rfl⟩, ih.2 ⟨hall, hnodup, ?_, ?_⟩⟩
        · intro s hs
          refine get?_added_eq_none_iff.2 ⟨?_, hnew s hs⟩
          intro heq
          exact hname (List.mem_map.2 ⟨s, hs, heq⟩)
        · intro name s
          rw [hcontent, get?_added_eq_some_iff hfree, List.mem_cons, or_assoc, ← or_and_right]

theorem ofSources_eq_ok_iff :
    ofSources sources = .ok r ↔
      (∀ s ∈ sources, s.WellFormed) ∧ (sources.map Source.name).Nodup ∧
      ∀ name s, r.get? name = some s ↔ s ∈ sources ∧ s.name = name := by
  have hempty (name : String) : empty.get? name = none := rfl
  unfold ofSources
  rw [foldlM_insert_eq_ok_iff]
  simp [hempty]

/-- A source under a name that is free is refused for its own sake only. -/
theorem insert_eq_error_iff {f : Failure} (hfree : r.get? source.name = none) :
    r.insert source = .error f ↔ source.validate = .error f := by
  unfold get? at hfree
  unfold insert
  rw [bind_eq_error_iff, if_neg (by simp [Dictionary.contains, hfree])]
  simp [pure, Except.pure]

/-- Where no name comes twice, the failure is that of a source. -/
theorem validate_of_foldlM_insert {f : Failure} (hnodup : (sources.map Source.name).Nodup)
    (hnew : ∀ s ∈ sources, start.get? s.name = none) (h : sources.foldlM insert start = .error f) :
    ∃ s ∈ sources, s.validate = .error f := by
  induction sources generalizing start with
  | nil => cases h
  | cons source sources ih =>
      rw [List.map_cons, List.nodup_cons] at hnodup
      rw [List.forall_mem_cons] at hnew
      rw [List.foldlM_cons, bind_eq_error_iff] at h
      rcases h with h | ⟨next, hinsert, hrest⟩
      · exact ⟨source, List.mem_cons_self, (insert_eq_error_iff hnew.1).1 h⟩
      · obtain ⟨-, -, rfl⟩ := insert_eq_ok_iff.1 hinsert
        have hleft : ∀ s ∈ sources, (start.added source).get? s.name = none := by
          intro s hs
          refine get?_added_eq_none_iff.2 ⟨?_, hnew.2 s hs⟩
          intro heq
          exact hnodup.1 (List.mem_map.2 ⟨s, hs, heq⟩)
        obtain ⟨s, hs, hvalidate⟩ := ih hnodup.2 hleft hrest
        exact ⟨s, List.mem_cons_of_mem _ hs, hvalidate⟩

theorem exists_ofSources_iff :
    (∃ r, ofSources sources = .ok r) ↔ (sources.map Source.name).Nodup ∧ ∀ s ∈ sources, s.WellFormed := by
  constructor
  · rintro ⟨r, h⟩
    obtain ⟨hall, hnodup, -⟩ := ofSources_eq_ok_iff.1 h
    exact ⟨hnodup, hall⟩
  · rintro ⟨hnodup, hall⟩
    cases hresult : ofSources sources with
    | ok r => exact ⟨r, rfl⟩
    | error f =>
        obtain ⟨s, hs, hvalidate⟩ := validate_of_foldlM_insert hnodup (fun _ _ => rfl) hresult
        rw [validate_eq_ok_iff_wellFormed.2 (hall s hs)] at hvalidate
        cases hvalidate

/-- Where circles alone are wrong, a walk that closes one is reported. -/
theorem ofSources_eq_error (hnodup : (sources.map Source.name).Nodup) (hcomplete : ∀ s ∈ sources, s.Complete)
    {s : Source} (hs : s ∈ sources) {join : String} (hcircular : s.Circular join) :
    ∃ refused ∈ sources, ∃ walk last, refused.Closes walk last ∧
      ofSources sources = .error (refused.circleFailure (walk ++ [last])) := by
  cases hresult : ofSources sources with
  | ok r => exact absurd hcircular (((ofSources_eq_ok_iff.1 hresult).1 s hs).acyclic join)
  | error f =>
      obtain ⟨s, hs, hvalidate⟩ := validate_of_foldlM_insert hnodup (fun _ _ => rfl) hresult
      obtain ⟨walk, last, hcloses, rfl⟩ := closes_of_validate (hcomplete s hs) hvalidate
      exact ⟨s, hs, walk, last, hcloses, rfl⟩

/-- The sources that make a registry are those with a name of their own each, a table, all the joins
they name and none that requires itself. The registry has them all, in whatever order they come.
Where circles alone are wrong, the failure reports a walk along requirements that ends at a join it
has met before; and the search for one comes to an end on every source, with the same result as
without any bound. -/
theorem ofSources_accepts_iff (sources : List Source) :
    ((∃ r, ofSources sources = .ok r) ↔ (sources.map Source.name).Nodup ∧ ∀ s ∈ sources, s.WellFormed) ∧
    (∀ r, ofSources sources = .ok r → ∀ name s, r.get? name = some s ↔ s ∈ sources ∧ s.name = name) ∧
    (∀ sources' : List Source, sources'.Perm sources →
      ∀ r, ofSources sources' = .ok r ↔ ofSources sources = .ok r) ∧
    ((sources.map Source.name).Nodup → (∀ s ∈ sources, s.Complete) →
      ∀ s ∈ sources, ∀ join, s.Circular join → ∃ refused ∈ sources, ∃ walk last, refused.Closes walk last ∧
        ofSources sources = .error (refused.circleFailure (walk ++ [last]))) ∧
    ∀ (source : Source) (result : Except Failure (List String)),
      source.Searches [] source.joins.keys [] result ↔
        source.joins.keys.foldlM (source.checkCircles (source.joins.size + 2) []) [] = result := by
  refine ⟨exists_ofSources_iff, ?_, ?_, ?_, ?_⟩
  · intro r h
    exact (ofSources_eq_ok_iff.1 h).2.2
  · intro sources' hperm r
    rw [ofSources_eq_ok_iff, ofSources_eq_ok_iff, (hperm.map Source.name).nodup_iff]
    simp only [hperm.mem_iff]
  · intro hnodup hcomplete s hs join hcircular
    exact ofSources_eq_error hnodup hcomplete hs hcircular
  · intro source result
    constructor
    · exact fun h => source.searches_keys.unique h
    · rintro rfl
      exact source.searches_keys

/-- Orders whose regions and countries require each other. -/
def territories : Source where
  name := "territories"
  label := none
  table := "orders"
  aliasName := none
  connectionId := none
  dimensions := .ofList [("region", ⟨"r.name", none, some "regions"⟩)]
  measures := .empty
  joins := .ofList [("countries", ⟨"JOIN countries c ON c.id = r.country", ["regions"]⟩),
    ("regions", ⟨"JOIN regions r ON r.country = c.id", ["countries"]⟩)]
  filterColumns := .empty
  description := none

/-- The joins of `territories` are refused with a walk around their circle. -/
theorem ofSources_accepts_iff_territories :
    territories.Complete ∧ territories.Circular "regions" ∧
      ∃ s ∈ [territories], ∃ walk last, s.Closes walk last ∧
        ofSources [territories] = .error (s.circleFailure (walk ++ [last])) := by
  have hcomplete : territories.Complete := by
    refine complete_iff.2 ⟨?_, ?_, ?_, ?_, ?_⟩
    · rfl
    · decide
    · decide
    · decide
    · decide
  have hcircular : territories.Circular "regions" := by
    refine .head (b := "countries") ⟨_, rfl, ?_⟩ (.single ⟨_, rfl, ?_⟩)
    · decide
    · decide
  refine ⟨hcomplete, hcircular, ?_⟩
  exact (ofSources_accepts_iff [territories]).2.2.2.1 (by decide) (by simpa using hcomplete) territories
    List.mem_cons_self "regions" hcircular

end SemanticLayer.Registry
