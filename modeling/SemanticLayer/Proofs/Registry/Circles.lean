import SemanticLayer.Proofs.Checks
import SemanticLayer.Proofs.Joins.Resolution
import SemanticLayer.Registry.Basic
/-!
What a source that passes its checks promises: every join that is named exists, and no join requires
itself.
-/
namespace SemanticLayer.Source

open Relation

/-- Joins from which no circle can be reached: requirements do not lead out of them, and none of
them is circular. -/
structure Cleared (source : Source) (done : List String) : Prop where
  closed : ∀ a ∈ done, ∀ b, source.Requires a b → b ∈ done
  acyclic : ∀ a ∈ done, ¬source.Circular a

/-- What following the requirements of `names` does to the joins known to be without a circle, where
`path` leads there. -/
structure Clears (source : Source) (path names done done' : List String) : Prop where
  cleared : source.Cleared done'
  subset : done ⊆ done'
  complete : names ⊆ done'
  fresh : ∀ p ∈ path, p ∈ done' → p ∈ done

variable {source : Source} {path names done done' : List String}

theorem Cleared.reachable (h : source.Cleared done) {a b : String} (ha : a ∈ done)
    (hreach : ReflTransGen source.Requires a b) : b ∈ done := by
  induction hreach with
  | refl => exact ha
  | tail _ hrequires ih => exact h.closed _ ih _ hrequires

theorem clears_foldlM {follow : List String → String → Except Failure (List String)}
    (hfollow : ∀ n ∈ names, ∀ done done', source.Cleared done → follow done n = .ok done' →
      source.Clears path [n] done done')
    (hcleared : source.Cleared done) (hok : names.foldlM follow done = .ok done') :
    source.Clears path names done done' := by
  induction names generalizing done with
  | nil =>
      obtain rfl : done = done' := by simpa using hok
      exact ⟨hcleared, List.Subset.refl _, by simp, fun _ _ h => h⟩
  | cons n names ih =>
      rw [List.foldlM_cons, bind_eq_ok_iff] at hok
      obtain ⟨middle, hn, hnames⟩ := hok
      have hhead := hfollow n (by simp) done middle hcleared hn
      have htail := ih (fun m hm => hfollow m (List.mem_cons_of_mem _ hm)) hhead.cleared hnames
      refine ⟨htail.cleared, List.Subset.trans hhead.subset htail.subset, ?_, ?_⟩
      · exact List.cons_subset.2 ⟨htail.subset (hhead.complete (by simp)), htail.complete⟩
      · exact fun p hp h => hhead.fresh p hp (htail.fresh p hp h)

/-- A join may be added behind all that it requires. -/
theorem Cleared.cons {name : String} (h : source.Cleared done) (hname : name ∉ done)
    (hrequires : ∀ b, source.Requires name b → b ∈ done) : source.Cleared (name :: done) where
  closed := by
    intro a ha b hb
    rcases List.mem_cons.1 ha with rfl | ha
    · exact List.mem_cons_of_mem _ (hrequires b hb)
    · exact List.mem_cons_of_mem _ (h.closed a ha b hb)
  acyclic := by
    intro a ha hcircle
    rcases List.mem_cons.1 ha with rfl | ha
    · obtain ⟨b, hb, hback⟩ := TransGen.head'_iff.1 hcircle
      exact hname (h.reachable (hrequires b hb) hback)
    · exact h.acyclic a ha hcircle

theorem checkCircles_clears {steps : Nat} {name : String}
    (hsteps : source.joins.size < steps + path.length) (hdistinct : path.Nodup)
    (hknown : ∀ p ∈ path, source.joins.contains p) (hcleared : source.Cleared done)
    (hok : source.checkCircles steps path done name = .ok done') :
    source.Clears path [name] done done' := by
  -- every step makes the path longer by a join it has not met: there are steps enough
  induction steps generalizing path done done' name with
  | zero =>
      have := length_pending_le hdistinct hknown
      omega
  | succ steps ih =>
      unfold checkCircles at hok
      split at hok
      · rename_i hdone
        obtain rfl : done = done' := by simpa using hok
        exact ⟨hcleared, List.Subset.refl _, by simpa using hdone, fun _ _ h => h⟩
      split at hok
      · simp at hok
      rename_i hnew hpath
      have hname : name ∉ done := by simpa using hnew
      have hoff : name ∉ path := by simpa using hpath
      simp only [bind_eq_ok_iff, pure_eq_ok_iff] at hok
      obtain ⟨inside, hinside, rfl⟩ := hok
      -- a name without a clause requires nothing, so that the path below it has known joins only
      have hclears := @clears_foldlM source (path ++ [name]) _ done inside _ ?_ hcleared hinside
      case refine_1 =>
        intro n hn done done' hcleared hok
        have hcontains : source.joins.contains name := by
          cases hclause : source.joins.get? name with
          | none => simp [hclause] at hn
          | some clause => exact Dictionary.contains_iff.2 ⟨clause, hclause⟩
        refine ih (by simp; omega) ?_ ?_ hcleared hok
        · simpa [List.nodup_append] using ⟨hdistinct, fun a ha heq => hoff (heq ▸ ha)⟩
        · intro p hp
          rcases List.mem_append.1 hp with hp | hp
          · exact hknown p hp
          · rwa [List.mem_singleton.1 hp]
      refine ⟨hclears.cleared.cons ?_ ?_, ?_, by simp, ?_⟩
      · exact fun h => hname (hclears.fresh name (by simp) h)
      · rintro b ⟨clause, hclause, hb⟩
        exact hclears.complete (by simpa [hclause] using hb)
      · exact List.Subset.trans hclears.subset (List.subset_cons_self _ _)
      · intro p hp h
        rcases List.mem_cons.1 h with rfl | h
        · exact absurd hp hoff
        · exact hclears.fresh p (List.mem_append_left _ hp) h

/-- The promise of a source that passes its checks. -/
structure Sound (source : Source) : Prop where
  dimensions : ∀ key d name, source.dimensions.get? key = some d → d.join = some name →
    source.joins.contains name
  measures : ∀ key m name, source.measures.get? key = some m → m.join = some name →
    source.joins.contains name
  filters : ∀ key c name, source.filterColumns.get? key = some c → c.join = some name →
    source.joins.contains name
  requires : ∀ a b, source.Requires a b → source.joins.contains b
  acyclic : ∀ name, ¬source.Circular name

theorem checkReference_eq_ok_iff {owner key : String} {join : Option String} :
    source.checkReference owner key join = .ok () ↔
      ∀ name, join = some name → source.joins.contains name := by
  cases join with
  | none => simp [checkReference]
  | some name => simp [checkReference]

theorem checkRequirement_eq_ok_iff {join required : String} :
    source.checkRequirement join required = .ok () ↔ source.joins.contains required := by
  simp [checkRequirement]

theorem validate_eq_ok_iff :
    source.validate = .ok () ↔
      (Text.trimmed source.table).isEmpty = false ∧
      (∀ e ∈ source.dimensions.entries, ∀ name, e.2.join = some name →
        source.joins.contains name) ∧
      (∀ e ∈ source.measures.entries, ∀ name, e.2.join = some name →
        source.joins.contains name) ∧
      (∀ e ∈ source.filterColumns.entries, ∀ name, e.2.join = some name →
        source.joins.contains name) ∧
      (∀ e ∈ source.joins.entries, ∀ r ∈ e.2.requires, source.joins.contains r) ∧
      ∃ done, source.joins.keys.foldlM (source.checkCircles (source.joins.size + 2) []) [] =
        .ok done := by
  unfold validate
  split <;> simp_all [checkReference_eq_ok_iff, checkRequirement_eq_ok_iff]

theorem validate_sound (h : source.validate = .ok ()) : source.Sound := by
  obtain ⟨-, hdimensions, hmeasures, hfilters, hrequires, done, hdone⟩ := validate_eq_ok_iff.1 h
  have hclears : source.Clears [] source.joins.keys [] done :=
    clears_foldlM (fun n _ done done' hcleared hok =>
      checkCircles_clears (by simp) List.nodup_nil (by simp) hcleared hok)
      ⟨by simp, by simp⟩ hdone
  refine ⟨?_, ?_, ?_, ?_, ?_⟩
  · exact fun key d name hd => hdimensions (key, d) (Dictionary.get?_eq_some_iff.1 hd) name
  · exact fun key m name hm => hmeasures (key, m) (Dictionary.get?_eq_some_iff.1 hm) name
  · exact fun key c name hc => hfilters (key, c) (Dictionary.get?_eq_some_iff.1 hc) name
  · rintro a b ⟨clause, hclause, hb⟩
    exact hrequires (a, clause) (Dictionary.get?_eq_some_iff.1 hclause) b hb
  · intro name hcircle
    obtain ⟨b, ⟨clause, hclause, -⟩, -⟩ := TransGen.head'_iff.1 hcircle
    have hmem : name ∈ source.joins.keys :=
      Dictionary.contains_iff_mem_keys.1 (Dictionary.contains_iff.2 ⟨clause, hclause⟩)
    exact hclears.cleared.acyclic name (hclears.complete hmem) hcircle

theorem sound_of_insert {r r' : Registry} (h : r.insert source = .ok r') : source.Sound := by
  unfold Registry.insert at h
  rw [bind_unit_eq_ok_iff] at h
  exact validate_sound h.1

end SemanticLayer.Source

namespace SemanticLayer.Registry

/-- Every source of the registry passes its checks. -/
def Sound (r : Registry) : Prop :=
  ∀ name source, r.get? name = some source → source.Sound

theorem insert_sound {r r' : Registry} {source : Source} (hr : r.Sound)
    (h : r.insert source = .ok r') : r'.Sound := by
  have hsource := Source.sound_of_insert h
  unfold insert at h
  rw [bind_unit_eq_ok_iff] at h
  obtain ⟨-, hnew⟩ := h
  split at hnew
  · simp at hnew
  · simp only [pure_eq_ok_iff] at hnew
    subst hnew
    intro name found hfound
    rcases Dictionary.mem_place (Dictionary.get?_eq_some_iff.1 hfound) with heq | hold
    · obtain ⟨-, rfl⟩ := Prod.mk.injEq .. ▸ heq
      exact hsource
    · exact hr name found (Dictionary.get?_eq_some_iff.2 hold)

theorem ofSources_sound {sources : List Source} {r : Registry} (h : ofSources sources = .ok r) :
    r.Sound := by
  have hstep : ∀ (start : Registry), start.Sound → sources.foldlM insert start = .ok r → r.Sound := by
    clear h
    induction sources with
    | nil =>
        intro start hstart h
        obtain rfl : start = r := by simpa using h
        exact hstart
    | cons source sources ih =>
        intro start hstart h
        rw [List.foldlM_cons, bind_eq_ok_iff] at h
        obtain ⟨next, hinsert, hrest⟩ := h
        exact ih next (insert_sound hstart hinsert) hrest
  refine hstep empty ?_ h
  intro name source hsource
  simp [get?, empty, Dictionary.get?, Dictionary.empty] at hsource

end SemanticLayer.Registry
