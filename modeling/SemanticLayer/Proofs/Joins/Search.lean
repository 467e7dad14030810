import SemanticLayer.Proofs.Joins.Resolution
/-!
The resolution of joins as a depth-first search without a bound, on every source, also one whose joins
require unknown ones or each other in circles.
-/
namespace SemanticLayer.Source

open Relation

/-- What the joins in `names` make of a list when they are added one after another, as deep as their
requirements lead; those in `pending` are being added further out. -/
inductive Lists (source : Source) :
    List String → List String → List NamedJoin → List NamedJoin → Prop where
  | nil {pending : List String} {listed : List NamedJoin} : Lists source pending [] listed listed
  | skipped {pending names : List String} {name : String} {listed result : List NamedJoin}
      (hskip : source.joins.get? name = none ∨ name ∈ listed.map NamedJoin.name ∨ name ∈ pending)
      (hrest : Lists source pending names listed result) :
      Lists source pending (name :: names) listed result
  | added {pending names : List String} {name : String} {clause : JoinClause}
      {listed inside result : List NamedJoin} (hclause : source.joins.get? name = some clause)
      (hnew : name ∉ listed.map NamedJoin.name) (hpending : name ∉ pending)
      (hinside : Lists source (name :: pending) clause.requires listed inside)
      (hrest : Lists source pending names (inside ++ [⟨name, clause⟩]) result) :
      Lists source pending (name :: names) listed result

variable {source : Source} {pending names : List String} {listed result : List NamedJoin}

theorem not_skipped {name : String} {clause : JoinClause} (hclause : source.joins.get? name = some clause)
    (hnew : name ∉ listed.map NamedJoin.name) (hpending : name ∉ pending) :
    ¬(source.joins.get? name = none ∨ name ∈ listed.map NamedJoin.name ∨ name ∈ pending) := by
  rintro (hskip | hskip | hskip)
  · simp [hskip] at hclause
  · exact hnew hskip
  · exact hpending hskip

theorem Lists.unique {result' : List NamedJoin} (h : source.Lists pending names listed result)
    (h' : source.Lists pending names listed result') : result = result' := by
  induction h generalizing result' with
  | nil =>
      cases h'
      rfl
  | skipped hskip _ ih =>
      cases h' with
      | skipped _ hrest => exact ih hrest
      | added hclause hnew hpending => exact absurd hskip (not_skipped hclause hnew hpending)
  | added hclause hnew hpending _ _ ihinside ihrest =>
      cases h' with
      | skipped hskip _ => exact absurd hskip (not_skipped hclause hnew hpending)
      | added hclause' _ _ hinside hrest =>
          obtain rfl := Option.some.inj (hclause.symm.trans hclause')
          obtain rfl := ihinside hinside
          exact ihrest hrest

/-- The bounded recursion does what the search without a bound does, where the levels left are enough for
the joins that are not pending yet. -/
theorem lists_foldl {levels : Nat} (hlevels : source.joins.size < levels + pending.length)
    (hdistinct : pending.Nodup) (hknown : ∀ p ∈ pending, source.joins.contains p) :
    source.Lists pending names listed (names.foldl (source.addJoin levels pending) listed) := by
  induction levels generalizing pending names listed with
  | zero =>
      have := length_pending_le hdistinct hknown
      omega
  | succ levels ih =>
      -- A join that is added lengthens what is pending by one and takes one level, so the bound stays.
      induction names generalizing listed with
      | nil => exact .nil
      | cons name names ihnames =>
          rw [List.foldl_cons]
          cases hclause : source.joins.get? name with
          | none =>
              have hskip : source.addJoin (levels + 1) pending listed name = listed := by
                rw [addJoin, hclause]
              rw [hskip]
              exact .skipped (.inl hclause) ihnames
          | some clause =>
              by_cases hskip : name ∈ listed.map NamedJoin.name ∨ name ∈ pending
              · have hdone : source.addJoin (levels + 1) pending listed name = listed := by
                  rw [addJoin, hclause]
                  dsimp only
                  rw [if_pos (by simpa [List.any_eq_true] using hskip)]
                rw [hdone]
                exact .skipped (.inr hskip) ihnames
              · obtain ⟨hnew, hpending⟩ := not_or.1 hskip
                have hadded : source.addJoin (levels + 1) pending listed name =
                    clause.requires.foldl (source.addJoin levels (name :: pending)) listed ++
                      [⟨name, clause⟩] := by
                  rw [addJoin, hclause]
                  dsimp only
                  rw [if_neg (by simpa [List.any_eq_true] using hskip)]
                rw [hadded]
                refine .added hclause hnew hpending (ih ?_ ?_ ?_) ihnames
                · rw [List.length_cons]
                  omega
                · exact List.nodup_cons.2 ⟨hpending, hdistinct⟩
                · exact List.forall_mem_cons.2 ⟨Dictionary.contains_iff.2 ⟨clause, hclause⟩, hknown⟩

theorem lists_resolveJoins (source : Source) (required : List String) :
    source.Lists [] required [] (source.resolveJoins required) :=
  lists_foldl (by simp) List.nodup_nil (by simp)

theorem resolveJoins_append (source : Source) (required more : List String) :
    source.resolveJoins required <+: source.resolveJoins (required ++ more) := by
  have hlisting := (resolveJoins_adds source required).listing
  have hadds : source.Adds [] more (source.resolveJoins required)
      (source.resolveJoins (required ++ more)) := by
    unfold resolveJoins at hlisting ⊢
    rw [List.foldl_append]
    exact adds_foldl (fun n _ listed hlisted =>
      addJoin_adds (by simp) List.nodup_nil (by simp) (by simp) hlisted) hlisting
  obtain ⟨added, hadded, -⟩ := hadds.sound
  exact ⟨added, hadded.symm⟩

/-- The search ends on every source with the one list that it can end with: the known joins that can be
reached, each once and as it is defined, and each behind the known ones that it requires, unless it
requires itself. Names that are required behind others only add to the end. -/
theorem resolveJoins_search (source : Source) (required : List String) :
    (∀ joins, source.Lists [] required [] joins ↔ joins = source.resolveJoins required) ∧
    (∀ j, j ∈ source.resolveJoins required ↔ source.joins.get? j.name = some j.clause ∧
      ∃ n ∈ required, ReflTransGen source.Requires n j.name) ∧
    ((source.resolveJoins required).map NamedJoin.name).Nodup ∧
    (∀ before j behind, source.resolveJoins required = before ++ j :: behind →
      ¬source.Circular j.name → ∀ r ∈ j.clause.requires, source.joins.contains r →
        r ∈ before.map NamedJoin.name) ∧
    ∀ more, source.resolveJoins required <+: source.resolveJoins (required ++ more) := by
  have hlisting := (resolveJoins_adds source required).listing
  refine ⟨?_, ?_, hlisting.distinct, ?_, resolveJoins_append source required⟩
  · intro joins
    constructor
    · exact fun h => h.unique (lists_resolveJoins source required)
    · rintro rfl
      exact lists_resolveJoins source required
  · intro j
    constructor
    · intro hj
      have hname := (mem_resolveJoins_iff source required j.name).1 (List.mem_map_of_mem hj)
      exact ⟨hlisting.clause j hj, hname.2⟩
    · rintro ⟨hclause, hreach⟩
      have hknown : source.joins.contains j.name := Dictionary.contains_iff.2 ⟨j.clause, hclause⟩
      obtain ⟨j', hj', hname⟩ :=
        List.mem_map.1 ((mem_resolveJoins_iff source required j.name).2 ⟨hknown, hreach⟩)
      have hsame : j'.clause = j.clause := by
        have hclause' := hlisting.clause j' hj'
        rw [hname, hclause] at hclause'
        exact (Option.some.inj hclause').symm
      obtain rfl : j' = j := by
        cases j
        cases j'
        simp_all
      exact hj'
  · intro before j behind hsplit hcircle r hr hknown
    exact (hlisting.ordered before j behind hsplit r hr hknown).resolve_right hcircle

-- Two joins that require each other, one of them also one that nobody knows.
example : (resolveJoins
    { name := "orders", label := none, table := "orders", aliasName := none, connectionId := none,
      dimensions := .empty, measures := .empty,
      joins := .ofList [("a", ⟨"JOIN a", ["b"]⟩), ("b", ⟨"JOIN b", ["c", "a"]⟩)],
      filterColumns := .empty, description := none } ["a", "b"]).map NamedJoin.name = ["b", "a"] := by
  decide +kernel

end SemanticLayer.Source
