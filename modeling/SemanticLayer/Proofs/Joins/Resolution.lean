import Mathlib.Data.List.Perm.Subperm
import Mathlib.Logic.Relation
import SemanticLayer.Proofs.Dictionary
import SemanticLayer.Query.Joins
/-!
Which joins a list of names resolves to, on every source: the known ones that can be reached through
requirements, each once, and each behind what it requires unless it lies on a circle.
-/
namespace SemanticLayer.Source

open Relation

/-- The join `a` exists and names `b` among those it requires. -/
def Requires (source : Source) (a b : String) : Prop :=
  ∃ clause, source.joins.get? a = some clause ∧ b ∈ clause.requires

/-- The join requires itself through one or more steps. -/
def Circular (source : Source) (a : String) : Prop :=
  TransGen source.Requires a a

/-- What holds of the joins listed while those in `pending` are being added: each is the join of its
name, none is listed twice or pending, and what one requires is listed before it, or is pending,
or closes a circle. -/
structure Listing (source : Source) (pending : List String) (listed : List NamedJoin) : Prop where
  clause : ∀ j ∈ listed, source.joins.get? j.name = some j.clause
  distinct : (listed.map NamedJoin.name).Nodup
  fresh : ∀ j ∈ listed, j.name ∉ pending
  closed : ∀ j ∈ listed, ∀ r ∈ j.clause.requires, source.joins.contains r →
    r ∈ listed.map NamedJoin.name ∨ r ∈ pending
  ordered : ∀ before j behind, listed = before ++ j :: behind → ∀ r ∈ j.clause.requires,
    source.joins.contains r → r ∈ before.map NamedJoin.name ∨ source.Circular j.name

/-- What the joins required by `names` add to a list: every known one is in the list now or pending,
and every one that is new can be reached from one of them. -/
structure Adds (source : Source) (pending names : List String) (listed result : List NamedJoin) :
    Prop where
  listing : source.Listing pending result
  complete : ∀ n ∈ names, source.joins.contains n → n ∈ result.map NamedJoin.name ∨ n ∈ pending
  sound : ∃ added, result = listed ++ added ∧
    ∀ j ∈ added, ∃ n ∈ names, ReflTransGen source.Requires n j.name

variable {source : Source} {pending names : List String} {listed result : List NamedJoin}

theorem Listing.nil (source : Source) : source.Listing [] [] where
  clause := by simp
  distinct := by simp
  fresh := by simp
  closed := by simp
  ordered := by simp

/-- Joins that are pending are different joins that exist. -/
theorem length_pending_le (hdistinct : pending.Nodup)
    (hknown : ∀ p ∈ pending, source.joins.contains p) : pending.length ≤ source.joins.size := by
  rw [← Dictionary.length_keys]
  refine (List.subperm_of_subset hdistinct ?_).length_le
  intro p hp
  exact Dictionary.contains_iff_mem_keys.1 (hknown p hp)

theorem Adds.refl (hlisting : source.Listing pending listed) :
    source.Adds pending [] listed listed :=
  ⟨hlisting, by simp, [], by simp, by simp⟩

theorem Adds.cons {name : String} {middle : List NamedJoin}
    (hhead : source.Adds pending [name] listed middle)
    (htail : source.Adds pending names middle result) :
    source.Adds pending (name :: names) listed result := by
  obtain ⟨first, rfl, hfirst⟩ := hhead.sound
  obtain ⟨second, rfl, hsecond⟩ := htail.sound
  refine ⟨htail.listing, ?_, first ++ second, by simp, ?_⟩
  · intro n hn hknown
    rcases List.mem_cons.1 hn with rfl | hn
    · rcases hhead.complete n (by simp) hknown with h | h
      · exact Or.inl (by rw [List.map_append]; exact List.mem_append_left _ h)
      · exact Or.inr h
    · exact htail.complete n hn hknown
  · intro j hj
    rcases List.mem_append.1 hj with hj | hj
    · obtain ⟨n, hn, hreach⟩ := hfirst j hj
      exact ⟨n, List.mem_cons.2 (Or.inl (by simpa using hn)), hreach⟩
    · obtain ⟨n, hn, hreach⟩ := hsecond j hj
      exact ⟨n, List.mem_cons_of_mem _ hn, hreach⟩

/-- Adding the joins of a list one after another, given what adding one does. -/
theorem adds_foldl {add : List NamedJoin → String → List NamedJoin}
    (hadd : ∀ n ∈ names, ∀ listed, source.Listing pending listed →
      source.Adds pending [n] listed (add listed n))
    (hlisting : source.Listing pending listed) :
    source.Adds pending names listed (names.foldl add listed) := by
  induction names generalizing listed with
  | nil => exact Adds.refl hlisting
  | cons n names ih =>
      have hhead := hadd n (by simp) listed hlisting
      exact hhead.cons (ih (fun m hm => hadd m (List.mem_cons_of_mem _ hm)) hhead.listing)

/-- A join that is not listed yet goes behind what it requires. -/
theorem Listing.append {name : String} {clause : JoinClause}
    (hclause : source.joins.get? name = some clause) (hname : name ∉ pending)
    (hpending : ∀ p ∈ pending, TransGen source.Requires p name)
    (hadds : source.Adds (name :: pending) clause.requires listed result) :
    source.Listing pending (result ++ [⟨name, clause⟩]) := by
  have hinside := hadds.listing
  have hrequires : ∀ r ∈ clause.requires, source.Requires name r :=
    fun r hr => ⟨clause, hclause, hr⟩
  refine ⟨?_, ?_, ?_, ?_, ?_⟩
  · intro j hj
    rcases List.mem_append.1 hj with hj | hj
    · exact hinside.clause j hj
    · rw [List.mem_singleton.1 hj]
      exact hclause
  · rw [List.map_append, List.nodup_append]
    refine ⟨hinside.distinct, by simp, ?_⟩
    intro a ha b hb heq
    obtain ⟨j, hj, rfl⟩ := List.mem_map.1 ha
    exact hinside.fresh j hj (by simp_all)
  · intro j hj
    rcases List.mem_append.1 hj with hj | hj
    · exact fun h => hinside.fresh j hj (List.mem_cons_of_mem _ h)
    · rw [List.mem_singleton.1 hj]
      exact hname
  · intro j hj r hr hknown
    have hcases : r ∈ result.map NamedJoin.name ∨ r ∈ name :: pending := by
      rcases List.mem_append.1 hj with hj | hj
      · exact hinside.closed j hj r hr hknown
      · rw [List.mem_singleton.1 hj] at hr
        exact hadds.complete r hr hknown
    simpa [or_assoc] using hcases
  · intro before j behind hsplit r hr hknown
    rcases List.eq_nil_or_concat behind with rfl | ⟨behind, last, rfl⟩
    · obtain ⟨hbefore, hj⟩ := List.append_inj' hsplit rfl
      obtain rfl : ⟨name, clause⟩ = j := by simpa using hj
      rcases hadds.complete r hr hknown with h | h
      · exact Or.inl (hbefore ▸ h)
      · right
        rcases List.mem_cons.1 h with rfl | h
        · exact TransGen.single (hrequires _ hr)
        · exact (TransGen.single (hrequires r hr)).trans (hpending r h)
    · have hsplit : result ++ [⟨name, clause⟩] = (before ++ j :: behind) ++ [last] := by
        simpa using hsplit
      exact hinside.ordered before j behind (List.append_inj' hsplit rfl).1 r hr hknown

/-- A join that has not been listed becomes pending. -/
theorem Listing.enter {name : String} (hlisting : source.Listing pending listed)
    (hname : name ∉ listed.map NamedJoin.name) : source.Listing (name :: pending) listed := by
  refine ⟨hlisting.clause, hlisting.distinct, ?_, ?_, hlisting.ordered⟩
  · intro j hj h
    rcases List.mem_cons.1 h with h | h
    · exact hname (h ▸ List.mem_map_of_mem hj)
    · exact hlisting.fresh j hj h
  · intro j hj r hr hknown
    exact (hlisting.closed j hj r hr hknown).imp id (List.mem_cons_of_mem _)

/-- A join that is unknown, listed or pending adds nothing. -/
theorem Adds.unchanged {name : String} (hlisting : source.Listing pending listed)
    (hname : source.joins.contains name → name ∈ listed.map NamedJoin.name ∨ name ∈ pending) :
    source.Adds pending [name] listed listed := by
  refine ⟨hlisting, ?_, [], by simp, by simp⟩
  intro n hn hknown
  obtain rfl : n = name := by simpa using hn
  exact hname hknown

/-- A join is added behind all that it requires. -/
theorem Adds.append {name : String} {clause : JoinClause} (hclause : source.joins.get? name = some clause)
    (hname : name ∉ pending) (hpending : ∀ p ∈ pending, TransGen source.Requires p name)
    (hadds : source.Adds (name :: pending) clause.requires listed result) :
    source.Adds pending [name] listed (result ++ [⟨name, clause⟩]) := by
  obtain ⟨added, heq, hadded⟩ := hadds.sound
  refine ⟨Listing.append hclause hname hpending hadds, ?_, added ++ [⟨name, clause⟩], by simp [heq], ?_⟩
  · intro n hn _
    left
    obtain rfl : n = name := by simpa using hn
    simp
  · intro j hj
    refine ⟨name, by simp, ?_⟩
    rcases List.mem_append.1 hj with hj | hj
    · obtain ⟨r, hr, hreach⟩ := hadded j hj
      exact ReflTransGen.head ⟨clause, hclause, hr⟩ hreach
    · rw [List.mem_singleton.1 hj]

/-- Adding a join, where the levels left are enough for the joins that are not pending yet and every
pending join requires this one. -/
theorem addJoin_adds {levels : Nat} {name : String}
    (hlevels : source.joins.size < levels + pending.length) (hdistinct : pending.Nodup)
    (hknown : ∀ p ∈ pending, source.joins.contains p)
    (hpending : ∀ p ∈ pending, TransGen source.Requires p name)
    (hlisting : source.Listing pending listed) :
    source.Adds pending [name] listed (source.addJoin levels pending listed name) := by
  -- one level down one more join is pending, and no join is pending twice: there are levels enough
  induction levels generalizing pending listed name with
  | zero =>
      have := length_pending_le hdistinct hknown
      omega
  | succ levels ih =>
      unfold addJoin
      cases hclause : source.joins.get? name with
      | none =>
          refine .unchanged hlisting fun hcontains => ?_
          obtain ⟨clause, h⟩ := Dictionary.contains_iff.1 hcontains
          rw [hclause] at h
          cases h
      | some clause =>
          have hcontains : source.joins.contains name = true :=
            Dictionary.contains_iff.2 ⟨clause, hclause⟩
          dsimp only
          split
          · rename_i hdone
            exact .unchanged hlisting fun _ => by simpa [List.any_eq_true] using hdone
          · rename_i hnew
            obtain ⟨hunlisted, hname⟩ : name ∉ listed.map NamedJoin.name ∧ name ∉ pending := by
              simpa [List.any_eq_true] using hnew
            refine .append hclause hname hpending (adds_foldl ?_ (hlisting.enter hunlisted))
            intro r hr listed hlisted
            have hrequires : source.Requires name r := ⟨clause, hclause, hr⟩
            refine ih (by simp; omega) (List.nodup_cons.2 ⟨hname, hdistinct⟩) ?_ ?_ hlisted
            · intro p hp
              rcases List.mem_cons.1 hp with rfl | hp
              · exact hcontains
              · exact hknown p hp
            · intro p hp
              rcases List.mem_cons.1 hp with rfl | hp
              · exact TransGen.single hrequires
              · exact (hpending p hp).tail hrequires

theorem resolveJoins_adds (source : Source) (required : List String) :
    source.Adds [] required [] (source.resolveJoins required) := by
  refine adds_foldl ?_ (Listing.nil source)
  intro n _ listed hlisted
  exact addJoin_adds (by simp) List.nodup_nil (by simp) (by simp) hlisted

/-- The resolved joins are the known ones that can be reached from the required names. -/
theorem mem_resolveJoins_iff (source : Source) (required : List String) (name : String) :
    name ∈ (source.resolveJoins required).map NamedJoin.name ↔
      source.joins.contains name ∧ ∃ n ∈ required, ReflTransGen source.Requires n name := by
  have hadds := resolveJoins_adds source required
  constructor
  · intro h
    obtain ⟨j, hj, rfl⟩ := List.mem_map.1 h
    obtain ⟨added, heq, hadded⟩ := hadds.sound
    refine ⟨Dictionary.contains_iff.2 ⟨_, hadds.listing.clause j hj⟩, hadded j ?_⟩
    simpa [heq] using hj
  · rintro ⟨hknown, n, hn, hreach⟩
    -- every join on the way to a known one is known, since it has a clause that requires the next
    induction hreach with
    | refl => simpa using hadds.complete n hn hknown
    | @tail a b _ hrequires ih =>
        obtain ⟨clause, hclause, hb⟩ := hrequires
        have ha := ih (Dictionary.contains_iff.2 ⟨clause, hclause⟩)
        obtain ⟨j, hj, rfl⟩ := List.mem_map.1 ha
        obtain rfl : j.clause = clause :=
          Option.some.inj ((hadds.listing.clause j hj).symm.trans hclause)
        simpa using hadds.listing.closed j hj b hb hknown

end SemanticLayer.Source
