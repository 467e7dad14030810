import Mathlib.Data.List.Forall2
import Mathlib.Data.List.Induction
import SemanticLayer.Calculation.Expression
/-!
The variables of an expression, and what its value depends on. Each variable is listed once, in the order in which the
variables first appear from left to right. The value is missing exactly if the value of a listed variable is, and is the
same wherever the listed variables have the same values.
-/
namespace SemanticLayer.Calculation.Expression

/-- The way from an operation to one of its operands. -/
inductive Branch where
  | inner
  | left
  | right
  deriving DecidableEq, Repr

/-- A variable stands at the end of a path from the root. -/
inductive Mentions (name : String) : Expression → List Branch → Prop
  | here : Mentions name (.variable name) []
  | inner {e : Expression} {path : List Branch} (h : Mentions name e path) :
      Mentions name (.negate e) (.inner :: path)
  | left {op : Operator} {left right : Expression} {path : List Branch} (h : Mentions name left path) :
      Mentions name (.binary op left right) (.left :: path)
  | right {op : Operator} {left right : Expression} {path : List Branch} (h : Mentions name right path) :
      Mentions name (.binary op left right) (.right :: path)

/-- One path goes left where the other one goes right. -/
inductive LeftOf : List Branch → List Branch → Prop
  | fork (path other : List Branch) : LeftOf (.left :: path) (.right :: other)
  | along (branch : Branch) {path other : List Branch} (h : LeftOf path other) :
      LeftOf (branch :: path) (branch :: other)

/-- A variable stands at the end of a path, and otherwise only to the right of it. -/
def FirstAt (e : Expression) (name : String) (path : List Branch) : Prop :=
  Mentions name e path ∧ ∀ other, Mentions name e other → other = path ∨ LeftOf path other

variable {e : Expression} {name : String} {path other : List Branch} {listed names : List String}

/-! ## Places -/

/-- The variables with their paths from left to right. -/
def places : Expression → List (List Branch × String)
  | number _ => []
  | «variable» name => [([], name)]
  | negate inner => inner.places.map (Prod.map (.inner :: ·) id)
  | binary _ left right =>
    left.places.map (Prod.map (.left :: ·) id) ++ right.places.map (Prod.map (.right :: ·) id)

theorem names_places (e : Expression) : e.places.map Prod.snd = e.occurrences := by
  induction e with
  | number value => rfl
  | «variable» name => rfl
  | negate inner ih =>
      rw [places, occurrences, ← ih, List.map_map]
      rfl
  | binary op left right ihleft ihright =>
      rw [places, occurrences, ← ihleft, ← ihright, List.map_append, List.map_map, List.map_map]
      rfl

theorem mem_places_iff : (path, name) ∈ e.places ↔ Mentions name e path := by
  induction e generalizing path with
  | number value =>
      constructor
      · intro h
        simp [places] at h
      · rintro ⟨⟩
  | «variable» other =>
      constructor
      · intro h
        obtain ⟨rfl, rfl⟩ : path = [] ∧ name = other := by simpa [places] using h
        exact .here
      · rintro ⟨⟩
        exact List.mem_singleton.2 rfl
  | negate inner ih =>
      constructor
      · intro h
        obtain ⟨p, hp, rfl⟩ : ∃ p, (p, name) ∈ inner.places ∧ .inner :: p = path := by simpa [places] using h
        exact .inner (ih.1 hp)
      · rintro (_ | h)
        simpa [places] using ih.2 h
  | binary op left right ihleft ihright =>
      constructor
      · intro h
        rcases List.mem_append.1 h with h | h
        · obtain ⟨p, hp, rfl⟩ : ∃ p, (p, name) ∈ left.places ∧ .left :: p = path := by simpa using h
          exact .left (ihleft.1 hp)
        · obtain ⟨p, hp, rfl⟩ : ∃ p, (p, name) ∈ right.places ∧ .right :: p = path := by simpa using h
          exact .right (ihright.1 hp)
      · rintro (_ | _ | h | h)
        · exact List.mem_append_left _ (by simpa using ihleft.2 h)
        · exact List.mem_append_right _ (by simpa using ihright.2 h)

theorem pairwise_places (e : Expression) : (e.places.map Prod.fst).Pairwise LeftOf := by
  have hbelow (branch : Branch) {f : Expression} (ih : (f.places.map Prod.fst).Pairwise LeftOf) :
      ((f.places.map (Prod.map (branch :: ·) id)).map Prod.fst).Pairwise LeftOf := by
    rw [List.map_map, List.pairwise_map]
    exact (List.pairwise_map.1 ih).imp fun h => .along branch h
  induction e with
  | number value => exact .nil
  | «variable» name => exact List.pairwise_singleton _ _
  | negate inner ih => exact hbelow .inner ih
  | binary op left right ihleft ihright =>
      rw [places, List.map_append, List.pairwise_append]
      refine ⟨hbelow .left ihleft, hbelow .right ihright, ?_⟩
      intro path hpath other hother
      obtain ⟨p, -, rfl⟩ : ∃ p, (∃ name, (p, name) ∈ left.places) ∧ .left :: p = path := by simpa using hpath
      obtain ⟨q, -, rfl⟩ : ∃ q, (∃ name, (q, name) ∈ right.places) ∧ .right :: q = other := by simpa using hother
      exact .fork p q

/-! ## The list of variables -/

/-- The first place of a name among places that go from left to right. -/
def FirstIn (items : List (List Branch × String)) (name : String) (path : List Branch) : Prop :=
  (path, name) ∈ items ∧ ∀ other, (other, name) ∈ items → other = path ∨ LeftOf path other

/-- All names that stand in places, each with its first place, from left to right. -/
structure Collected (items : List (List Branch × String)) (names : List String) (paths : List (List Branch)) :
    Prop where
  first : List.Forall₂ (FirstIn items) names paths
  leftToRight : paths.Pairwise LeftOf
  complete : ∀ place ∈ items, place.2 ∈ names

variable {items : List (List Branch × String)} {paths : List (List Branch)}

theorem FirstIn.concat {place : List Branch × String} (h : FirstIn items name path)
    (hleft : ∀ p ∈ items, LeftOf p.1 place.1) : FirstIn (items ++ [place]) name path := by
  refine ⟨List.mem_append_left _ h.1, ?_⟩
  intro p hp
  rcases List.mem_append.1 hp with hp | hp
  · exact h.2 p hp
  · obtain rfl := List.mem_singleton.1 hp
    exact .inr (hleft _ h.1)

theorem Collected.mem_iff (h : Collected items names paths) : name ∈ names ↔ ∃ path, (path, name) ∈ items := by
  constructor
  · intro hname
    obtain ⟨i, hi, rfl⟩ := List.getElem_of_mem hname
    have hi' : i < paths.length := h.first.length_eq ▸ hi
    exact ⟨paths[i], (List.forall₂_iff_get.1 h.first).2 i hi hi' |>.1⟩
  · rintro ⟨path, hpath⟩
    exact h.complete _ hpath

theorem Collected.mem_paths (h : Collected items names paths) (hpath : path ∈ paths) :
    ∃ name, (path, name) ∈ items := by
  obtain ⟨i, hi, rfl⟩ := List.getElem_of_mem hpath
  have hi' : i < names.length := h.first.length_eq ▸ hi
  exact ⟨names[i], (List.forall₂_iff_get.1 h.first).2 i hi' hi |>.1⟩

/-- A name further to the right joins the collected ones if it is not among them. -/
theorem Collected.concat {place : List Branch × String} (h : Collected items names paths)
    (hleft : ∀ p ∈ items, LeftOf p.1 place.1) :
    ∃ paths', Collected (items ++ [place]) (if place.2 ∈ names then names else names ++ [place.2]) paths' := by
  have hkept := h.first.imp fun _ _ hfirst => hfirst.concat hleft
  split
  · rename_i hold
    refine ⟨paths, hkept, h.leftToRight, ?_⟩
    intro p hp
    rcases List.mem_append.1 hp with hp | hp
    · exact h.complete p hp
    · obtain rfl := List.mem_singleton.1 hp
      exact hold
  · rename_i hnew
    have hfirst : FirstIn (items ++ [place]) place.2 place.1 := by
      refine ⟨List.mem_append_right _ (List.mem_singleton_self _), ?_⟩
      intro p hp
      rcases List.mem_append.1 hp with hp | hp
      · exact absurd (h.complete _ hp) hnew
      · exact .inl (congrArg Prod.fst (List.mem_singleton.1 hp))
    refine ⟨paths ++ [place.1], List.rel_append hkept (.cons hfirst .nil), ?_, ?_⟩
    · refine List.pairwise_append.2 ⟨h.leftToRight, List.pairwise_singleton _ _, ?_⟩
      intro p hp q hq
      obtain rfl := List.mem_singleton.1 hq
      obtain ⟨name, hname⟩ := h.mem_paths hp
      exact hleft _ hname
    · intro p hp
      rcases List.mem_append.1 hp with hp | hp
      · exact List.mem_append_left _ (h.complete p hp)
      · obtain rfl := List.mem_singleton.1 hp
        exact List.mem_append_right _ (List.mem_singleton_self _)

theorem collect_concat (listed names : List String) (name : String) : collect listed (names ++ [name]) =
    if name ∈ collect listed names then collect listed names else collect listed names ++ [name] := by
  simp [collect, List.foldl_append]

/-- The induction is on the end of the list, since a name is looked for among those in front of it. -/
theorem exists_collected (h : (items.map Prod.fst).Pairwise LeftOf) :
    ∃ paths, Collected items (collect [] (items.map Prod.snd)) paths := by
  induction items using List.reverseRecOn with
  | nil => exact ⟨[], .nil, .nil, by simp⟩
  | append_singleton items place ih =>
      rw [List.map_append, List.pairwise_append] at h
      obtain ⟨hitems, -, hlast⟩ := h
      obtain ⟨paths, hcollected⟩ := ih hitems
      rw [List.map_append, List.map_singleton, collect_concat]
      apply hcollected.concat
      intro p hp
      exact hlast p.1 (List.mem_map_of_mem hp) place.1 (by simp)

theorem collect_nodup (names : List String) : (collect [] names).Nodup := by
  induction names using List.reverseRecOn with
  | nil => exact .nil
  | append_singleton names name ih =>
      rw [collect_concat]
      split
      · exact ih
      · rename_i hnew
        refine List.nodup_append.2 ⟨ih, List.pairwise_singleton _ _, ?_⟩
        intro other hother last hlast heq
        rw [List.mem_singleton.1 hlast] at heq
        exact hnew (heq ▸ hother)

theorem exists_collected_variableNames (e : Expression) : ∃ paths, Collected e.places e.variableNames paths := by
  rw [variableNames, ← names_places]
  exact exists_collected e.pairwise_places

theorem mem_variableNames_iff : name ∈ e.variableNames ↔ ∃ path, Mentions name e path := by
  obtain ⟨paths, h⟩ := e.exists_collected_variableNames
  simp only [h.mem_iff, mem_places_iff]

theorem mem_variableNames_iff_mem_occurrences : name ∈ e.variableNames ↔ name ∈ e.occurrences := by
  obtain ⟨paths, h⟩ := e.exists_collected_variableNames
  rw [h.mem_iff, ← names_places]
  simp

/-! ## Values -/

variable {lookup lookup' : String → Option Float}

theorem eval_eq_none_iff : e.eval lookup = none ↔ ∃ name ∈ e.occurrences, lookup name = none := by
  induction e with
  | number x => simp [eval, occurrences]
  | «variable» name => simp [eval, occurrences]
  | negate e ih => simpa [eval, occurrences] using ih
  | binary operator left right ihleft ihright =>
      have hnone : (Expression.binary operator left right).eval lookup = none ↔
          left.eval lookup = none ∨ right.eval lookup = none := by
        cases hleft : left.eval lookup <;> cases hright : right.eval lookup <;>
          simp [eval, hleft, hright]
      simp only [hnone, ihleft, ihright, occurrences, List.mem_append, or_and_right, exists_or]

theorem eval_congr (h : ∀ name ∈ e.occurrences, lookup name = lookup' name) : e.eval lookup = e.eval lookup' := by
  induction e with
  | number value => rfl
  | «variable» name => exact h name (List.mem_singleton_self name)
  | negate inner ih =>
      rw [eval, eval, ih h]
  | binary op left right ihleft ihright =>
      rw [eval, eval, ihleft fun name hname => h name (List.mem_append_left _ hname),
        ihright fun name hname => h name (List.mem_append_right _ hname)]

/-- The variables are listed once each, by their first places from left to right; the value is missing exactly if that
of a listed variable is, and depends on nothing but the values of the listed variables. -/
theorem variableNames_determine (e : Expression) :
    e.variableNames.Nodup ∧ (∀ name, name ∈ e.variableNames ↔ ∃ path, Mentions name e path) ∧
      (∃ paths, List.Forall₂ e.FirstAt e.variableNames paths ∧ paths.Pairwise LeftOf) ∧
      (∀ lookup, e.eval lookup = none ↔ ∃ name ∈ e.variableNames, lookup name = none) ∧
      ∀ lookup lookup', (∀ name ∈ e.variableNames, lookup name = lookup' name) → e.eval lookup = e.eval lookup' := by
  refine ⟨collect_nodup _, fun name => mem_variableNames_iff, ?_, ?_, ?_⟩
  · obtain ⟨paths, h⟩ := e.exists_collected_variableNames
    refine ⟨paths, h.first.imp ?_, h.leftToRight⟩
    intro name path hfirst
    exact ⟨mem_places_iff.1 hfirst.1, fun other hother => hfirst.2 other (mem_places_iff.2 hother)⟩
  · intro lookup
    simp only [eval_eq_none_iff, mem_variableNames_iff_mem_occurrences]
  · intro lookup lookup' h
    exact eval_congr fun name hname => h name (mem_variableNames_iff_mem_occurrences.2 hname)

/-- One of two variables stands in two places, under a sign and an operator. -/
def repeated : Expression :=
  .binary .add (.variable "a") (.binary .multiply (.negate (.variable "b")) (.variable "a"))

theorem variableNames_determine_repeated :
    (∃ paths, List.Forall₂ repeated.FirstAt ["a", "b"] paths ∧ paths.Pairwise LeftOf) ∧
      repeated.eval (fun name => if name = "a" then some 2.0 else none) = none ∧
      (∀ name ∈ repeated.variableNames, some 2.0 = if name = "c" then none else some 2.0) ∧
      repeated.eval (fun _ => some 2.0) = repeated.eval fun name => if name = "c" then none else some 2.0 := by
  obtain ⟨-, -, hfirst, hnone, hcongr⟩ := variableNames_determine repeated
  have hnames : repeated.variableNames = ["a", "b"] := by decide
  have hagree : ∀ name ∈ repeated.variableNames, some 2.0 = if name = "c" then none else some 2.0 := by
    intro name hname
    rw [hnames] at hname
    rw [if_neg]
    rintro rfl
    simp at hname
  rw [hnames] at hfirst
  refine ⟨hfirst, (hnone _).2 ⟨"b", ?_, rfl⟩, hagree, hcongr _ _ hagree⟩
  rw [hnames]
  decide

end SemanticLayer.Calculation.Expression
