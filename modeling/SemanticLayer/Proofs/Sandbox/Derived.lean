import SemanticLayer.Proofs.Sandbox.Insertion
import SemanticLayer.Proofs.Sql.Stripping
/-!
A T-SQL query inside a derived table: what stands in front of it and behind it is harmless, so the gate makes of
the whole what it makes of the query with a parenthesis behind it.
-/
namespace SemanticLayer.Sandbox

open Sql (Token LexicalRules)
open Sql.LexicalRules

variable {stage : Stage} {previous t : Token} {tokens : List Token} {s u v x y y' : List Char}

/-! ## Behind the opening word -/

/-- Whether the tokens behind a token pass the checks behind the opening word. -/
def Follows (previous : Token) (x : List Char) : Prop :=
  ∃ tokens, Reads mssql previous x tokens ∧ checkRest (withoutGaps tokens) = .ok ()

theorem follows_iff {p : List Token → Prop} {front : List Token}
    (h : ∀ m, Reads mssql previous x m ↔ ∃ more, p more ∧ m = front ++ more) :
    Follows previous x ↔ ∃ more, p more ∧ checkRest (withoutGaps (front ++ more)) = .ok () := by
  unfold Follows
  simp only [h]
  constructor
  · rintro ⟨_, ⟨more, hmore, rfl⟩, hcheck⟩
    exact ⟨more, hmore, hcheck⟩
  · rintro ⟨more, hmore, hcheck⟩
    exact ⟨_, ⟨more, hmore, rfl⟩, hcheck⟩

/-- A text that opens as a statement does. -/
theorem passes_iff_follows {w : String} (hw : w ∈ openingWords) (hx : Spaced x) :
    Passes .mssql (w.toList ++ x) ↔ Follows .gap (w.toList ++ x) := by
  have hwords : ∀ w ∈ openingWords, w.toList ≠ [] ∧ w.toList.all isPlain = true ∧
      (listed? openingWords (.word w none)).isSome = true := by decide
  obtain ⟨hempty, hplain, hopening⟩ := hwords w hw
  refine exists_congr fun tokens => and_congr_right fun hreads => ?_
  obtain ⟨more, -, rfl⟩ := (@reads_word .mssql .gap x tokens w hempty hplain hx.apart.head).1 hreads
  rw [withoutGaps, List.filter_cons_of_pos (by simp), checkTokens_cons hopening,
    checkRest_cons (by simp)]
  exact (and_iff_right (harmless_of_opening hopening).2).symm

/-! ## What closes a query -/

/-- A text that may be put behind a query: it ends what the query leaves open, or is taken along with it. -/
structure Closing (y : List Char) : Prop where
  inert : Inert y
  trailing : Trailing mssql y
  head : (∃ z, y = ')' :: z ∧ Spaced z ∧ Calm mssql z) ∨ ∃ z, y = ' ' :: z
  last : y.getLast?.any Statement.isClosing = false

theorem Closing.apart (hy : Closing y) : Apart mssql y := by
  rcases hy.head with ⟨z, rfl, -, -⟩ | ⟨z, rfl⟩
  · exact apart_parenthesis z
  · exact apart_space z

theorem Closing.ne_nil (hy : Closing y) : y ≠ [] := by
  rcases hy.head with ⟨z, rfl, -, -⟩ | ⟨z, rfl⟩ <;> simp

/-- What a stage makes of it, unless the stage is deep inside a token. -/
theorem Closing.reads_stage (hy : Closing y) (hvalid : stage.Valid mssql) :
    (∃ more, stage.Reads mssql y more ∧ (∀ t ∈ more, Harmless t) ∧ withoutGaps more ≠ []) ∨
      ∃ e : Ending, stage = .inside e ∧ e.Deep := by
  cases stage with
  | between p => exact .inl (hy.trailing p)
  | inside e =>
      rcases hvalid.1.cases hvalid.2 with hdeep | rfl | ⟨sign, hsign, rfl⟩
      · exact .inr ⟨e, rfl, hdeep⟩
      · left
        obtain ⟨tokens, hreads, hharmless, hempty⟩ := hy.trailing .gap
        have hafter : Ending.carriage.after mssql y = some (.gap, y) := by
          rcases hy.head with ⟨z, rfl, -, -⟩ | ⟨z, rfl⟩ <;> rfl
        refine ⟨.gap :: tokens, (Stage.reads_inside_iff hafter).2 ⟨tokens, hreads, rfl⟩, ?_, hempty⟩
        simpa using ⟨by decide, hharmless⟩
      · left
        rcases hy.head with ⟨z, rfl, hz, hcalm⟩ | ⟨z, rfl⟩
        · have hafter : (Ending.signed sign).after mssql (')' :: z) = some (.word "" none, z) := by
            rcases hz.cases with rfl | ⟨v, rfl⟩ <;> rfl
          obtain ⟨tokens, hreads, hharmless⟩ := hcalm (.word "" none)
          refine ⟨.word "" none :: tokens, (Stage.reads_inside_iff hafter).2 ⟨tokens, hreads, rfl⟩, ?_, ?_⟩
          · simpa using ⟨by decide, hharmless⟩
          · simp [withoutGaps]
        · have hafter : (Ending.signed sign).after mssql (' ' :: z) = some (.sign sign, ' ' :: z) := rfl
          obtain ⟨tokens, hreads, hharmless, -⟩ := hy.trailing (.sign sign)
          refine ⟨.sign sign :: tokens, (Stage.reads_inside_iff hafter).2 ⟨tokens, hreads, rfl⟩, ?_, ?_⟩
          · have hnames : ∀ sign ∈ nameSigns, Harmless (.sign sign) := by decide
            simpa using ⟨hnames sign hsign, hharmless⟩
          · simp [withoutGaps]

/-- It does not matter which of these texts closes a query. -/
theorem Closing.exchange (hy : Closing y) (hy' : Closing y') (previous : Token) (u : List Char) :
    Follows previous (u ++ y) ↔ Follows previous (u ++ y') := by
  obtain ⟨done, stage, hvalid, hstage⟩ := @reads_append mssql previous u (by simp [mssql])
  rw [follows_iff (hstage y hy.apart), follows_iff (hstage y' hy'.apart)]
  by_cases hdeep : ∃ e : Ending, stage = .inside e ∧ e.Deep
  · obtain ⟨e, rfl, he⟩ := hdeep
    have hsettle {z : List Char} (hz : Closing z) (m : List Token) : (Stage.inside e).Reads mssql z m ↔
        (Stage.inside e.settle).Reads mssql [] m := by
      rw [← Stage.reads_settle he hz.inert hz.ne_nil, List.append_nil]
    simp only [hsettle hy, hsettle hy']
  · have hall {z : List Char} (hz : Closing z) :
        (∃ more, stage.Reads mssql z more ∧ checkRest (withoutGaps (done ++ more)) = .ok ()) ↔
          ∀ t ∈ withoutGaps done, Harmless t := by
      obtain ⟨more, hmore, hharmless, hempty⟩ := (hz.reads_stage hvalid).resolve_right hdeep
      have hrest : checkRest (withoutGaps more) = .ok () :=
        checkRest_of_harmless fun t ht => hharmless t (mem_withoutGaps.1 ht).1
      constructor
      · rintro ⟨more', hmore', h⟩
        rw [← Stage.reads_unique hmore hmore', withoutGaps_append, checkRest_append hempty] at h
        exact h.1
      · intro h
        refine ⟨more, hmore, ?_⟩
        rw [withoutGaps_append, checkRest_append hempty]
        exact ⟨h, hrest⟩
    rw [hall hy, hall hy']

theorem inert_append (hs : s.all isInert = true) (hx : Inert x) (hempty : x ≠ []) : Inert (s ++ x) := by
  obtain ⟨hall, hlast⟩ := hx
  refine ⟨by rw [List.all_append, hs, hall]; rfl, ?_⟩
  rwa [List.getLast?_append_of_ne_nil _ hempty]

theorem inert_number (n : Nat) : Inert (toString n).toList := by
  have hmarks : ['\'', '"', ']', '$', '/', '\n', '\\'].any Char.isDigit = false := by decide
  refine ⟨List.all_eq_true.2 fun d hd => ?_, fun hlast => ?_⟩
  · have hdigit := isDigit_of_mem_number hd
    rw [isInert, Bool.not_eq_true', ← Bool.not_eq_true]
    intro hmem
    exact List.any_eq_false.1 hmarks d (by simpa using hmem) hdigit
  · exact absurd (isDigit_of_mem_number (List.mem_of_getLast? hlast)) (by decide)

theorem closing_parenthesis : Closing [')'] where
  inert := by decide
  trailing := @Calm.parenthesis .mssql [] .nil
  head := .inl ⟨[], rfl, by simp [Spaced], .nil⟩
  last := by decide

theorem closing_result : Closing ") AS __result".toList where
  inert := by decide
  trailing := trailing_result
  head := .inl ⟨" AS __result".toList, rfl, by simp [Spaced], trailing_alias.calm⟩
  last := by decide

theorem closing_fetch (n : Nat) :
    Closing (" OFFSET 0 ROWS FETCH NEXT " ++ toString n ++ " ROWS ONLY").toList where
  inert := by
    rw [String.toList_append, String.toList_append, List.append_assoc]
    exact inert_append (by decide) (inert_append (inert_number n).1 (by decide) (by decide)) (by simp)
  trailing := by
    have htext : (" OFFSET 0 ROWS FETCH NEXT " ++ toString n ++ " ROWS ONLY").toList =
        ' ' :: ("OFFSET 0 ROWS FETCH NEXT " ++ toString n ++ " ROWS ONLY").toList := by simp
    rw [htext]
    exact (trailing_fetch n).space
  head := .inr ⟨_, by simp; rfl⟩
  last := by
    rw [String.toList_append, List.getLast?_append_of_ne_nil _ (by simp)]
    decide

/-! ## What opens a derived table -/

/-- A text that does not begin with a gap. -/
def Solid (v : List Char) : Prop :=
  ∀ previous tokens, Reads mssql previous v tokens → withoutGaps tokens ≠ []

theorem solid_word {w : String} (hw : w.toList ≠ []) (hplain : w.toList.all isPlain = true)
    (hx : Spaced x) : Solid (w.toList ++ x) := by
  intro previous tokens h
  obtain ⟨more, -, rfl⟩ := (@reads_word .mssql previous x tokens w hw hplain hx.apart.head).1 h
  simp [withoutGaps]

theorem solid_parenthesis (x : List Char) : Solid ('(' :: x) := by
  intro previous tokens h
  obtain ⟨more, -, rfl⟩ := (@reads_sign .mssql previous '(' x tokens (by simp)).1 h
  simp [withoutGaps]

/-- The tokens of a derived table are those of the query in it, behind harmless ones. -/
theorem reads_derived (n : Nat) (v : List Char) :
    Reads mssql previous (derivedFront n ++ v) tokens ↔
      ∃ more, Reads mssql .gap v more ∧ tokens = .word "SELECT" none :: derivedTokens n ++ more := by
  have hspells : Spells mssql _ _ _ := spells_derived n
  have hcongr (m : List Token) : Reads mssql (.sign "(") v m ↔ Reads mssql .gap v m :=
    Reads.congr rfl (by simp)
  rw [hspells]
  simp only [hcongr]

theorem reads_space_derived (n : Nat) (v : List Char) (m : List Token) :
    Reads mssql previous (' ' :: (derivedFront n ++ v)) m ↔
      ∃ more, Reads mssql .gap v more ∧ m = .gap :: .word "SELECT" none :: derivedTokens n ++ more := by
  have hfront (m : List Token) := @reads_derived .gap m n v
  rw [reads_plainGap rfl]
  have hgap := @exists_append_iff _ _ [.gap] _ hfront m
  exact hgap

/-- What opens a derived table is harmless, also behind common table expressions. -/
theorem follows_derived (hv : Solid v) (n : Nat) (previous : Token) (u : List Char) :
    Follows previous (u ++ ' ' :: (derivedFront n ++ v)) ↔
      Follows previous (u ++ ' ' :: v) := by
  have hspace (x : List Char) : Spaced (' ' :: x) := by simp [Spaced]
  obtain ⟨done, stage, hreads, hstage⟩ := reads_append_spaced previous u
  rw [follows_iff (hreads _ (hspace _)), follows_iff (hreads _ (hspace _))]
  rcases hstage with ⟨p, rfl⟩ | ⟨e, rfl, hdeep⟩
  · -- harmless tokens in front of the query change nothing
    have hbehind {front : List Token} (hfront : ∀ t ∈ front, Harmless t) {x : List Char}
        (h : ∀ m, Reads mssql p x m ↔ ∃ more, Reads mssql .gap v more ∧ m = front ++ more) :
        (∃ more, (Stage.between p).Reads mssql x more ∧
            checkRest (withoutGaps (done ++ more)) = .ok ()) ↔
          ∃ more, Reads mssql .gap v more ∧ (∀ t ∈ withoutGaps done, Harmless t) ∧
            checkRest (withoutGaps more) = .ok () := by
      have hcheck {more : List Token} (hmore : Reads mssql .gap v more) :
          checkRest (withoutGaps (done ++ (front ++ more))) = .ok () ↔
            (∀ t ∈ withoutGaps done, Harmless t) ∧ checkRest (withoutGaps more) = .ok () := by
        rw [withoutGaps_append, withoutGaps_append, checkRest_append (by simp [hv _ _ hmore]),
          checkRest_harmless_append fun t ht => hfront t (mem_withoutGaps.1 ht).1]
      constructor
      · rintro ⟨_, hreads, hpass⟩
        obtain ⟨more, hmore, rfl⟩ := (h _).1 hreads
        exact ⟨more, hmore, (hcheck hmore).1 hpass⟩
      · rintro ⟨more, hmore, hpass⟩
        exact ⟨_, (h _).2 ⟨more, hmore, rfl⟩, (hcheck hmore).2 hpass⟩
    have hderived : ∀ t ∈ .gap :: .word "SELECT" none :: derivedTokens n, Harmless t := by
      simp only [List.forall_mem_cons]
      exact ⟨by decide, by decide, derivedTokens_harmless n⟩
    have hgap (m : List Token) : Reads mssql p (' ' :: v) m ↔ ∃ more, Reads mssql .gap v more ∧
        m = [.gap] ++ more := reads_plainGap rfl
    rw [hbehind hderived fun m => reads_space_derived n v m, hbehind (by decide) hgap]
  · have hinert : Inert (' ' :: derivedFront n) := by
      have hfront : ' ' :: derivedFront n =
          " SELECT TOP ".toList ++ ((toString n).toList ++ " * FROM (".toList) := by simp [derivedFront]
      rw [hfront]
      exact inert_append (by decide) (inert_append (inert_number n).1 (by decide) (by decide)) (by simp)
    rw [← List.cons_append, ← List.singleton_append (l := v)]
    simp only [Stage.reads_settle hdeep hinert (by simp), Stage.reads_settle hdeep (show Inert [' '] by decide)
      (by simp)]

theorem passes_derived (n : Nat) {x : List Char} (hx : v = "SELECT".toList ++ ' ' :: x) :
    Passes .mssql (derivedFront n ++ v) ↔ Passes .mssql v := by
  have hselect : Passes .mssql v ↔ Follows .gap v := by
    rw [hx]
    exact passes_iff_follows (by decide) (by simp [Spaced])
  have hcheck (more : List Token) :
      checkTokens (withoutGaps (.word "SELECT" none :: derivedTokens n ++ more)) =
        .ok () ↔ checkRest (withoutGaps more) = .ok () := by
    have hopening : (listed? openingWords (.word "SELECT" none)).isSome = true := by decide
    rw [List.cons_append, withoutGaps, List.filter_cons_of_pos (by simp), checkTokens_cons hopening,
      ← withoutGaps, withoutGaps_append]
    exact checkRest_harmless_append fun t ht => derivedTokens_harmless n t (mem_withoutGaps.1 ht).1
  rw [hselect]
  constructor
  · rintro ⟨_, hreads, hpass⟩
    obtain ⟨more, hmore, rfl⟩ := (reads_derived n v).1 hreads
    exact ⟨more, hmore, (hcheck more).1 hpass⟩
  · rintro ⟨more, hmore, hpass⟩
    exact ⟨_, (reads_derived n v).2 ⟨more, hmore, rfl⟩, (hcheck more).2 hpass⟩

end SemanticLayer.Sandbox
