import SemanticLayer.Proofs.Sql.Words
import SemanticLayer.Sandbox
/-!
What the gate lets through, told by the shapes of the tokens.
-/
namespace SemanticLayer.Sandbox

open Sql (Token LexicalRules)
open Sql.LexicalRules (Lexes Reads)

variable {db : Database} {words : List String} {t : Token} {tokens before behind : List Token}
  {s : List Char}

/-- A token that neither ends a statement nor is a blocked word. -/
def Harmless (t : Token) : Prop :=
  t ≠ .sign ";" ∧ listed? blockedWords t = none

instance (t : Token) : Decidable (Harmless t) :=
  inferInstanceAs (Decidable (_ ∧ _))

/-- The tokens of a list that are no gaps. -/
def withoutGaps (tokens : List Token) : List Token :=
  tokens.filter (· ≠ .gap)

@[simp] theorem withoutGaps_append (before behind : List Token) :
    withoutGaps (before ++ behind) = withoutGaps before ++ withoutGaps behind :=
  List.filter_append _ _

theorem withoutGaps_cons (ht : t ≠ .gap) : withoutGaps (t :: tokens) = t :: withoutGaps tokens :=
  List.filter_cons_of_pos (by simpa using ht)

theorem mem_withoutGaps : t ∈ withoutGaps tokens ↔ t ∈ tokens ∧ t ≠ .gap := by
  simp [withoutGaps]

/-! ## Shapes -/

/-- The words of a list begin with letters, not with the signs that some names begin with. -/
def Lettered (words : List String) : Prop :=
  ∀ w ∈ words, w.toList.head?.map Char.toLower ∉ [none, some '@', some '#']

instance (words : List String) : Decidable (Lettered words) :=
  inferInstanceAs (Decidable (∀ w ∈ words, _))

theorem Lettered.listed?_eq_none {name : String} (hwords : Lettered words)
    (hname : name.toList.head?.map Char.toLower ∈ [none, some '@', some '#']) :
    listed? words (.word name none) = none := by
  rw [listed?, List.find?_eq_none]
  intro w hw hsame
  have hmap : w.toList.map Char.toLower = name.toList.map Char.toLower := by
    simpa [Text.sameLetters] using hsame
  refine hwords w hw ?_
  rwa [← List.head?_map, hmap, List.head?_map]

theorem Lettered.listed?_shape (hwords : Lettered words) (t : Token) :
    listed? words t.shape = listed? words t := by
  cases t with
  | word name quote =>
      cases quote with
      | none =>
          rw [Token.shape]
          split
          · rename_i hname
            rw [hwords.listed?_eq_none (by decide), hwords.listed?_eq_none]
            rcases hname with hname | hname
            · rw [hname]
              decide
            · rw [hname]
              decide
          · rfl
      | some quote => rfl
  | _ => rfl

theorem listed?_blockedWords_shape (t : Token) : listed? blockedWords t.shape = listed? blockedWords t :=
  Lettered.listed?_shape (by decide) t

theorem listed?_openingWords_shape (t : Token) : listed? openingWords t.shape = listed? openingWords t :=
  Lettered.listed?_shape (by decide) t

/-! ## The checks -/

theorem checkRest_cons (ht : t ≠ .sign ";") :
    checkRest (t :: tokens) = .ok () ↔ listed? blockedWords t = none ∧ checkRest tokens = .ok () := by
  rw [checkRest]
  · cases listed? blockedWords t <;> simp
  · exact ht

/-- Where tokens are behind, none of those before ends the statement. -/
theorem checkRest_append (hbehind : behind ≠ []) :
    checkRest (before ++ behind) = .ok () ↔
      (∀ t ∈ before, Harmless t) ∧ checkRest behind = .ok () := by
  induction before with
  | nil => simp
  | cons t before ih =>
      by_cases ht : t = .sign ";"
      · subst ht
        simp [checkRest, Harmless, hbehind]
      · rw [List.cons_append, checkRest_cons ht, ih]
        simp [Harmless, ht, and_assoc]

theorem checkRest_of_harmless (h : ∀ t ∈ tokens, Harmless t) : checkRest tokens = .ok () := by
  induction tokens with
  | nil => rfl
  | cons t tokens ih =>
      have ht := h t (by simp)
      exact (checkRest_cons ht.1).2 ⟨ht.2, ih fun u hu => h u (by simp [hu])⟩

theorem checkRest_harmless_append (h : ∀ t ∈ before, Harmless t) :
    checkRest (before ++ tokens) = .ok () ↔ checkRest tokens = .ok () := by
  induction before with
  | nil => rfl
  | cons t before ih =>
      have ht := h t (by simp)
      rw [List.cons_append, checkRest_cons ht.1, ih fun u hu => h u (by simp [hu])]
      exact and_iff_right ht.2

theorem harmless_of_checkRest (h : checkRest tokens = .ok ()) (hsemicolon : .sign ";" ∉ tokens) :
    ∀ t ∈ tokens, Harmless t := by
  induction tokens with
  | nil => simp
  | cons t tokens ih =>
      rw [List.mem_cons, not_or] at hsemicolon
      obtain ⟨ht, hrest⟩ := (checkRest_cons fun heq => hsemicolon.1 heq.symm).1 h
      intro u hu
      rcases List.mem_cons.1 hu with rfl | hu
      · exact ⟨fun heq => hsemicolon.1 heq.symm, ht⟩
      · exact ih hrest hsemicolon.2 u hu

theorem checkTokens_cons (ht : (listed? openingWords t).isSome) :
    checkTokens (t :: tokens) = checkRest tokens := by
  rw [checkTokens, if_pos ht]

theorem opening_of_checkTokens (h : checkTokens tokens = .ok ()) :
    ∃ t rest, tokens = t :: rest ∧ (listed? openingWords t).isSome ∧ checkRest rest = .ok () := by
  cases tokens with
  | nil => simp [checkTokens] at h
  | cons t rest =>
      rw [checkTokens] at h
      split at h
      · exact ⟨t, rest, rfl, ‹_›, h⟩
      · simp at h

/-- No opening word is blocked. -/
theorem harmless_of_opening (ht : (listed? openingWords t).isSome) : Harmless t := by
  have hapart : ∀ w ∈ openingWords, ∀ b ∈ blockedWords,
      b.toList.map Char.toLower ≠ w.toList.map Char.toLower := by decide
  cases t with
  | word name quote =>
      cases quote with
      | none =>
          refine ⟨by simp, ?_⟩
          obtain ⟨w, hw⟩ := Option.isSome_iff_exists.1 ht
          rw [listed?] at hw
          have hname : w.toList.map Char.toLower = name.toList.map Char.toLower := by
            simpa [Text.sameLetters] using List.find?_some hw
          rw [listed?, List.find?_eq_none]
          intro b hb hsame
          refine hapart w (List.mem_of_find?_eq_some hw) b hb ?_
          rw [hname]
          simpa [Text.sameLetters] using hsame
      | some quote => simp [listed?] at ht
  | _ => simp [listed?] at ht

theorem checkRest_shape (tokens : List Token) :
    checkRest (tokens.map Token.shape) = checkRest tokens := by
  induction tokens with
  | nil => rfl
  | cons t tokens ih =>
      by_cases ht : t = .sign ";"
      · subst ht
        simp [checkRest, Token.shape]
      · have ht' : t.shape ≠ .sign ";" := fun h => ht (Token.shape_eq_sign_iff.1 h)
        rw [List.map_cons, checkRest, checkRest, ih, listed?_blockedWords_shape]
        · exact ht
        · exact ht'

theorem checkTokens_shape (tokens : List Token) :
    checkTokens (tokens.map Token.shape) = checkTokens tokens := by
  cases tokens with
  | nil => rfl
  | cons t tokens =>
      rw [List.map_cons, checkTokens, checkTokens, listed?_openingWords_shape, checkRest_shape]

theorem withoutGaps_shape (tokens : List Token) :
    withoutGaps (tokens.map Token.shape) = (withoutGaps tokens).map Token.shape := by
  unfold withoutGaps
  rw [List.filter_map]
  congr 2
  funext t
  simp [Token.shape_eq_gap_iff]

/-! ## Statements -/

theorem significant_eq_ok_iff_lexes : significant db s = .ok tokens ↔
    ∃ all, Lexes (LexicalRules.ofDatabase db) .gap s all ∧ withoutGaps all = tokens := by
  unfold significant
  constructor
  · intro h
    cases hlexemes : (LexicalRules.ofDatabase db).lexemes s with
    | error fault => simp [hlexemes] at h
    | ok ls =>
        rw [hlexemes] at h
        exact ⟨_, (LexicalRules.lexemes_eq_ok_iff s _).1 ⟨ls, hlexemes, rfl⟩, Except.ok.inj h⟩
  · rintro ⟨all, hall, rfl⟩
    obtain ⟨ls, hls, rfl⟩ := (LexicalRules.lexemes_eq_ok_iff s all).2 hall
    rw [hls]
    rfl

theorem significant_eq_ok_iff (db : Database) (s : List Char) (tokens : List Token) :
    (∃ found, significant db s = .ok found ∧ found.map Token.shape = tokens) ↔
      ∃ all, Reads (LexicalRules.ofDatabase db) .gap s all ∧ withoutGaps all = tokens := by
  constructor
  · rintro ⟨found, hfound, rfl⟩
    obtain ⟨all, hall, rfl⟩ := significant_eq_ok_iff_lexes.1 hfound
    exact ⟨all.map Token.shape, hall.reads, withoutGaps_shape all⟩
  · rintro ⟨shapes, hshapes, rfl⟩
    have hgap : Token.gap.shape = .gap := rfl
    obtain ⟨all, hall, rfl⟩ := hshapes.exists_lexes hgap
    exact ⟨withoutGaps all, significant_eq_ok_iff_lexes.2 ⟨all, hall, rfl⟩, (withoutGaps_shape all).symm⟩

/-- Whether the tokens of a text pass the checks. -/
def Passes (db : Database) (s : List Char) : Prop :=
  ∃ tokens, Reads (LexicalRules.ofDatabase db) .gap s tokens ∧ checkTokens (withoutGaps tokens) = .ok ()

theorem passes_iff (db : Database) (s : List Char) :
    Passes db s ↔ ∃ found, significant db s = .ok found ∧ checkTokens found = .ok () := by
  constructor
  · rintro ⟨all, hall, hcheck⟩
    obtain ⟨found, hfound, hshape⟩ := (significant_eq_ok_iff db s _).2 ⟨all, hall, rfl⟩
    rw [← hshape, checkTokens_shape] at hcheck
    exact ⟨found, hfound, hcheck⟩
  · rintro ⟨found, hfound, hcheck⟩
    obtain ⟨all, hall, hshape⟩ := (significant_eq_ok_iff db s _).1 ⟨found, hfound, rfl⟩
    exact ⟨all, hall, by rw [hshape, checkTokens_shape, hcheck]⟩

theorem validate_eq_ok_iff {sql r : String} :
    validate db sql = .ok r ↔ Passes db (Statement.withoutSemicolons sql.toList) ∧
      String.ofList (Statement.withoutSemicolons sql.toList) = r := by
  unfold validate
  rw [passes_iff]
  dsimp only
  split
  · rename_i hempty
    rw [List.isEmpty_iff.1 hempty]
    simp [significant, LexicalRules.lexemes, LexicalRules.lexemesFrom, checkTokens]
  · constructor
    · intro h
      obtain ⟨found, hfound, h⟩ := bind_eq_ok_iff.1 h
      obtain ⟨hcheck, h⟩ := bind_unit_eq_ok_iff.1 h
      exact ⟨⟨found, hfound, hcheck⟩, pure_eq_ok_iff.1 h⟩
    · rintro ⟨⟨found, hfound, hcheck⟩, h⟩
      exact bind_eq_ok_iff.2 ⟨found, hfound, bind_unit_eq_ok_iff.2 ⟨hcheck, pure_eq_ok_iff.2 h⟩⟩

/-- The gate looks at shapes only. -/
theorem validate_ok_iff (db : Database) (sql : String) :
    (∃ r, validate db sql = .ok r) ↔ Passes db (Statement.withoutSemicolons sql.toList) := by
  simp [validate_eq_ok_iff]

end SemanticLayer.Sandbox
