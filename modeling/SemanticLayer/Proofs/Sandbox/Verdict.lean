import SemanticLayer.Proofs.Sandbox.Gate
import SemanticLayer.Proofs.Sql.Stripping
/-!
What decides whether a statement passes the gate: its words without quotes, and what stands behind a semicolon. What
texts, quoted names and comments say has no part in it.
-/
namespace SemanticLayer

namespace Statement

variable {s t u : List Char}

/-- A text without the blanks around it and the blanks and semicolons at its end is another one. -/
def CutsTo (s t : List Char) : Prop :=
  ∃ front back, s = front ++ t ++ back ∧ (∀ c ∈ front, Text.isBlank c = true) ∧
    (∀ c ∈ back, Text.isBlank c = true ∨ c = ';') ∧
    (∀ c ∈ t.head?, Text.isBlank c = false) ∧ ∀ c ∈ t.getLast?, Text.isBlank c = false ∧ c ≠ ';'

theorem isClosing_iff {c : Char} : isClosing c = true ↔ Text.isBlank c = true ∨ c = ';' := by
  simp [isClosing]

theorem isClosing_eq_false_iff {c : Char} : isClosing c = false ↔ Text.isBlank c = false ∧ c ≠ ';' := by
  simp [isClosing]

theorem cutsTo_withoutSemicolons (s : List Char) : CutsTo s (withoutSemicolons s) := by
  refine ⟨s.takeWhile Text.isBlank, (s.dropWhile Text.isBlank).rtakeWhile isClosing, ?_, ?_, ?_, ?_, ?_⟩
  · rw [withoutSemicolons_eq, List.append_assoc, List.rdropWhile_append_rtakeWhile, List.takeWhile_append_dropWhile]
  · exact fun c hc => List.mem_takeWhile_imp hc
  · exact fun c hc => isClosing_iff.1 (List.mem_rtakeWhile_imp hc)
  · intro c hc
    have hne : withoutSemicolons s ≠ [] := by
      intro hempty
      simp [hempty] at hc
    have hhead := (firm_withoutSemicolons hne).head
    rwa [hc, Option.any_some] at hhead
  · intro c hc
    have hne : withoutSemicolons s ≠ [] := by
      intro hempty
      simp [hempty] at hc
    have hlast := (firm_withoutSemicolons hne).last
    rw [hc, Option.any_some] at hlast
    exact isClosing_eq_false_iff.1 hlast

/-- What is left has nothing more to cut off. -/
theorem CutsTo.self (h : CutsTo s t) : CutsTo t t := by
  obtain ⟨-, -, -, -, -, hhead, hlast⟩ := h
  exact ⟨[], [], by simp, by simp, by simp, hhead, hlast⟩

theorem CutsTo.firm (h : CutsTo s t) (hne : t ≠ []) : Firm t := by
  obtain ⟨front, back, -, -, -, hhead, hlast⟩ := h
  refine ⟨hne, ?_, ?_⟩
  · rw [List.head?_eq_some_head hne, Option.any_some]
    exact hhead _ (List.head?_eq_some_head hne)
  · rw [List.getLast?_eq_some_getLast hne, Option.any_some]
    exact isClosing_eq_false_iff.2 (hlast _ (List.getLast?_eq_some_getLast hne))

theorem cutsTo_iff : CutsTo s t ↔ withoutSemicolons s = t := by
  constructor
  · intro h
    by_cases hne : t = []
    · obtain ⟨front, back, rfl, hfront, hback, -, -⟩ := h
      subst hne
      rw [withoutSemicolons_eq, List.append_nil, List.dropWhile_append_of_pos hfront, List.rdropWhile_eq_nil_iff]
      intro c hc
      exact isClosing_iff.2 (hback c (List.dropWhile_subset _ hc))
    · have hfirm := h.firm hne
      obtain ⟨front, back, rfl, hfront, hback, -, -⟩ := h
      have hclosing : back.rdropWhile isClosing = [] :=
        List.rdropWhile_eq_nil_iff.2 fun c hc => isClosing_iff.2 (hback c hc)
      rw [withoutSemicolons_eq, List.append_assoc, List.dropWhile_append_of_pos hfront, hfirm.dropWhile,
        hfirm.rdropWhile, hclosing, List.append_nil]
  · rintro rfl
    exact cutsTo_withoutSemicolons s

end Statement

namespace Sandbox

open Sql (Token)

variable {db : Database} {words : List String} {t u : Token} {tokens others before behind : List Token}
  {sql : String}

/-! ## The checks as conditions on the tokens -/

/-- A token is one of the words without quotes, in letters of any case. -/
def IsOneOf (words : List String) (t : Token) : Prop :=
  ∃ name, t = .word name none ∧ ∃ w ∈ words, w.toList.map Char.toLower = name.toList.map Char.toLower

/-- No token stands behind a semicolon. -/
def SemicolonLast (tokens : List Token) : Prop :=
  ∀ before behind, tokens = before ++ .sign ";" :: behind → behind = []

/-- The tokens of one statement that reads. -/
structure ReadsOnly (tokens : List Token) : Prop where
  opening : ∃ t rest, tokens = t :: rest ∧ IsOneOf ["SELECT", "WITH"] t
  unblocked : ∀ t ∈ tokens, ¬IsOneOf blockedWords t
  single : SemicolonLast tokens

theorem isSome_listed?_iff : (listed? words t).isSome = true ↔ IsOneOf words t := by
  unfold listed? IsOneOf
  split
  · simp [Text.sameLetters]
  · rename_i hword
    constructor
    · simp
    · rintro ⟨name, rfl, -⟩
      exact absurd rfl (hword name)

theorem listed?_eq_none_iff : listed? words t = none ↔ ¬IsOneOf words t := by
  rw [← isSome_listed?_iff, Option.not_isSome_iff_eq_none]

theorem semicolonLast_cons (ht : t ≠ .sign ";") : SemicolonLast (t :: tokens) ↔ SemicolonLast tokens := by
  constructor
  · rintro h before behind rfl
    exact h (t :: before) behind rfl
  · rintro h (_ | ⟨b, before⟩) behind heq
    · exact absurd (List.cons.inj heq).1 ht
    · exact h before behind (List.cons.inj heq).2

theorem checkRest_eq_ok_iff :
    checkRest tokens = .ok () ↔ (∀ t ∈ tokens, ¬IsOneOf blockedWords t) ∧ SemicolonLast tokens := by
  induction tokens with
  | nil => simp [checkRest, SemicolonLast]
  | cons t tokens ih =>
      by_cases ht : t = .sign ";"
      · subst ht
        constructor
        · intro h
          obtain rfl : tokens = [] := by simpa [checkRest] using h
          refine ⟨by simp [IsOneOf], ?_⟩
          rintro (_ | ⟨b, before⟩) behind heq
          · exact (List.cons.inj heq).2.symm
          · simp at heq
        · rintro ⟨-, h⟩
          rw [h [] tokens rfl]
          rfl
      · rw [checkRest_cons ht, ih, listed?_eq_none_iff, semicolonLast_cons ht, List.forall_mem_cons, and_assoc]

theorem checkTokens_eq_ok_iff : checkTokens tokens = .ok () ↔ ReadsOnly tokens := by
  constructor
  · intro h
    obtain ⟨t, rest, rfl, hopening, hrest⟩ := opening_of_checkTokens h
    obtain ⟨hunblocked, hsingle⟩ := checkRest_eq_ok_iff.1 hrest
    obtain ⟨hsemicolon, hnone⟩ := harmless_of_opening hopening
    exact ⟨⟨t, rest, rfl, isSome_listed?_iff.1 hopening⟩,
      List.forall_mem_cons.2 ⟨listed?_eq_none_iff.1 hnone, hunblocked⟩, (semicolonLast_cons hsemicolon).2 hsingle⟩
  · rintro ⟨⟨t, rest, rfl, ht⟩, hunblocked, hsingle⟩
    have hopening : (listed? openingWords t).isSome = true := isSome_listed?_iff.2 ht
    rw [checkTokens_cons hopening, checkRest_eq_ok_iff]
    exact ⟨(List.forall_mem_cons.1 hunblocked).2, (semicolonLast_cons (harmless_of_opening hopening).1).1 hsingle⟩

/-! ## What is inside quotes -/

/-- Tokens that are the same but for what is inside quotes, and for the quotes. -/
inductive SameOutside : Token → Token → Prop
  | same (t : Token) : SameOutside t t
  | text (kind kind' : Sql.TextKind) (value value' : String) : SameOutside (.text kind value) (.text kind' value')
  | name (name name' : String) (quote quote' : Char) :
      SameOutside (.word name (some quote)) (.word name' (some quote'))

theorem SameOutside.listed? (h : SameOutside t u) (words : List String) : listed? words t = listed? words u := by
  cases h <;> rfl

theorem SameOutside.eq_sign (h : SameOutside t u) {sign : String} : t = .sign sign ↔ u = .sign sign := by
  cases h <;> simp

theorem checkRest_congr (h : List.Forall₂ SameOutside tokens others) : checkRest tokens = checkRest others := by
  induction h with
  | nil => rfl
  | @cons t u tokens others htu hrest ih =>
      by_cases ht : t = .sign ";"
      · obtain rfl := htu.eq_sign.1 ht
        subst ht
        cases hrest <;> rfl
      · have hu : u ≠ .sign ";" := fun hu => ht (htu.eq_sign.2 hu)
        rw [checkRest, checkRest, ih, htu.listed?]
        · exact hu
        · exact ht

theorem checkTokens_congr (h : List.Forall₂ SameOutside tokens others) :
    checkTokens tokens = checkTokens others := by
  cases h with
  | nil => rfl
  | cons htu hrest => rw [checkTokens, checkTokens, htu.listed?, checkRest_congr hrest]

/-! ## The verdict -/

/-- The significant tokens of the statement that a text holds. -/
def HoldsTokens (db : Database) (sql : String) (tokens : List Token) : Prop :=
  ∃ statement, Statement.CutsTo sql.toList statement ∧ significant db statement = .ok tokens

theorem significant_nil (db : Database) : significant db [] = .ok [] := by
  simp [significant, Sql.LexicalRules.lexemes, Sql.LexicalRules.lexemesFrom]

theorem map_validate (h : HoldsTokens db sql tokens) (hne : tokens ≠ []) :
    (validate db sql).map (fun _ => ()) = checkTokens tokens := by
  obtain ⟨statement, hcut, htokens⟩ := h
  obtain rfl := Statement.cutsTo_iff.1 hcut
  unfold validate
  dsimp only
  split
  · rename_i hempty
    rw [List.isEmpty_iff.1 hempty, significant_nil] at htokens
    exact absurd (Except.ok.inj htokens).symm hne
  · rw [htokens, ok_bind]
    cases checkTokens tokens <;> rfl

theorem exists_validate_iff (h : HoldsTokens db sql tokens) :
    (∃ r, validate db sql = .ok r) ↔ checkTokens tokens = .ok () := by
  obtain ⟨statement, hcut, htokens⟩ := h
  obtain rfl := Statement.cutsTo_iff.1 hcut
  rw [validate_ok_iff, passes_iff]
  simp [htokens]

/-- The gate lets a text through if its statement reads, and gives the statement, which it lets through again. Texts
whose statements have the same tokens but for what is inside quotes get the same verdict, and where there is a
token at all, for the same reason. -/
theorem validate_by_words (db : Database) (sql : String) :
    (∀ r, validate db sql = .ok r ↔
      ∃ statement tokens, Statement.CutsTo sql.toList statement ∧ statement ≠ [] ∧
        significant db statement = .ok tokens ∧ ReadsOnly tokens ∧ r = String.ofList statement) ∧
    (∀ r, validate db sql = .ok r → validate db r = .ok r) ∧
    (∀ db' other tokens others, HoldsTokens db sql tokens → HoldsTokens db' other others →
      List.Forall₂ SameOutside tokens others →
        ((∃ r, validate db sql = .ok r) ↔ ∃ r, validate db' other = .ok r) ∧
        (tokens ≠ [] → (validate db sql).map (fun _ => ()) = (validate db' other).map fun _ => ())) := by
  refine ⟨?_, ?_, ?_⟩
  · intro r
    simp only [Statement.cutsTo_iff]
    rw [validate_eq_ok_iff, passes_iff]
    constructor
    · rintro ⟨⟨tokens, htokens, hcheck⟩, rfl⟩
      have hreads := checkTokens_eq_ok_iff.1 hcheck
      refine ⟨_, tokens, rfl, ?_, htokens, hreads, rfl⟩
      intro hempty
      obtain ⟨t, rest, rfl, -⟩ := hreads.opening
      rw [hempty, significant_nil] at htokens
      simp at htokens
    · rintro ⟨_, tokens, rfl, -, htokens, hreads, rfl⟩
      exact ⟨⟨tokens, htokens, checkTokens_eq_ok_iff.2 hreads⟩, rfl⟩
  · intro r hr
    obtain ⟨hpasses, rfl⟩ := validate_eq_ok_iff.1 hr
    have hself := Statement.cutsTo_iff.1 (Statement.cutsTo_withoutSemicolons sql.toList).self
    rw [validate_eq_ok_iff, String.toList_ofList, hself]
    exact ⟨hpasses, rfl⟩
  · intro db' other tokens others htokens hothers hsame
    have hcheck := checkTokens_congr hsame
    refine ⟨?_, ?_⟩
    · rw [exists_validate_iff htokens, exists_validate_iff hothers, hcheck]
    · intro hne
      have hne' : others ≠ [] := by
        rintro rfl
        exact hne (List.forall₂_nil_right_iff.1 hsame)
      rw [map_validate htokens hne, map_validate hothers hne', hcheck]

end Sandbox

end SemanticLayer
