import Mathlib.Data.List.DropRight
import SemanticLayer.Proofs.Sql.Inert
import SemanticLayer.Sql.Statement
/-!
What is left of a statement when the blanks around it and the semicolons behind it are cut off.
-/
namespace SemanticLayer.Statement

open Sql.LexicalRules (Spaced)

variable {s u v : List Char}

/-- A character that is cut off the end of a statement. -/
def isClosing (c : Char) : Bool :=
  Text.isBlank c || c == ';'

/-- A text of which nothing is cut off at the front or at the end. -/
structure Firm (u : List Char) : Prop where
  ne_nil : u ≠ []
  head : u.head?.any Text.isBlank = false
  last : u.getLast?.any isClosing = false

theorem withoutSemicolons_eq (s : List Char) :
    withoutSemicolons s = (s.dropWhile Text.isBlank).rdropWhile isClosing := by
  have hdrop (s : List Char) : dropClosing s = s.dropWhile isClosing := by
    induction s with
    | nil => rfl
    | cons c s ih =>
        rw [dropClosing, List.dropWhile_cons, ih]
        rfl
  rw [withoutSemicolons, hdrop]
  rfl

theorem Firm.dropWhile (hu : Firm u) (v : List Char) : (u ++ v).dropWhile Text.isBlank = u ++ v := by
  obtain ⟨c, u, rfl⟩ := List.exists_cons_of_ne_nil hu.ne_nil
  have hc : Text.isBlank c = false := hu.head
  rw [List.cons_append, List.dropWhile_cons_of_neg (by simp [hc])]

theorem Firm.rdropWhile (hu : Firm u) (v : List Char) :
    (u ++ v).rdropWhile isClosing = u ++ v.rdropWhile isClosing := by
  induction v using List.reverseRecOn with
  | nil =>
      rw [List.append_nil, List.rdropWhile_nil, List.append_nil, List.rdropWhile_eq_self_iff]
      intro hempty
      have hlast := hu.last
      rw [List.getLast?_eq_some_getLast hempty, Option.any_some] at hlast
      simp [hlast]
  | append_singleton v c ih =>
      rw [← List.append_assoc]
      by_cases hc : isClosing c = true
      · rw [List.rdropWhile_concat_pos _ _ _ hc, List.rdropWhile_concat_pos _ _ _ hc, ih]
      · rw [List.rdropWhile_concat_neg _ _ _ hc, List.rdropWhile_concat_neg _ _ _ hc, List.append_assoc]

theorem Firm.withoutSemicolons_append (hu : Firm u) (v : List Char) :
    withoutSemicolons (u ++ v) = u ++ v.rdropWhile isClosing := by
  rw [withoutSemicolons_eq, hu.dropWhile, hu.rdropWhile]

theorem Firm.withoutSemicolons (hu : Firm u) : withoutSemicolons u = u := by
  have h := hu.withoutSemicolons_append []
  rwa [List.append_nil, List.rdropWhile_nil, List.append_nil] at h

theorem Firm.append (hu : Firm u) (hempty : v ≠ []) (hlast : v.getLast?.any isClosing = false) :
    Firm (u ++ v) where
  ne_nil := by simp [hempty]
  head := by
    obtain ⟨c, u, rfl⟩ := List.exists_cons_of_ne_nil hu.ne_nil
    exact hu.head
  last := by rwa [List.getLast?_append_of_ne_nil _ hempty]

theorem spaced_rdropWhile (hv : Spaced v) : Spaced (v.rdropWhile isClosing) := by
  intro c hc
  obtain ⟨w, hw⟩ := List.rdropWhile_prefix isClosing v
  refine hv c ?_
  rw [← hw]
  cases hrest : v.rdropWhile isClosing with
  | nil => simp [hrest] at hc
  | cons d rest => rwa [hrest] at hc

theorem firm_withoutSemicolons (hs : withoutSemicolons s ≠ []) : Firm (withoutSemicolons s) := by
  rw [withoutSemicolons_eq] at hs ⊢
  refine ⟨hs, ?_, ?_⟩
  · obtain ⟨w, hw⟩ := List.rdropWhile_prefix isClosing (s.dropWhile Text.isBlank)
    have hblank := List.head?_dropWhile_not Text.isBlank s
    rw [← hw, List.head?_append_of_ne_nil _ hs] at hblank
    obtain ⟨c, rest, hrest⟩ := List.exists_cons_of_ne_nil hs
    rw [hrest] at hblank ⊢
    exact hblank
  · rw [List.getLast?_eq_some_getLast hs, Option.any_some, ← Bool.not_eq_true]
    exact List.rdropWhile_last_not isClosing _ hs

end SemanticLayer.Statement
