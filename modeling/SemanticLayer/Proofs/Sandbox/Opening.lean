import SemanticLayer.Proofs.Sandbox.RowLimit
import SemanticLayer.Proofs.Sandbox.Verdict
import SemanticLayer.Proofs.Sql.Written
/-!
How the text of an accepted statement begins: with its opening word, or with a comment in front of that.
-/
namespace SemanticLayer

namespace Text

variable {c : Char} {w v : List Char}

theorem isAlpha_of_toLower (h : c.toLower.isAlpha = true) : c.isAlpha = true := by
  by_cases hupper : c.isUpper = true
  · simp [Char.isAlpha, hupper]
  · rwa [Char.toLower, dif_neg (by simpa [Char.isUpper] using hupper)] at h

theorem isBlank_of_isAlpha (h : c.isAlpha = true) : isBlank c = false := by
  have hrange : (65 ≤ c.toNat ∧ c.toNat ≤ 90) ∨ (97 ≤ c.toNat ∧ c.toNat ≤ 122) := by
    simpa [Char.isAlpha, Char.isUpper, Char.isLower, UInt32.le_iff_toNat_le] using h
  simp only [isBlank, Bool.or_eq_false_iff, Bool.and_eq_false_iff, decide_eq_false_iff_not,
    beq_eq_false_iff_ne]
  omega

theorem isAlpha_of_map_toLower (h : w.map Char.toLower = v) (hv : v.all Char.isAlpha = true) :
    ∀ c ∈ w, c.isAlpha = true := by
  intro c hc
  refine isAlpha_of_toLower (List.all_eq_true.1 hv _ ?_)
  rw [← h]
  exact List.mem_map_of_mem hc

end Text

namespace Sandbox

open Sql (Token LexicalRules)
open Sql.LexicalRules

variable {db : Database} {sql s name : String}

/-- The first character and the first token of an accepted statement. -/
theorem exists_lexes_of_validate (hs : validate db sql = .ok s) :
    ∃ c rest t left tokens, s.toList = c :: rest ∧ Text.isBlank c = false ∧ Told s.toList t left ∧
      Lexes (ofDatabase db) .gap s.toList (t :: tokens) ∧ ReadsOnly (withoutGaps (t :: tokens)) := by
  obtain ⟨hpasses, hfirm⟩ := passes_of_validate hs
  obtain ⟨found, hfound, hcheck⟩ := (passes_iff db s.toList).1 hpasses
  obtain ⟨all, hall, rfl⟩ := significant_eq_ok_iff_lexes.1 hfound
  obtain ⟨c, rest, hcons⟩ := List.exists_cons_of_ne_nil hfirm.ne_nil
  have hblank : Text.isBlank c = false := by
    have hhead := hfirm.head
    rwa [hcons] at hhead
  rw [hcons] at hall ⊢
  cases hall with
  | cons hscan hmore =>
      exact ⟨c, rest, _, _, _, rfl, hblank, tells_scan _ _ _ _ _ _ hscan, .cons hscan hmore,
        checkTokens_eq_ok_iff.1 hcheck⟩

theorem toLower_head_of_isOneOf {rest left : List Char} {c : Char}
    (ht : IsOneOf ["SELECT", "WITH"] (.word name none)) (h : c :: rest = name.toList ++ left) :
    c.toLower ∈ ['s', 'w'] := by
  obtain ⟨_, ⟨rfl⟩, w, hw, hmap⟩ := ht
  have hwords : ∀ w ∈ ["SELECT", "WITH"], (w.toList.map Char.toLower).head? ∈ [some 's', some 'w'] := by
    decide
  have hhead := hwords w hw
  rw [hmap] at hhead
  cases hname : name.toList with
  | nil => simp [hname] at hhead
  | cons d more =>
      rw [hname, List.cons_append] at h
      obtain ⟨rfl, -⟩ := List.cons.inj h
      simpa [hname] using hhead

/-- The first character of an accepted statement belongs to a comment or to the opening word. -/
theorem exists_head_of_validate (hs : validate db sql = .ok s) :
    ∃ c rest, s.toList = c :: rest ∧ Text.isBlank c = false ∧
      (c ∈ ['-', '#', '/'] ∨ c.toLower ∈ ['s', 'w']) := by
  obtain ⟨c, rest, t, left, tokens, hcons, hblank, htold, -, hreads⟩ := exists_lexes_of_validate hs
  refine ⟨c, rest, hcons, hblank, ?_⟩
  rw [hcons] at htold
  by_cases hgap : t = .gap
  · obtain ⟨d, hd, hbegins⟩ := htold.gap hgap
    obtain rfl : c = d := by simpa using hd
    exact .inl (hbegins.resolve_left (by simp [hblank]))
  · obtain ⟨t', others, hothers, ht'⟩ := hreads.opening
    rw [withoutGaps_cons hgap] at hothers
    obtain ⟨rfl, -⟩ := List.cons.inj hothers
    obtain ⟨name, rfl, hname⟩ := ht'
    exact .inr (toLower_head_of_isOneOf ⟨name, rfl, hname⟩ (htold.word name rfl))

end Sandbox

end SemanticLayer
