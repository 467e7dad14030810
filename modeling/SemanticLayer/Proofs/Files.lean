import Mathlib.Data.List.Forall2
import Mathlib.Data.String.Basic
import SemanticLayer.Files.Glob
import SemanticLayer.Proofs.Checks
/-!
What patterns find in a tree of files. A path without a wildcard is a pattern that leads where the path leads, and a star
in front of an ending finds what is in a folder under a name that ends so, in the order of the names.
-/
namespace SemanticLayer.Files

/-! ## Patterns without wildcards -/

/-- A text has none of the characters that a pattern begins a wildcard with. -/
def Plain (s : List Char) : Prop :=
  '*' ∉ s ∧ '?' ∉ s ∧ '[' ∉ s

instance (s : List Char) : Decidable (Plain s) :=
  inferInstanceAs (Decidable (_ ∧ _ ∧ _))

variable {s t : List Char} {c : Char} {steps position : Nat} {before : Option Char}

theorem plain_cons : Plain (c :: s) ↔ (c ≠ '*' ∧ c ≠ '?' ∧ c ≠ '[') ∧ Plain s := by
  simp only [Plain, List.mem_cons, not_or, ne_eq, eq_comm (a := c)]
  tauto

theorem Plain.subset (h : Plain s) (hsub : t ⊆ s) : Plain t :=
  ⟨fun hc => h.1 (hsub hc), fun hc => h.2.1 (hsub hc), fun hc => h.2.2 (hsub hc)⟩

theorem wildcards_plain_cons (h : c ≠ '*' ∧ c ≠ '?' ∧ c ≠ '[') :
    wildcards position before (c :: s) (steps + 1) =
      (wildcards (position + 1) (some c) s steps).map (.literal c :: ·) := by
  obtain ⟨hstar, hmark, hbracket⟩ := h
  rw [wildcards]
  all_goals simp_all

/-- Up to its first wildcard a pattern stands for itself. -/
theorem wildcards_plain_append (h : Plain s) (t : List Char) (position steps : Nat) (before : Option Char) :
    ∃ before', wildcards position before (s ++ t) (s.length + steps) =
      (wildcards (position + s.length) before' t steps).map (s.map .literal ++ ·) := by
  -- The character in front is looked at only before two stars, so any will do for what follows.
  induction s generalizing position before with
  | nil => exact ⟨before, by cases hw : wildcards position before t steps <;> simp [Except.map, hw]⟩
  | cons c s ih =>
      obtain ⟨hc, hs⟩ := plain_cons.1 h
      obtain ⟨before', hrest⟩ := ih hs (position + 1) (some c)
      refine ⟨before', ?_⟩
      rw [List.cons_append, List.length_cons, Nat.add_right_comm, wildcards_plain_cons hc, hrest,
        Nat.add_assoc, Nat.add_comm 1]
      cases wildcards (position + (s.length + 1)) before' t steps <;> rfl

theorem wildcards_plain (h : Plain s) : wildcards position before s s.length = .ok (s.map .literal) := by
  obtain ⟨before', heq⟩ := wildcards_plain_append h [] position 0 before
  rw [List.append_nil, Nat.add_zero] at heq
  rw [heq, wildcards]
  simp [Except.map]

/-- A star between plain texts stands for any characters. -/
theorem pattern_star {text : String} (htext : text.toList = s ++ '*' :: t) (hs : Plain s) (ht : Plain t) :
    pattern text = .ok (s.map .literal ++ .anyChars :: t.map .literal) := by
  have hlength : text.length = s.length + (t.length + 1) := by
    rw [← String.length_toList, htext, List.length_append, List.length_cons]
  obtain ⟨before, hrest⟩ := wildcards_plain_append hs ('*' :: t) 0 (t.length + 1) none
  have hstars : t.takeWhile (· == '*') = [] := by
    cases t with
    | nil => rfl
    | cons c t => simp [(plain_cons.1 ht).1.1]
  rw [pattern, hlength, htext, hrest, wildcards]
  simp [hstars, wildcards_plain ht, Except.map]

/-! ## Paths as patterns -/

theorem splitPath_append {path name : String} (h : '/' ∉ name.toList) :
    splitPath (path ++ "/" ++ name) = splitPath path ++ [name] := by
  have htext : (path ++ "/" ++ name).toList = path.toList ++ '/' :: name.toList := by simp
  have hname : name.toList.splitOn '/' = [name.toList] :=
    List.splitOnP_eq_singleton fun c hc => by
      have hne : c ≠ '/' := fun heq => h (heq ▸ hc)
      simpa using hne
  rw [splitPath, splitPath, htext, List.splitOn, List.splitOnP_append_cons _ _ (by simp), ← List.splitOn,
    ← List.splitOn, hname]
  simp

/-! ## Where patterns lead -/

variable {ps qs : List (List Wildcard)} {p : Place}

namespace Place

theorem glob_cons {part : List Wildcard} (h : part ≠ [.anyFolders]) :
    glob (part :: ps) p = (p.step part).flatMap (glob ps) := by
  rw [glob.eq_def]
  exact if_pos h

/-- Unless two stars are in it, a path of patterns leads on from wherever its front leads. -/
theorem glob_append (h : [.anyFolders] ∉ ps) : glob (ps ++ qs) p = (glob ps p).flatMap (glob qs) := by
  induction ps generalizing p with
  | nil => simp [glob]
  | cons part ps ih =>
      have hpart : part ≠ [.anyFolders] := fun heq => h (heq ▸ List.mem_cons_self)
      have hps : [.anyFolders] ∉ ps := fun hmem => h (List.mem_cons_of_mem part hmem)
      rw [List.cons_append, glob_cons hpart, glob_cons hpart, List.flatMap_assoc]
      exact List.flatMap_congr fun q _ => ih hps

end Place

/-! ## A star in front of an ending -/

/-- The files of a folder whose names have an ending, with their texts in the order of the names. -/
structure Listing (e : Entry) (ending : String) (files : List (String × String)) : Prop where
  /-- No two entries of the folder have one name. -/
  distinct : (e.entries.map Prod.fst).Nodup
  ascending : files.Pairwise fun a b => a.1 < b.1
  mem_iff : ∀ name inner, (name, inner) ∈ e.entries ∧ ending.toList <:+ name.toList ↔
    ∃ text, (name, text) ∈ files ∧ inner = .file text

variable {e : Entry} {ending : String}

def starPattern (ending : String) : List Wildcard :=
  .anyChars :: ending.toList.map .literal

/-- A pattern that ends in a star leads to what the places before it have under names with the ending. -/
theorem Place.glob_star (h : [.anyFolders] ∉ ps) :
    glob (ps ++ [starPattern ending]) p = (glob ps p).flatMap fun q => q.step (starPattern ending) := by
  have hlast (q : Place) : glob [starPattern ending] q = q.step (starPattern ending) := by
    rw [glob_cons (by simp [starPattern])]
    exact List.flatMap_singleton' _
  rw [glob_append h, funext hlast]

end SemanticLayer.Files
