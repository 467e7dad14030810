import SemanticLayer.Proofs.Files
import SemanticLayer.Registry.Folder
/-!
What loading a folder comes to. The path of the folder is read as a pattern: without a wildcard in it, the registry is
that of the sources in the folder's files, and with one it is that of the files of whatever folders the pattern leads to,
the folder itself being one of them or not.
-/
namespace SemanticLayer

open Files

variable {root e : Entry} {path suffix ending : String}

namespace Registry

/-! ## Files one after another -/

def Holds (p : Place) (s : Source) : Prop :=
  ∃ text, p.here = .file text ∧ Source.ofYaml text = .ok s

/-- The places that a path leads to if its text is read as a pattern. The two patterns that are made of the path can be
read, and none of its parts is two stars. -/
structure LeadsTo (root : Entry) (path : String) (places : List Place) : Prop where
  whole : ∀ suffix ∈ suffixes, ∃ ws, pattern (path ++ "/*." ++ suffix) = .ok ws
  parts : ∃ ps, (splitPath path).mapM pattern = .ok ps ∧ [.anyFolders] ∉ ps ∧ Place.glob ps root.place = places

theorem plain_of_mem_suffixes (h : suffix ∈ suffixes) :
    Plain ("." ++ suffix).toList ∧ '/' ∉ ("*." ++ suffix).toList := by
  simp only [suffixes, List.mem_cons, List.not_mem_nil, or_false] at h
  rcases h with rfl | rfl <;> decide

theorem LeadsTo.globPath {places : List Place} (h : LeadsTo root path places) (hmem : suffix ∈ suffixes) :
    root.globPath (path ++ "/*." ++ suffix) = .ok (places.flatMap fun p => p.step (starPattern ("." ++ suffix))) := by
  obtain ⟨hplain, hslash⟩ := plain_of_mem_suffixes hmem
  obtain ⟨ws, hws⟩ := h.whole suffix hmem
  obtain ⟨ps, hps, hfolders, rfl⟩ := h.parts
  have htext : path ++ "/*." ++ suffix = path ++ "/" ++ ("*." ++ suffix) := by
    rw [← String.toList_inj]
    simp
  have hname : pattern ("*." ++ suffix) = .ok (starPattern ("." ++ suffix)) :=
    pattern_star (s := []) (by simp) (by decide) hplain
  have hparts : (splitPath (path ++ "/*." ++ suffix)).mapM pattern = .ok (ps ++ [starPattern ("." ++ suffix)]) := by
    rw [htext, splitPath_append hslash, List.mapM_append, hps, List.mapM_cons, hname]
    rfl
  -- The pattern of the whole text is only there to be refused; the parts are what is followed.
  rw [Entry.globPath, hws, hparts, ok_bind, ok_bind, Place.glob_star hfolders]
  rfl

end Registry

end SemanticLayer
