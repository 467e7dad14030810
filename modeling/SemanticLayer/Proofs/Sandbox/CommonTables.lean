import SemanticLayer.Proofs.Sandbox.Juxtaposition
import SemanticLayer.Proofs.Sandbox.Opening
/-!
Statements that open with common table expressions and cannot be read. A derived table can have none inside, so a
limit has to refuse them; it looks for them by the letters in front of the first blank.
-/
namespace SemanticLayer

namespace Tsql

/-- The first token that is no gap is the word WITH. -/
def OpensWithTables (s : List Char) : Prop :=
  ∃ t tokens, Sandbox.significant .mssql s = .ok (t :: tokens) ∧ Sandbox.IsOneOf ["WITH"] t

/-- A gap stands in front of the opening word, or something other than a blank right behind its four letters. -/
def HidesTables (s : List Char) : Prop :=
  (∃ l more, Sql.LexicalRules.mssql.lexemes s = .ok (l :: more) ∧ l.token = .gap) ∨
    ∃ c ∈ (s.drop 4).head?, Text.isBlank c = false

end Tsql

namespace Sandbox

open Sql (Lexeme)
open Sql.LexicalRules
open Statement (Firm)
open Tsql (OpensWithTables HidesTables)

variable {sql s name : String} {w : List Char} {fault : Tsql.TextFault}

theorem sameLetters_with (h : IsOneOf ["WITH"] (.word name none)) :
    Text.sameLetters name.toList ['w', 'i', 't', 'h'] = true := by
  obtain ⟨_, ⟨rfl⟩, w, hw, hmap⟩ := h
  obtain rfl := List.mem_singleton.1 hw
  rw [Text.sameLetters, beq_iff_eq, ← hmap]
  decide

theorem isAlpha_of_sameLetters (h : Text.sameLetters w ['w', 'i', 't', 'h'] = true) :
    w.length = 4 ∧ ∀ c ∈ w, c.isAlpha = true := by
  rw [Text.sameLetters, beq_iff_eq] at h
  exact ⟨by simpa using congrArg List.length h, Text.isAlpha_of_map_toLower h (by decide)⟩

theorem sameLetters_firstWord_iff (hfirm : Firm s.toList) :
    Text.sameLetters (Text.firstWord s.toList) ['w', 'i', 't', 'h'] = true ↔
      ∃ w left, s.toList = w ++ left ∧ Text.sameLetters w ['w', 'i', 't', 'h'] = true ∧
        ∀ c ∈ left.head?, Text.isBlank c = true := by
  have htrim := hfirm.dropWhile []
  rw [List.append_nil] at htrim
  rw [Text.firstWord, Text.trimLeft, htrim]
  constructor
  · intro h
    refine ⟨_, _, List.takeWhile_append_dropWhile.symm, h, fun c hc => ?_⟩
    have hhead := List.head?_dropWhile_not (fun c => !Text.isBlank c) s.toList
    rw [hc] at hhead
    simpa using hhead
  · rintro ⟨w, left, hsplit, hw, hleft⟩
    have hword := (isAlpha_of_sameLetters hw).2
    rw [hsplit, List.takeWhile_append_of_pos fun c hc => by simp [Text.isBlank_of_isAlpha (hword c hc)]]
    cases left with
    | nil => rwa [List.takeWhile_nil, List.append_nil]
    | cons c left => rwa [List.takeWhile_cons_of_neg (by simp [hleft c rfl]), List.append_nil]

theorem firstWord_with_iff (hs : validate .mssql sql = .ok s) (hwith : OpensWithTables s.toList) :
    Text.sameLetters (Text.firstWord s.toList) ['w', 'i', 't', 'h'] = true ↔ ¬HidesTables s.toList := by
  obtain ⟨-, -, t, left, tokens, -, -, htold, hlexes, -⟩ := exists_lexes_of_validate hs
  obtain ⟨ls, hls, htokens⟩ := (lexemes_eq_ok_iff _ _).2 hlexes
  obtain ⟨l, more, rfl, rfl, -⟩ := List.map_eq_cons_iff.1 htokens
  rw [sameLetters_firstWord_iff (passes_of_validate hs).2]
  constructor
  · rintro ⟨w, behind, hsplit, hw, hbehind⟩
    obtain ⟨hlength, hletters⟩ := isAlpha_of_sameLetters hw
    rintro (⟨l', more', hl', hgap⟩ | ⟨d, hd, hdblank⟩)
    · -- The text begins with a letter, and no gap does.
      obtain ⟨rfl, -⟩ := List.cons.inj (Except.ok.inj (hls.symm.trans hl'))
      obtain ⟨d, hd, hbegins⟩ := htold.gap hgap
      have hw : w ≠ [] := List.ne_nil_of_length_eq_add_one hlength
      have hsigns : ['-', '#', '/'].all (fun c => !c.isAlpha) = true := by decide
      rw [hsplit, List.head?_append_of_ne_nil _ hw] at hd
      have hletter := hletters d (List.mem_of_head? hd)
      have hsign := List.all_eq_true.1 hsigns d
        (hbegins.resolve_left (by simp [Text.isBlank_of_isAlpha hletter]))
      simp [hletter] at hsign
    · rw [hsplit, ← hlength, List.drop_left] at hd
      simp [hbehind d hd] at hdblank
  · intro h
    -- The first token is no gap, so it is the WITH, and the text begins with its letters.
    have hgap : l.token ≠ .gap := fun hgap => h (.inl ⟨l, more, hls, hgap⟩)
    obtain ⟨t, others, hfound, ht⟩ := hwith
    rw [significant_eq_ok_iff_lexes.2 ⟨_, hlexes, rfl⟩, withoutGaps_cons hgap] at hfound
    obtain ⟨rfl, -⟩ := List.cons.inj (Except.ok.inj hfound)
    obtain ⟨name, hname, hspelled⟩ := ht
    have hletters := sameLetters_with ⟨name, rfl, hspelled⟩
    refine ⟨name.toList, left, htold.word name hname, hletters, fun c hc => ?_⟩
    by_contra hcblank
    refine h (.inr ⟨c, ?_, by simpa using hcblank⟩)
    rwa [htold.word name hname, ← (isAlpha_of_sameLetters hletters).1, List.drop_left]

/-- What becomes of a statement that opens with common table expressions and cannot be read. Where the opening
word is hidden it is taken for another one, and put into a derived table unless it is sorted. -/
theorem limitRows_commonTables (hs : validate .mssql sql = .ok s) (hwith : OpensWithTables s.toList)
    (hparse : Tsql.parse s.toList = .error fault) (limit : Nat) :
    (¬HidesTables s.toList → Database.mssql.limitRows s limit =
      .error (.execution (.ofText ("unable to apply row limit: sql parser error: " ++ fault.reason)))) ∧
    (HidesTables s.toList → Tsql.isSorted s.toList = true → Database.mssql.limitRows s limit =
      .ok (s ++ "\nOFFSET 0 ROWS FETCH NEXT " ++ toString limit ++ " ROWS ONLY")) ∧
    (HidesTables s.toList → Tsql.isSorted s.toList = false → Database.mssql.limitRows s limit =
      .ok ("SELECT TOP " ++ toString limit ++ " * FROM (\n" ++ s ++ "\n) AS __result")) := by
  have hfirst := firstWord_with_iff hs hwith
  have hunread : Database.mssql.limitRows s limit = Tsql.limitUnread s.toList limit fault := by
    unfold Database.limitRows Tsql.limitRows
    dsimp only
    rw [(passes_of_validate hs).2.withoutSemicolons, hparse]
  rw [hunread, Tsql.limitUnread, String.ofList_toList]
  dsimp only
  refine ⟨fun hopen => if_pos (hfirst.2 hopen), fun hhidden hsorted => ?_, fun hhidden hsorted => ?_⟩
  · rw [if_neg fun h => hfirst.1 h hhidden]
    exact if_pos hsorted
  · rw [if_neg fun h => hfirst.1 h hhidden]
    exact if_neg (by rw [← Tsql.isSorted, hsorted]; decide)

theorem opensWithTables_of_head? {s : List Char}
    (h : (significant .mssql s).toOption.bind List.head? = some (.word "WITH" none)) : OpensWithTables s := by
  cases hfound : significant .mssql s with
  | error refusal => simp [hfound, Except.toOption] at h
  | ok found =>
      rw [hfound] at h
      obtain ⟨rest, rfl⟩ := List.head?_eq_some_iff.1 h
      exact ⟨_, rest, hfound, "WITH", rfl, "WITH", List.mem_singleton_self "WITH", rfl⟩

theorem exists_fault_of_toBool {s : List Char} (h : (Tsql.parse s).toBool = false) :
    ∃ fault, Tsql.parse s = .error fault := by
  cases hparse : Tsql.parse s with
  | error fault => exact ⟨fault, rfl⟩
  | ok read => simp [hparse, Except.toBool] at h

def optioned : String :=
  "WITH x AS (SELECT 1 AS a) SELECT a FROM x OPTION (MAXRECURSION 10)"

theorem limitRows_commonTables_refused : validate .mssql optioned = .ok optioned ∧
    ∃ fault, Tsql.parse optioned.toList = .error fault ∧ Database.mssql.limitRows optioned 10 =
      .error (.execution (.ofText ("unable to apply row limit: sql parser error: " ++ fault.reason))) := by
  have hs : validate .mssql optioned = .ok optioned := by decide +kernel
  have hwith : OpensWithTables optioned.toList := opensWithTables_of_head? (by decide +kernel)
  have hfirst : ((mssql.lexemes optioned.toList).toOption.bind List.head?).map Lexeme.token =
      some (.word "WITH" none) := by decide +kernel
  obtain ⟨fault, hparse⟩ := @exists_fault_of_toBool optioned.toList (by decide +kernel)
  refine ⟨hs, fault, hparse, (limitRows_commonTables hs hwith hparse 10).1 ?_⟩
  rintro (⟨l, more, hl, hgap⟩ | ⟨c, hc, hblank⟩)
  · simp [hl, Except.toOption, hgap] at hfirst
  · have hspace : (optioned.toList.drop 4).head? = some ' ' := by decide
    obtain rfl : ' ' = c := Option.some.inj (hspace.symm.trans hc)
    exact absurd hblank (by decide)

def commented : String :=
  "/* newest */ " ++ optioned

/-- A comment in front of the opening word is enough to nest common table expressions in a derived table. -/
theorem limitRows_nested : ¬∀ (sql s : String) (fault : Tsql.TextFault) (limit : Nat),
    validate .mssql sql = .ok s → OpensWithTables s.toList → Tsql.parse s.toList = .error fault →
    (∃ e, Database.mssql.limitRows s limit = .error (.execution e)) ∨
      Tsql.isSorted s.toList = true ∧ Database.mssql.limitRows s limit =
        .ok (s ++ "\nOFFSET 0 ROWS FETCH NEXT " ++ toString limit ++ " ROWS ONLY") := by
  intro h
  have hs : validate .mssql commented = .ok commented := by decide +kernel
  have hwith : OpensWithTables commented.toList := opensWithTables_of_head? (by decide +kernel)
  have hnested : Database.mssql.limitRows commented 10 =
      .ok ("SELECT TOP 10 * FROM (\n" ++ commented ++ "\n) AS __result") := by decide +kernel
  have hsorted : Tsql.isSorted commented.toList = false := by decide +kernel
  obtain ⟨fault, hparse⟩ := @exists_fault_of_toBool commented.toList (by decide +kernel)
  rcases h commented commented fault 10 hs hwith hparse with ⟨e, he⟩ | ⟨hsorted', -⟩
  · simp [hnested] at he
  · simp [hsorted] at hsorted'

end Sandbox

end SemanticLayer
