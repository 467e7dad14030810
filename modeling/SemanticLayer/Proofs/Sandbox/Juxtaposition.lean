import SemanticLayer.Proofs.Sandbox.OneStatement
import SemanticLayer.Proofs.Sandbox.RowLimit
/-!
When a T-SQL statement with a limit on its rows is one statement. What the limit puts in opens no statement, so this
depends on the text that it passes on: a statement as it was written, or a query as it is printed.
-/
namespace SemanticLayer

open Sql (Token LexicalRules)
open Sql.LexicalRules

/-- Whether a statement that cannot be read is sorted, as far as its words tell, so that its first rows are fetched. -/
def Tsql.isSorted (statement : List Char) : Bool :=
  let words := outerWords statement
  words.contains "ORDER" && !words.contains "OFFSET" && !words.contains "TOP" && !words.contains "FOR"

/-- What a limit passes on of a query that can be read, where it stands. -/
def Tsql.Query.passedOn (q : Tsql.Query) (limit : Nat) : String :=
  match q.limited limit with
  | .topped _ => q.text
  | .fetched _ _ => q.text ++ ")"
  | .wrapped ctes derived _ => (ctes.map (· ++ " ")).getD "" ++ "SELECT * FROM (" ++ derived.text ++ ")"

/-- What a limit passes on of a T-SQL statement, where it stands. -/
def Tsql.passedOn (statement : String) (limit : Nat) : String :=
  match Tsql.parse statement.toList with
  | .ok [.query q] => q.passedOn limit
  | _ => if Tsql.isSorted statement.toList then statement else "SELECT * FROM (\n" ++ statement

namespace Sandbox

variable {stage : Stage} {previous : Token} {tokens done more : List Token} {sql s t : String} {limit n : Nat}
  {q : Tsql.Query} {u v x y y' z : List Char}

/-! ## Behind a text -/

/-- Tokens among which is no SELECT. -/
def Selectless (tokens : List Token) : Prop :=
  ∀ t ∈ tokens, ¬Says ["SELECT"] t

instance (tokens : List Token) : Decidable (Selectless tokens) :=
  inferInstanceAs (Decidable (∀ t ∈ tokens, _))

theorem Selectless.append (hdone : Selectless done) (hmore : Selectless more) : Selectless (done ++ more) := by
  intro t ht
  rcases List.mem_append.1 ht with ht | ht
  · exact hdone t ht
  · exact hmore t ht

theorem oneStatement_selectless (hmore : Selectless more) :
    OneStatement (withoutGaps (done ++ more)) ↔ OneStatement (withoutGaps done) := by
  rw [withoutGaps_append]
  exact oneStatement_append fun t ht => hmore t (mem_withoutGaps.1 ht).1

/-! ## What a limit puts in -/

theorem reads_last_word {front : List Char} {last : Token} (h : Spells mssql front tokens last) (w : String)
    (hw : w.toList ≠ []) (hplain : w.toList.all isPlain = true) (previous : Token) :
    Reads mssql previous (front ++ w.toList) (tokens ++ [.word w none]) := by
  have hword := @LexicalRules.reads_word .mssql last [] [.word w none] w hw hplain (by simp)
  rw [List.append_nil] at hword
  exact (h _ _ _).2 ⟨_, hword.2 ⟨[], .nil, rfl⟩, rfl⟩

def aliasTokens : List Token :=
  [.gap, .word "AS" none, .gap, .word "__result" none]

theorem reads_alias (previous : Token) : Reads mssql previous " AS __result".toList aliasTokens := by
  have has : Spells mssql _ _ _ := @spells_word .mssql "AS" (by decide) (by decide)
  exact reads_last_word ((spells_plainGap (c := ' ') rfl).append has) "__result" (by decide) (by decide) previous

def fetchTokens (n : Nat) : List Token :=
  [.gap, .number (toString 0) false, .gap, .word "ROWS" none, .gap, .word "FETCH" none, .gap, .word "NEXT" none, .gap,
    .number (toString n) false, .gap, .word "ROWS" none, .gap, .word "ONLY" none]

theorem selectless_fetch (n : Nat) : Selectless (fetchTokens n) := by
  have hnumber (n : Nat) : ¬Says ["SELECT"] (.number (toString n) false) := by simp [Says, listed?]
  simp only [Selectless, fetchTokens, List.forall_mem_cons, hnumber, not_false_eq_true, true_and]
  decide

theorem reads_rows (n : Nat) (previous : Token) :
    Reads mssql previous (" 0 ROWS FETCH NEXT " ++ toString n ++ " ROWS ONLY").toList (fetchTokens n) := by
  have hrows : Spells mssql _ _ _ := @spells_word .mssql "ROWS" (by decide) (by decide)
  have hfetch : Spells mssql _ _ _ := @spells_word .mssql "FETCH" (by decide) (by decide)
  have hnext : Spells mssql _ _ _ := @spells_word .mssql "NEXT" (by decide) (by decide)
  have hnumber (n : Nat) : Spells mssql _ _ _ := spells_number n
  have hall := ((((((spells_plainGap (c := ' ') rfl).append (hnumber 0)).append hrows).append hfetch).append
    hnext).append (hnumber n)).append hrows
  have hreads := reads_last_word hall "ONLY" (by decide) (by decide) previous
  simpa [fetchTokens] using hreads

theorem reads_offset (n : Nat) (previous : Token) :
    Reads mssql previous ("OFFSET 0 ROWS FETCH NEXT " ++ toString n ++ " ROWS ONLY").toList
      (.word "OFFSET" none :: fetchTokens n) := by
  have htext : ("OFFSET 0 ROWS FETCH NEXT " ++ toString n ++ " ROWS ONLY").toList =
      "OFFSET".toList ++ (" 0 ROWS FETCH NEXT " ++ toString n ++ " ROWS ONLY").toList := by simp
  have hoffset := @reads_word .mssql previous (" 0 ROWS FETCH NEXT " ++ toString n ++ " ROWS ONLY").toList
    (.word "OFFSET" none :: fetchTokens n) "OFFSET" (by decide) (by decide) (by simp)
  rw [htext]
  exact hoffset.2 ⟨_, reads_rows n _, rfl⟩

/-- A text that may be put behind a query and opens no SELECT there. -/
structure Closer (y : List Char) : Prop extends Closing y where
  selectless : ∀ previous tokens, Reads mssql previous y tokens → Selectless tokens
  tail : ∀ z, y = ')' :: z → ∀ previous tokens, Reads mssql previous z tokens → Selectless tokens

theorem closer_parenthesis : Closer [')'] where
  toClosing := closing_parenthesis
  selectless previous tokens h := by
    have hreads : Reads mssql previous [')'] [.sign ")"] :=
      (@reads_sign .mssql previous ')' [] _ (by simp)).2 ⟨[], .nil, rfl⟩
    rw [h.unique hreads]
    decide
  tail z hz previous tokens h := by
    obtain ⟨-, rfl⟩ := List.cons.inj hz
    rw [reads_nil_iff.1 h]
    decide

theorem closer_result : Closer ") AS __result".toList where
  toClosing := closing_result
  selectless previous tokens h := by
    have hreads : Reads mssql previous ") AS __result".toList (.sign ")" :: aliasTokens) :=
      (@reads_sign .mssql previous ')' " AS __result".toList _ (by simp)).2 ⟨_, reads_alias _, rfl⟩
    rw [h.unique hreads]
    decide
  tail z hz previous tokens h := by
    obtain ⟨-, rfl⟩ := List.cons.inj (show ')' :: " AS __result".toList = ')' :: z from hz)
    rw [h.unique (reads_alias previous)]
    decide

theorem closer_fetch (n : Nat) :
    Closer (" OFFSET 0 ROWS FETCH NEXT " ++ toString n ++ " ROWS ONLY").toList := by
  have htext : (" OFFSET 0 ROWS FETCH NEXT " ++ toString n ++ " ROWS ONLY").toList =
      ' ' :: ("OFFSET 0 ROWS FETCH NEXT " ++ toString n ++ " ROWS ONLY").toList := by simp
  refine ⟨closing_fetch n, fun previous tokens h => ?_, fun z hz => ?_⟩
  · rw [htext] at h
    obtain ⟨more, hmore, rfl⟩ := (reads_plainGap rfl).1 h
    rw [hmore.unique (reads_offset n _), Selectless, List.forall_mem_cons, List.forall_mem_cons]
    exact ⟨by decide, by decide, selectless_fetch n⟩
  · rw [htext] at hz
    simp at hz

/-- Unless the query ends deep inside a token, what closes it opens no SELECT. -/
theorem Closer.selectless_stage (hy : Closer y) (hvalid : stage.Valid mssql)
    (hstage : ¬∃ e : Ending, stage = .inside e ∧ e.Deep) (hmore : stage.Reads mssql y more) : Selectless more := by
  cases stage with
  | between p => exact hy.selectless p more hmore
  | inside e =>
      rcases hvalid.1.cases hvalid.2 with hdeep | rfl | ⟨sign, -, rfl⟩
      · exact absurd ⟨e, rfl, hdeep⟩ hstage
      · have hafter : Ending.carriage.after mssql y = some (.gap, y) := by
          rcases hy.head with ⟨z, rfl, -, -⟩ | ⟨z, rfl⟩ <;> rfl
        obtain ⟨rest, hrest, rfl⟩ := (Stage.reads_inside_iff hafter).1 hmore
        exact List.forall_mem_cons.2 ⟨by decide, hy.selectless _ _ hrest⟩
      · rcases hy.head with ⟨z, rfl, hz, -⟩ | ⟨z, rfl⟩
        · have hafter : (Ending.signed sign).after mssql (')' :: z) = some (.word "" none, z) := by
            rcases hz.cases with rfl | ⟨v, rfl⟩ <;> rfl
          obtain ⟨rest, hrest, rfl⟩ := (Stage.reads_inside_iff hafter).1 hmore
          exact List.forall_mem_cons.2 ⟨by decide, hy.tail z rfl _ _ hrest⟩
        · have hafter : (Ending.signed sign).after mssql (' ' :: z) = some (.sign sign, ' ' :: z) := rfl
          obtain ⟨rest, hrest, rfl⟩ := (Stage.reads_inside_iff hafter).1 hmore
          exact List.forall_mem_cons.2 ⟨by simp [Says, listed?], hy.selectless _ _ hrest⟩

/-- It does not matter which of these texts closes a query. -/
theorem Closer.exchange (hy : Closer y) (hy' : Closer y') (u : List Char) : Single (u ++ y) ↔ Single (u ++ y') := by
  obtain ⟨done, stage, hvalid, hstage⟩ := @reads_append mssql .gap u (by simp [mssql])
  have hbehind {z : List Char} (hz : Closer z) : Single (u ++ z) ↔
      ∃ more, stage.Reads mssql z more ∧ OneStatement (withoutGaps (done ++ more)) := by
    unfold Single
    simp only [hstage z hz.apart]
    constructor
    · rintro ⟨_, ⟨more, hmore, rfl⟩, hone⟩
      exact ⟨more, hmore, hone⟩
    · rintro ⟨more, hmore, hone⟩
      exact ⟨_, ⟨more, hmore, rfl⟩, hone⟩
  rw [hbehind hy, hbehind hy']
  by_cases hdeep : ∃ e : Ending, stage = .inside e ∧ e.Deep
  · obtain ⟨e, rfl, he⟩ := hdeep
    have hsettle {z : List Char} (hz : Closer z) (m : List Token) : (Stage.inside e).Reads mssql z m ↔
        (Stage.inside e.settle).Reads mssql [] m := by
      rw [← Stage.reads_settle he hz.inert hz.ne_nil, List.append_nil]
    simp only [hsettle hy, hsettle hy']
  · have hdone {z : List Char} (hz : Closer z) :
        (∃ more, stage.Reads mssql z more ∧ OneStatement (withoutGaps (done ++ more))) ↔
          OneStatement (withoutGaps done) := by
      obtain ⟨more, hmore, -, -⟩ := (hz.reads_stage hvalid).resolve_right hdeep
      constructor
      · rintro ⟨more', hmore', hone⟩
        exact (oneStatement_selectless (hz.selectless_stage hvalid hdeep hmore')).1 hone
      · exact fun hone =>
          ⟨more, hmore, (oneStatement_selectless (hz.selectless_stage hvalid hdeep hmore)).2 hone⟩
    rw [hdone hy, hdone hy']

/-! ## A `TOP` -/

theorem oneStatement_top {done more : List Token} (n : Nat) (hdone : LastIs (¬Says joiningWords ·) done) :
    OneStatement (withoutGaps (done ++ (topTokens n ++ more))) ↔ OneStatement (withoutGaps (done ++ more)) := by
  obtain ⟨before, t, heq, ht⟩ := hdone
  have hidle : ∀ u ∈ withoutGaps (topTokens n), Idle u := by
    have hnumber : Idle (.number (toString n) false) := ⟨by simp, by simp, by simp [Says, listed?]⟩
    have htop : withoutGaps (topTokens n) = [.word "TOP" none, .number (toString n) false] := rfl
    rw [htop, List.forall_mem_cons]
    exact ⟨by decide, List.forall_mem_singleton.2 hnumber⟩
  simp only [withoutGaps_append, heq]
  exact oneStatement_insert ht hidle

/-- A `TOP` that is written as a number opens no SELECT. -/
theorem single_top (hu : EndsIn (¬Says joiningWords ·) u) (n : Nat) (hv : Spaced v) :
    Single (u ++ ((" TOP " ++ toString n).toList ++ v)) ↔ Single (u ++ v) := by
  have htop : (" TOP " ++ toString n).toList = " TOP ".toList ++ (toString n).toList := by simp
  have hinert : Inert (" TOP " ++ toString n).toList := by
    rw [htop]
    exact inert_append (by decide) (inert_number n) (number_ne_nil n)
  exact hu.insert hinert (by simp) (fun x => by simp [Spaced]) (fun previous x hx m => reads_top n hx)
    (fun _ _ hdone => oneStatement_top n hdone) hv

/-! ## Queries that can be read -/

theorem isSingle_topped {selection : Tsql.Selection} {top : Tsql.Top} (hq : q.Opens)
    (hbody : q.body = .select selection) (htop : Tsql.Top.capped? limit selection.top = some top) :
    IsSingle (q.withBody (.select { selection with top := some top })).text ↔ IsSingle q.text := by
  obtain ⟨hends, -⟩ := endsIn_select (¬Says joiningWords ·) (by decide) hq hbody
  rw [isSingle_iff, isSingle_iff]
  unfold Tsql.Top.capped? at htop
  split at htop
  · rename_i hnone
    obtain rfl := Option.some.inj htop
    rw [text_top, text_of_top_eq_none hbody hnone]
    exact single_top hends limit (spaced_behindTop false)
  · rename_i n withTies hsome
    obtain rfl := Option.some.inj htop
    have hown : q.text = (q.withBody (.select { selection with
        top := some ⟨.constant n, false, withTies⟩ })).text := by
      rw [← hsome, ← hbody]
      cases q
      rfl
    rw [hown, text_top, text_top, single_top hends _ (spaced_behindTop withTies),
      single_top hends _ (spaced_behindTop withTies)]
  · simp at htop

theorem isSingle_fetched : IsSingle (Tsql.LimitedQuery.fetched q limit).text ↔ IsSingle (q.text ++ ")") := by
  have hfetched : (Tsql.LimitedQuery.fetched q limit).text.toList =
      q.text.toList ++ (" OFFSET 0 ROWS FETCH NEXT " ++ toString limit ++ " ROWS ONLY").toList := by
    simp [Tsql.LimitedQuery.text]
  have hparenthesis : (q.text ++ ")").toList = q.text.toList ++ [')'] := by simp
  rw [isSingle_iff, isSingle_iff, hfetched, hparenthesis]
  exact (closer_fetch limit).exchange closer_parenthesis q.text.toList

/-- The `TOP` in front of a derived table opens no SELECT. -/
theorem single_derived (u v : List Char) (n : Nat) :
    Single (u ++ ' ' :: (derivedFront n ++ v)) ↔ Single (u ++ ' ' :: ("SELECT * FROM (".toList ++ v)) := by
  have hends : EndsIn (¬Says joiningWords ·) (u ++ ' ' :: "SELECT".toList) :=
    .word u "SELECT" (by decide) (by decide) (by decide) (by decide)
  have htop := single_top hends n (v := ' ' :: ("* FROM (".toList ++ v)) (by simp [Spaced])
  simpa [derivedFront] using htop

theorem single_derived_first (v : List Char) (n : Nat) :
    Single (derivedFront n ++ v) ↔ Single ("SELECT * FROM (".toList ++ v) := by
  have hends : EndsIn (¬Says joiningWords ·) "SELECT".toList := .start "SELECT" (by decide) (by decide) (by decide)
  have htop := single_top hends n (v := ' ' :: ("* FROM (".toList ++ v)) (by simp [Spaced])
  simpa [derivedFront] using htop

theorem isSingle_wrapped : IsSingle (q.wrap limit).text ↔
    IsSingle ((q.ctes.map (· ++ " ")).getD "" ++ "SELECT * FROM (" ++ q.withoutCtes.nameColumns.text ++ ")") := by
  have hwrapped : (q.wrap limit).text.toList = (((q.ctes.map (· ++ " ")).getD "").toList ++
      (derivedFront limit ++ q.withoutCtes.nameColumns.text.toList)) ++ ") AS __result".toList := by
    simp [Tsql.Query.wrap, Tsql.LimitedQuery.text, derivedFront]
  rw [isSingle_iff, isSingle_iff, hwrapped, closer_result.exchange closer_parenthesis]
  cases q.ctes with
  | none =>
      have htop := single_derived_first (q.withoutCtes.nameColumns.text.toList ++ [')']) limit
      simpa using htop
  | some c =>
      have htop := single_derived c.toList (q.withoutCtes.nameColumns.text.toList ++ [')']) limit
      simpa using htop

theorem isSingle_limited (hq : q.Opens) : IsSingle (q.limited limit).text ↔ IsSingle (q.passedOn limit) := by
  unfold Tsql.Query.passedOn
  rcases limited_cases q limit with ⟨selection, top, hbody, htop, h⟩ | h | h
  · rw [h]
    exact isSingle_topped hq hbody htop
  · rw [h]
    exact isSingle_fetched
  · rw [h]
    exact isSingle_wrapped

/-! ## Statements on lines of their own -/

/-- What stands on the line behind a statement opens no SELECT. -/
theorem single_line {front : List Char} {opening tokens : List Token}
    (hfront : ∀ x m, Reads mssql .gap (front ++ x) m ↔ ∃ more, Reads mssql .gap x more ∧ m = opening ++ more)
    (hs : Reads mssql .gap u tokens)
    (hy : ∀ left, left = y ∨ left = y.dropWhile mssql.isNamePart → ∀ previous,
      ∃ more, Reads mssql previous left more ∧ Selectless more) :
    Single (front ++ (u ++ '\n' :: y)) ↔ Single (front ++ u) := by
  obtain ⟨done, loose, pre, left, previous, rfl, hloose, hpre, hleft, hreads⟩ :=
    reads_newline hs (apart_newline .mssql y)
  obtain ⟨more, hmore, hselectless⟩ := hy left hleft previous
  have hloose' : Selectless loose := by
    intro t ht
    rcases hloose t ht with rfl | ⟨text, rfl, -⟩ <;> simp [Says, listed?]
  have hrest : Selectless (pre ++ more) := by
    have hline : Selectless lineTokens := by decide
    exact Selectless.append (fun t ht => hline t (hpre t ht)) hselectless
  have hwhole : Reads mssql .gap (front ++ (u ++ '\n' :: y)) (opening ++ done ++ (pre ++ more)) :=
    (hfront _ _).2 ⟨_, (hreads _).2 ⟨more, hmore, rfl⟩, by simp⟩
  have halone : Reads mssql .gap (front ++ u) (opening ++ done ++ loose) :=
    (hfront _ _).2 ⟨_, hs, by simp⟩
  have hone {s : List Char} {tokens : List Token} (h : Reads mssql .gap s tokens) :
      Single s ↔ OneStatement (withoutGaps tokens) := by
    constructor
    · rintro ⟨tokens', h', hone⟩
      rwa [h.unique h']
    · exact fun hone => ⟨tokens, h, hone⟩
  rw [hone hwhole, hone halone, oneStatement_selectless hrest, oneStatement_selectless hloose']

theorem single_fetch (hs : Reads mssql .gap u tokens) (n : Nat) :
    Single (u ++ '\n' :: ("OFFSET 0 ROWS FETCH NEXT " ++ toString n ++ " ROWS ONLY").toList) ↔ Single u := by
  have hfront (x m : _) : Reads mssql .gap ([] ++ x) m ↔ ∃ more, Reads mssql .gap x more ∧ m = [] ++ more := by simp
  refine single_line hfront hs fun left hleft previous => ?_
  rcases hleft with rfl | rfl
  · refine ⟨_, reads_offset n previous, List.forall_mem_cons.2 ⟨by decide, selectless_fetch n⟩⟩
  · rw [show mssql.isNamePart = (ofDatabase .mssql).isNamePart from rfl, dropWhile_offset]
    exact ⟨_, reads_rows n previous, selectless_fetch n⟩

theorem single_nest (hs : Reads mssql .gap u tokens) (n : Nat) :
    Single (("SELECT TOP " ++ toString n ++ " * FROM (\n").toList ++ (u ++ '\n' :: ") AS __result".toList)) ↔
      Single ("SELECT * FROM (\n".toList ++ u) := by
  have htop := single_derived_first ('\n' :: (u ++ '\n' :: ") AS __result".toList)) n
  have hline : Single ("SELECT * FROM (\n".toList ++ (u ++ '\n' :: ") AS __result".toList)) ↔
      Single ("SELECT * FROM (\n".toList ++ u) := by
    obtain ⟨opening, others, -, -, -, hfront⟩ := leading_select .mssql
    refine single_line (fun x m => hfront .gap x m) hs fun left hleft previous => ?_
    have hresult : left = ") AS __result".toList := by
      rcases hleft with rfl | rfl <;> rfl
    rw [hresult]
    exact ⟨.sign ")" :: aliasTokens, (@reads_sign .mssql previous ')' _ _ (by simp)).2 ⟨_, reads_alias _, rfl⟩,
      by decide⟩
  rw [← hline]
  simpa [derivedFront] using htop

theorem isSingle_limitUnread {fault : Tsql.TextFault} (hs : validate .mssql sql = .ok s)
    (ht : Tsql.limitUnread s.toList limit fault = .ok t) :
    IsSingle t ↔ IsSingle (if Tsql.isSorted s.toList then s else "SELECT * FROM (\n" ++ s) := by
  obtain ⟨⟨tokens, hreads, -⟩, -⟩ := passes_of_validate hs
  unfold Tsql.limitUnread at ht
  rw [String.ofList_toList] at ht
  dsimp only at ht
  split at ht
  · simp at ht
  · rw [← Tsql.isSorted] at ht
    split at ht
    · obtain rfl := Except.ok.inj ht
      rename_i hsorted
      have hfetch := single_fetch hreads limit
      rw [if_pos hsorted, isSingle_iff, isSingle_iff, ← hfetch]
      simp
    · obtain rfl := Except.ok.inj ht
      rename_i hsorted
      have hnest := single_nest hreads limit
      rw [if_neg hsorted, isSingle_iff, isSingle_iff]
      simpa using hnest

/-! ## All statements -/

/-- A statement with a limit is one statement exactly if what the limit passes on is. -/
theorem isSingle_limitRows (hs : validate .mssql sql = .ok s) (ht : Database.mssql.limitRows s limit = .ok t) :
    IsSingle t ↔ IsSingle (Tsql.passedOn s limit) := by
  obtain ⟨hpasses, hfirm⟩ := passes_of_validate hs
  unfold Database.limitRows Tsql.limitRows at ht
  dsimp only at ht
  rw [hfirm.withoutSemicolons] at ht
  unfold Tsql.passedOn
  split at ht
  · rename_i fault hparse
    rw [hparse]
    exact isSingle_limitUnread hs ht
  · rename_i q hparse
    obtain rfl := Except.ok.inj ht
    rw [hparse]
    obtain ⟨found, hfound, hcheck⟩ := (passes_iff _ _).1 hpasses
    obtain ⟨opening, rest, rfl, hopening, -⟩ := opening_of_checkTokens hcheck
    exact isSingle_limited (Tsql.parse_opens hfound hopening hparse)
  · simp at ht
  · simp at ht

theorem isSingle_limitRows_union : ∃ s t, validate .mssql "SELECT a.$IDENTITY UNION ALL SELECT b ORDER BY 1;" = .ok s ∧
    Database.mssql.limitRows s 10 = .ok t ∧ IsSingle t := by
  have hs : validate .mssql "SELECT a.$IDENTITY UNION ALL SELECT b ORDER BY 1;" =
      .ok "SELECT a.$IDENTITY UNION ALL SELECT b ORDER BY 1" := by decide +kernel
  have ht : Database.mssql.limitRows "SELECT a.$IDENTITY UNION ALL SELECT b ORDER BY 1" 10 =
      .ok "SELECT a.$IDENTITY UNION ALL SELECT b ORDER BY 1\nOFFSET 0 ROWS FETCH NEXT 10 ROWS ONLY" := by decide +kernel
  have hpassed : Tsql.passedOn "SELECT a.$IDENTITY UNION ALL SELECT b ORDER BY 1" 10 =
      "SELECT a.$IDENTITY UNION ALL SELECT b ORDER BY 1" := by decide +kernel
  refine ⟨_, _, hs, ht, (isSingle_limitRows hs ht).2 ?_⟩
  rw [hpassed]
  decide +kernel

/-- Two statements side by side are accepted, and passed on where the second one is sorted. -/
theorem limitRows_juxtaposed : ¬∀ (sql s t : String) (limit : Nat),
    validate .mssql sql = .ok s → Database.mssql.limitRows s limit = .ok t → IsSingle t := by
  intro h
  have hs : validate .mssql "SELECT a SELECT b FROM u ORDER BY b" = .ok "SELECT a SELECT b FROM u ORDER BY b" := by
    decide +kernel
  have ht : Database.mssql.limitRows "SELECT a SELECT b FROM u ORDER BY b" 10 =
      .ok "SELECT a SELECT b FROM u ORDER BY b\nOFFSET 0 ROWS FETCH NEXT 10 ROWS ONLY" := by decide +kernel
  exact absurd (h _ _ _ _ hs ht) (by decide +kernel)

-- A bracket that is doubled inside a name is printed once, and the name ends there.
example : Database.mssql.limitRows "SELECT [x]] SELECT [y]" 10 = .ok "SELECT TOP 10 [x] SELECT [y]" ∧
    ¬IsSingle "SELECT TOP 10 [x] SELECT [y]" := by decide +kernel

end Sandbox

end SemanticLayer
