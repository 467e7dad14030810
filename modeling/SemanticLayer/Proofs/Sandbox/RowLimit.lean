import SemanticLayer.Proofs.Sandbox.Derived
import SemanticLayer.Proofs.Tsql.Printing
import SemanticLayer.Sql.RowLimit
/-!
When the gate accepts a statement that it has accepted before, now with a limit on its rows.
-/
namespace SemanticLayer

open Sql (Token LexicalRules)
open Sql.LexicalRules

/-! ## What a limit keeps -/

/-- What a limit on rows keeps of a statement. -/
inductive Kept where
  /-- The statement itself, on lines of its own. -/
  | lines (text : String)
  /-- A query as it is printed, but for its `TOP`. -/
  | inside (text : String)
  /-- A text as it is printed, with something behind it on the same line. -/
  | before (text : String)
  deriving DecidableEq, Repr

/-- What a limit keeps of a query that can be read. -/
def Tsql.Query.kept (q : Tsql.Query) (limit : Nat) : Kept :=
  match q.limited limit with
  | .topped _ => .inside q.text
  | .fetched _ _ => .before q.text
  | .wrapped ctes derived _ => .before ((ctes.map (· ++ " ")).getD "" ++ derived.text)

/-- What a limit keeps of a statement. -/
def Database.kept (db : Database) (s : String) (limit : Nat) : Kept :=
  match db with
  | mssql =>
      match Tsql.parse s.toList with
      | .ok [.query q] => q.kept limit
      | _ => .lines s
  | _ => .lines s

/-- Whether the gate accepts what is kept, where it stands. -/
def Kept.Passes (db : Database) : Kept → Prop
  | lines text => ∃ tokens, Sandbox.significant db text.toList = .ok tokens ∧ .sign ";" ∉ tokens
  | inside text => ∃ s, Sandbox.validate db text = .ok s
  | before text => ∃ s, Sandbox.validate db (text ++ ")") = .ok s

namespace Sandbox

open Statement (Firm withoutSemicolons isClosing)

variable {db : Database} {sql s text w : String} {limit n : Nat} {q : Tsql.Query} {u v x y y' : List Char}

/-! ## Accepted statements -/

theorem passes_of_validate (hs : validate db sql = .ok s) : Passes db s.toList ∧ Firm s.toList := by
  obtain ⟨hpasses, rfl⟩ := validate_eq_ok_iff.1 hs
  rw [String.toList_ofList]
  refine ⟨hpasses, Statement.firm_withoutSemicolons fun hempty => ?_⟩
  obtain ⟨tokens, hreads, hcheck⟩ := hpasses
  rw [hempty, reads_nil_iff] at hreads
  rw [hreads] at hcheck
  exact absurd hcheck (by simp [withoutGaps, checkTokens])

theorem firm_opening (hw : w ∈ openingWords) (x : List Char) (hy : y ≠ [])
    (hlast : y.getLast?.any isClosing = false) : Firm (w.toList ++ (x ++ y)) := by
  have hwords : ∀ w ∈ openingWords, w.toList ≠ [] ∧ w.toList.head?.any Text.isBlank = false ∧
      w.toList.getLast?.any isClosing = false := by decide
  obtain ⟨hempty, hhead, hend⟩ := hwords w hw
  have hfirm : Firm w.toList := ⟨hempty, hhead, hend⟩
  refine hfirm.append (by simp [hy]) ?_
  rwa [List.getLast?_append_of_ne_nil _ hy]

theorem validate_ok_of_firm (htext : Firm text.toList) :
    (∃ r, validate db text = .ok r) ↔ Passes db text.toList := by
  rw [validate_ok_iff, htext.withoutSemicolons]

theorem isClosing_number (n : Nat) : (toString n).toList.getLast?.any isClosing = false := by
  have hlast := List.getLast?_eq_some_getLast (number_ne_nil n)
  have hdigit := isDigit_of_mem_number (List.mem_of_getLast? hlast)
  rw [hlast, Option.any_some]
  generalize (toString n).toList.getLast (number_ne_nil n) = c at hdigit ⊢
  simp only [Char.isDigit, Bool.and_eq_true, decide_eq_true_eq, ge_iff_le, UInt32.le_iff_toNat_le] at hdigit
  obtain ⟨hlow, hhigh⟩ : 48 ≤ c.toNat ∧ c.toNat ≤ 57 := hdigit
  have hsemicolon : c ≠ ';' := by
    rintro rfl
    exact absurd hhigh (by decide)
  simp only [isClosing, Text.isBlank, Bool.or_eq_false_iff, Bool.and_eq_false_iff, decide_eq_false_iff_not,
    beq_eq_false_iff_ne]
  refine ⟨?_, hsemicolon⟩
  omega

theorem semicolonFree_significant (db : Database) (s : List Char) :
    SemicolonFree db s ↔ ∃ tokens, significant db s = .ok tokens ∧ .sign ";" ∉ tokens := by
  have hshape (found : List Token) : .sign ";" ∈ found.map Token.shape ↔ .sign ";" ∈ found := by
    simp [Token.shape_eq_sign_iff]
  have hgaps (all : List Token) : .sign ";" ∈ withoutGaps all ↔ .sign ";" ∈ all := by
    simp [mem_withoutGaps]
  constructor
  · rintro ⟨all, hall, hsemicolon⟩
    obtain ⟨found, hfound, heq⟩ := (significant_eq_ok_iff db s _).2 ⟨all, hall, rfl⟩
    exact ⟨found, hfound, by rwa [← hshape, heq, hgaps]⟩
  · rintro ⟨found, hfound, hsemicolon⟩
    obtain ⟨all, hall, heq⟩ := (significant_eq_ok_iff db s _).1 ⟨found, hfound, rfl⟩
    exact ⟨all, hall, by rwa [← hgaps, heq, hshape]⟩

/-! ## Statements on lines of their own -/

theorem wrapInLimit_toList (hfirm : Firm s.toList) (limit : Nat) :
    (Statement.wrapInLimit s limit).toList = "SELECT * FROM (\n".toList ++
      (s.toList ++ '\n' :: (") AS __result LIMIT " ++ toString limit).toList) := by
  unfold Statement.wrapInLimit
  rw [hfirm.withoutSemicolons]
  simp

theorem validate_wrapInLimit (hs : validate db sql = .ok s) :
    (∃ r, validate db (Statement.wrapInLimit s limit) = .ok r) ↔ SemicolonFree db s.toList := by
  obtain ⟨hpasses, hfirm⟩ := passes_of_validate hs
  have htext := wrapInLimit_toList hfirm limit
  have hwrapped : Firm (Statement.wrapInLimit s limit).toList := by
    have hopening := firm_opening (show "SELECT" ∈ openingWords by decide)
      (" * FROM (\n".toList ++ (s.toList ++ "\n) AS __result LIMIT ".toList)) (number_ne_nil limit)
      (isClosing_number limit)
    rw [htext]
    simpa using hopening
  have htrailing := trailing_limit db limit
  rw [validate_ok_of_firm hwrapped, htext]
  refine passes_lines (leading_select db) hpasses htrailing (htrailing.afterName ?_)
  cases db <;> simp <;> decide

theorem dropWhile_offset (n : Nat) : ("OFFSET 0 ROWS FETCH NEXT " ++ toString n ++ " ROWS ONLY").toList.dropWhile
    (ofDatabase .mssql).isNamePart = (" 0 ROWS FETCH NEXT " ++ toString n ++ " ROWS ONLY").toList := by
  have hoffset : ("OFFSET 0 ROWS FETCH NEXT " ++ toString n ++ " ROWS ONLY").toList =
      "OFFSET".toList ++ ' ' :: ("0 ROWS FETCH NEXT " ++ toString n ++ " ROWS ONLY").toList := by
    simp
  rw [hoffset, List.dropWhile_append_of_pos (List.all_eq_true.1 (by decide)),
    List.dropWhile_cons_of_neg (by decide)]
  simp

theorem validate_limitUnread {fault : Tsql.TextFault} {t : String} (hs : validate .mssql sql = .ok s)
    (ht : Tsql.limitUnread s.toList limit fault = .ok t) :
    (∃ r, validate .mssql t = .ok r) ↔ SemicolonFree .mssql s.toList := by
  obtain ⟨hpasses, hfirm⟩ := passes_of_validate hs
  unfold Tsql.limitUnread at ht
  rw [String.ofList_toList] at ht
  dsimp only at ht
  split at ht
  · simp at ht
  · split at ht
    · obtain rfl := Except.ok.inj ht
      have htext : (s ++ "\nOFFSET 0 ROWS FETCH NEXT " ++ toString limit ++ " ROWS ONLY").toList =
          s.toList ++ '\n' :: ("OFFSET 0 ROWS FETCH NEXT " ++ toString limit ++ " ROWS ONLY").toList := by
        simp
      have hfetched : Firm (s ++ "\nOFFSET 0 ROWS FETCH NEXT " ++ toString limit ++ " ROWS ONLY").toList := by
        have hfirm' := hfirm.append (v := ("\nOFFSET 0 ROWS FETCH NEXT " ++ toString limit).toList ++
          " ROWS ONLY".toList) (by simp) (by
            rw [List.getLast?_append_of_ne_nil _ (by simp)]
            decide)
        simpa using hfirm'
      rw [validate_ok_of_firm hfetched, htext]
      exact passes_line hpasses (trailing_fetch limit) ((dropWhile_offset limit).symm ▸ trailing_rows limit)
    · obtain rfl := Except.ok.inj ht
      have htext : ("SELECT TOP " ++ toString limit ++ " * FROM (\n" ++ s ++ "\n) AS __result").toList =
          ("SELECT TOP " ++ toString limit ++ " * FROM (\n").toList ++
            (s.toList ++ '\n' :: ") AS __result".toList) := by simp
      have hwrapped : Firm ("SELECT TOP " ++ toString limit ++ " * FROM (\n" ++ s ++
          "\n) AS __result").toList := by
        have hopening := firm_opening (show "SELECT" ∈ openingWords by decide)
          ((" TOP " ++ toString limit ++ " * FROM (\n").toList ++ s.toList)
          (show "\n) AS __result".toList ≠ [] by decide) (by decide)
        simpa using hopening
      rw [validate_ok_of_firm hwrapped, htext]
      exact passes_lines (leading_top limit) hpasses trailing_result (trailing_result.afterName (by decide))

/-! ## Queries with a `TOP` -/

/-- The tokens of a `TOP` and the space in front of it. -/
def topTokens (n : Nat) : List Token :=
  [.gap, .word "TOP" none, .gap, .number (toString n) false]

theorem reads_top {previous : Token} {tokens : List Token} (n : Nat) (hx : Spaced x) :
    Reads mssql previous ((" TOP " ++ toString n).toList ++ x) tokens ↔
      ∃ more, Reads mssql previous x more ∧ tokens = topTokens n ++ more := by
  have htext : (" TOP " ++ toString n).toList ++ x =
      ' ' :: ("TOP".toList ++ ' ' :: ((toString n).toList ++ x)) := by simp
  have hword (m : List Token) := @reads_space_word previous m (' ' :: ((toString n).toList ++ x)) "TOP"
    (by decide) (by decide) (by simp [Spaced])
  have hnumber (m : List Token) : Reads mssql .gap ((toString n).toList ++ x) m ↔
      ∃ more, Reads mssql previous x more ∧ m = [.number (toString n) false] ++ more := by
    have hreads : Reads mssql .gap ((toString n).toList ++ x) m ↔
        ∃ more, Reads mssql (.number (toString n) false) x more ∧
          m = [.number (toString n) false] ++ more := @reads_number .mssql .gap x m n hx.apart
    simpa only [reads_spaced hx (.number (toString n) false) previous] using hreads
  have hgap (m : List Token) : Reads mssql (.word "TOP" none) (' ' :: ((toString n).toList ++ x)) m ↔
      ∃ more, Reads mssql previous x more ∧ m = [.gap] ++ [.number (toString n) false] ++ more := by
    rw [reads_plainGap rfl]
    exact @exists_append_iff _ _ [.gap] _ hnumber m
  rw [htext, hword]
  exact exists_append_iff hgap tokens

/-- A `TOP` that is written as a number changes nothing. -/
theorem passes_top (hu : Ready u) (hfirm : Firm u) (n : Nat) (hv : Spaced v) :
    Passes .mssql (withoutSemicolons (u ++ ((" TOP " ++ toString n).toList ++ v))) ↔
      Passes .mssql (withoutSemicolons (u ++ v)) := by
  have htop : (" TOP " ++ toString n).toList = " TOP ".toList ++ (toString n).toList := by simp
  have hlast : (" TOP " ++ toString n).toList.getLast?.any isClosing = false := by
    rw [htop, List.getLast?_append_of_ne_nil _ (number_ne_nil n)]
    exact isClosing_number n
  have hinert : Inert (" TOP " ++ toString n).toList := by
    rw [htop]
    exact inert_append (by decide) (inert_number n) (number_ne_nil n)
  have hharmless : ∀ t ∈ topTokens n, Harmless t := by
    have hnumber : Harmless (.number (toString n) false) := ⟨by simp, rfl⟩
    simp only [topTokens, List.forall_mem_cons, hnumber, true_and]
    decide
  rw [← List.append_assoc, (hfirm.append (by simp) hlast).withoutSemicolons_append,
    hfirm.withoutSemicolons_append, List.append_assoc]
  exact hu.insert hinert (by simp) (fun x => by simp [Spaced]) hharmless
    (fun previous x hx m => reads_top n hx) (Statement.spaced_rdropWhile hv)

section Topped

variable {selection : Tsql.Selection}

/-- What stands behind the number of a `TOP`. -/
def behindTop (q : Tsql.Query) (selection : Tsql.Selection) (withTies : Bool) : List Char :=
  (if withTies then " WITH TIES" else "").toList ++ (selection.back ++ q.back)

theorem spaced_behindTop (withTies : Bool) : Spaced (behindTop q selection withTies) := by
  cases withTies <;> simp [behindTop, Spaced, Tsql.Selection.back, Tsql.behindSpaces]

theorem text_top (q : Tsql.Query) (selection : Tsql.Selection) (n : Nat) (withTies : Bool) :
    (q.withBody (.select { selection with top := some ⟨.constant n, false, withTies⟩ })).text.toList =
      (q.front ++ selection.front) ++
        ((" TOP " ++ toString n).toList ++ behindTop q selection withTies) := by
  rw [Tsql.Query.text_withSelect]
  simp [behindTop, Tsql.behindSpaces, Tsql.Top.text, Tsql.Selection.front, Tsql.Selection.back]

theorem text_of_top_eq_none (hbody : q.body = .select selection) (htop : selection.top = none) :
    q.text.toList = (q.front ++ selection.front) ++ behindTop q selection false := by
  rw [Tsql.Query.text_toList, hbody, Tsql.Body.text, Tsql.Selection.text_toList, htop]
  simp [behindTop, Tsql.behindSpaces]

theorem endsIn_select (ok : Token → Prop)
    (hok : ∀ t ∈ [Token.word "SELECT" none, .word "DISTINCT" none, .sign ")", .word "" none], ok t)
    (hq : q.Opens) (hbody : q.body = .select selection) :
    EndsIn ok (q.front ++ selection.front) ∧ Firm (q.front ++ selection.front) := by
  have hselect : EndsIn ok (q.front ++ "SELECT".toList) ∧ Firm (q.front ++ "SELECT".toList) := by
    unfold Tsql.Query.front
    cases hctes : q.ctes with
    | none =>
        exact ⟨.start "SELECT" (by decide) (by decide) (hok _ (by simp)), ⟨by decide, by decide, by decide⟩⟩
    | some c =>
        obtain ⟨x, hx⟩ := hq.ctes c hctes
        have hfirm := firm_opening (show "WITH" ∈ openingWords by decide) (' ' :: x ++ [' '])
          (show "SELECT".toList ≠ [] by decide) (by decide)
        have hends : EndsIn ok (c.toList ++ ' ' :: "SELECT".toList) :=
          .word c.toList "SELECT" (by decide) (by decide) (by decide) (hok _ (by simp))
        exact ⟨by simpa using hends, by simpa [hx] using hfirm⟩
  obtain ⟨hends, hfirm⟩ := hselect
  have hdistinct : Tsql.Distinctive selection.distinct := by
    have hopens := hq.body
    rwa [hbody] at hopens
  rw [Tsql.Selection.front, ← List.append_assoc]
  rcases hdistinct with hnone | hdistinct | ⟨keys, hkeys⟩
  · rw [hnone]
    simpa [Tsql.behindSpaces] using ⟨hends, hfirm⟩
  · have hparts : Tsql.behindSpaces selection.distinct.toList = ' ' :: "DISTINCT".toList := by
      simp [hdistinct, Tsql.behindSpaces]
    rw [hparts]
    exact ⟨.word _ "DISTINCT" (by decide) (by decide) (by decide) (hok _ (by simp)),
      hfirm.append (by simp) (by decide)⟩
  · have hparts : Tsql.behindSpaces selection.distinct.toList =
        ' ' :: ("DISTINCT ON (" ++ keys).toList ++ [')'] := by
      simp [hkeys, Tsql.behindSpaces]
    rw [hparts]
    refine ⟨?_, hfirm.append (by simp) ?_⟩
    · rw [← List.append_assoc]
      exact .parenthesis _ (hok _ (by simp)) (hok _ (by simp))
    · rw [List.getLast?_append_of_ne_nil _ (by simp)]
      decide

theorem validate_topped {top : Tsql.Top} (hq : q.Opens) (hbody : q.body = .select selection)
    (htop : Tsql.Top.capped? limit selection.top = some top) :
    (∃ r, validate .mssql (q.withBody (.select { selection with top := some top })).text = .ok r) ↔
      ∃ r, validate .mssql q.text = .ok r := by
  obtain ⟨hends, hfirm⟩ := endsIn_select (· ≠ .sign ";") (by simp) hq hbody
  have hready := ready_iff.2 hends
  rw [validate_ok_iff, validate_ok_iff]
  unfold Tsql.Top.capped? at htop
  split at htop
  · rename_i hnone
    obtain rfl := Option.some.inj htop
    rw [text_top, text_of_top_eq_none hbody hnone]
    exact passes_top hready hfirm limit (spaced_behindTop false)
  · rename_i n withTies hsome
    obtain rfl := Option.some.inj htop
    have hown : q.text = (q.withBody (.select { selection with
        top := some ⟨.constant n, false, withTies⟩ })).text := by
      rw [← hsome, ← hbody]
      cases q
      rfl
    rw [hown, text_top, text_top]
    rw [passes_top hready hfirm _ (spaced_behindTop withTies), passes_top hready hfirm _ (spaced_behindTop withTies)]
  · simp at htop

end Topped

/-! ## Queries with something behind them -/

theorem passes_closing (hw : w ∈ openingWords) (hy : Closing y) (hy' : Closing y') :
    Passes .mssql (w.toList ++ ' ' :: (x ++ y)) ↔ Passes .mssql (w.toList ++ ' ' :: (x ++ y')) := by
  have hspace (x : List Char) : Spaced (' ' :: x) := by simp [Spaced]
  rw [passes_iff_follows hw (hspace _), passes_iff_follows hw (hspace _), ← List.cons_append,
    ← List.cons_append, ← List.append_assoc, ← List.append_assoc]
  exact hy.exchange hy' .gap _

theorem validate_ok_of_closing (hw : w ∈ openingWords) (hy : Closing y)
    (htext : text.toList = w.toList ++ ' ' :: (x ++ y)) :
    (∃ r, validate .mssql text = .ok r) ↔ Passes .mssql (w.toList ++ ' ' :: (x ++ y)) := by
  have hfirm := firm_opening hw (' ' :: x) hy.ne_nil hy.last
  rw [List.cons_append, ← htext] at hfirm
  rw [validate_ok_of_firm hfirm, htext]

theorem validate_fetched (hq : q.Opens) :
    (∃ r, validate .mssql (Tsql.LimitedQuery.fetched q limit).text = .ok r) ↔
      ∃ r, validate .mssql (q.text ++ ")") = .ok r := by
  obtain ⟨w, hw, x, hx⟩ := hq.text
  have hclosing := closing_fetch limit
  have hfetched : (Tsql.LimitedQuery.fetched q limit).text.toList =
      w.toList ++ ' ' :: (x ++ (" OFFSET 0 ROWS FETCH NEXT " ++ toString limit ++ " ROWS ONLY").toList) := by
    simp [Tsql.LimitedQuery.text, hx]
  have hparenthesis : (q.text ++ ")").toList = w.toList ++ ' ' :: (x ++ [')']) := by
    simp [hx]
  rw [validate_ok_of_closing hw hclosing hfetched, validate_ok_of_closing hw closing_parenthesis hparenthesis]
  exact passes_closing hw hclosing closing_parenthesis

theorem solid_of_fronted (h : Tsql.Fronted text) (y : List Char) : Solid (text.toList ++ y) := by
  rcases h with ⟨w, x, hw, hplain, htext⟩ | ⟨x, htext⟩
  · rw [htext, List.append_assoc]
    exact solid_word hw hplain (by simp [Spaced])
  · rw [htext]
    exact solid_parenthesis _

theorem derivedFront_opens (n : Nat) :
    derivedFront n = "SELECT".toList ++ ' ' :: ("TOP " ++ toString n ++ " * FROM (").toList := by
  simp [derivedFront]

/-- A query without common table expressions as a derived table. -/
theorem validate_wrapped_plain (hq : q.Opens) (hctes : q.ctes = none) :
    (∃ r, validate .mssql (q.wrap limit).text = .ok r) ↔
      ∃ r, validate .mssql (q.withoutCtes.nameColumns.text ++ ")") = .ok r := by
  obtain ⟨x, hx⟩ := hq.derived_select hctes
  have hselect : "SELECT" ∈ openingWords := by decide
  have hwrapped : (q.wrap limit).text.toList = "SELECT".toList ++
      ' ' :: ((("TOP " ++ toString limit ++ " * FROM (").toList ++ ("SELECT".toList ++ ' ' :: x)) ++
        ") AS __result".toList) := by
    rw [← hx]
    simp [Tsql.Query.wrap, Tsql.LimitedQuery.text, hctes]
  have hkept : (q.withoutCtes.nameColumns.text ++ ")").toList = "SELECT".toList ++ ' ' :: (x ++ [')']) := by
    simp [hx]
  have hderived : derivedFront limit ++ ("SELECT".toList ++ ' ' :: (x ++ [')'])) = "SELECT".toList ++
      ' ' :: ((("TOP " ++ toString limit ++ " * FROM (").toList ++ ("SELECT".toList ++ ' ' :: x)) ++ [')']) := by
    rw [derivedFront_opens]
    simp
  rw [validate_ok_of_closing hselect closing_result hwrapped, passes_closing hselect closing_result
    closing_parenthesis, ← hderived, passes_derived limit rfl,
    validate_ok_of_closing hselect closing_parenthesis hkept]

/-- A query behind its common table expressions as a derived table. -/
theorem validate_wrapped_ctes {c : String} (hq : q.Opens) (hctes : q.ctes = some c) :
    (∃ r, validate .mssql (q.wrap limit).text = .ok r) ↔
      ∃ r, validate .mssql (c ++ " " ++ q.withoutCtes.nameColumns.text ++ ")") = .ok r := by
  obtain ⟨x, hx⟩ := hq.ctes c hctes
  have hwith : "WITH" ∈ openingWords := by decide
  have hspace (x : List Char) : Spaced (' ' :: x) := by simp [Spaced]
  have hsolid := solid_of_fronted hq.derived [')']
  generalize hv : q.withoutCtes.nameColumns.text = derived at hsolid
  have hwrapped : (q.wrap limit).text.toList = "WITH".toList ++
      ' ' :: ((x ++ ' ' :: (derivedFront limit ++ derived.toList)) ++ ") AS __result".toList) := by
    simp [Tsql.Query.wrap, Tsql.LimitedQuery.text, hctes, hx, hv, derivedFront]
  have hkept : (c ++ " " ++ derived ++ ")").toList =
      "WITH".toList ++ ' ' :: ((x ++ ' ' :: derived.toList) ++ [')']) := by
    simp [hx]
  have hderived := follows_derived hsolid limit .gap ("WITH".toList ++ ' ' :: x)
  rw [validate_ok_of_closing hwith closing_result hwrapped, passes_closing hwith closing_result
    closing_parenthesis, validate_ok_of_closing hwith closing_parenthesis hkept,
    passes_iff_follows hwith (hspace _), passes_iff_follows hwith (hspace _)]
  simpa only [List.append_assoc, List.cons_append] using hderived

theorem validate_wrapped (hq : q.Opens) :
    (∃ r, validate .mssql (q.wrap limit).text = .ok r) ↔ ∃ r, validate .mssql
      ((q.ctes.map (· ++ " ")).getD "" ++ q.withoutCtes.nameColumns.text ++ ")") = .ok r := by
  cases hctes : q.ctes with
  | none =>
      rw [validate_wrapped_plain hq hctes]
      simp
  | some c => exact validate_wrapped_ctes hq hctes

theorem limited_cases (q : Tsql.Query) (limit : Nat) :
    (∃ selection top, q.body = .select selection ∧ Tsql.Top.capped? limit selection.top = some top ∧
        q.limited limit = .topped (q.withBody (.select { selection with top := some top }))) ∨
      q.limited limit = .fetched q limit ∨ q.limited limit = q.wrap limit := by
  unfold Tsql.Query.limited
  split
  · exact .inr (.inr rfl)
  · split
    · rename_i selection hbody
      cases htop : Tsql.Top.capped? limit selection.top with
      | none => exact .inr (.inr rfl)
      | some top => exact .inl ⟨selection, top, hbody, htop, rfl⟩
    · split
      · exact .inr (.inl rfl)
      · exact .inr (.inr rfl)

theorem validate_limited (hq : q.Opens) :
    (∃ r, validate .mssql (q.limited limit).text = .ok r) ↔ (q.kept limit).Passes .mssql := by
  unfold Tsql.Query.kept
  rcases limited_cases q limit with ⟨selection, top, hbody, htop, h⟩ | h | h
  · rw [h]
    exact validate_topped hq hbody htop
  · rw [h]
    exact validate_fetched hq
  · rw [h]
    exact validate_wrapped hq

/-! ## All statements -/

theorem validate_limitRows {t : String} (hs : validate db sql = .ok s) (ht : db.limitRows s limit = .ok t) :
    (∃ r, validate db t = .ok r) ↔ (db.kept s limit).Passes db := by
  obtain ⟨hpasses, hfirm⟩ := passes_of_validate hs
  have hwrap (h : t = Statement.wrapInLimit s limit) :
      (∃ r, validate db t = .ok r) ↔ (Kept.lines s).Passes db := by
    rw [h, validate_wrapInLimit hs, semicolonFree_significant]
    rfl
  cases db with
  | postgresql => exact hwrap (Except.ok.inj ht).symm
  | mysql => exact hwrap (Except.ok.inj ht).symm
  | mssql =>
      unfold Database.limitRows Tsql.limitRows at ht
      dsimp only at ht
      rw [hfirm.withoutSemicolons] at ht
      unfold Database.kept
      dsimp only
      split at ht
      · rename_i fault hparse
        rw [hparse, validate_limitUnread hs ht, semicolonFree_significant]
        rfl
      · rename_i q hparse
        obtain rfl := Except.ok.inj ht
        rw [hparse]
        obtain ⟨found, hfound, hcheck⟩ := (passes_iff _ _).1 hpasses
        obtain ⟨opening, rest, rfl, hopening, -⟩ := opening_of_checkTokens hcheck
        exact validate_limited (Tsql.parse_opens hfound hopening hparse)
      · simp at ht
      · simp at ht

theorem validate_limitRows_top : ∃ s t, validate .mssql " SELECT [x] ;" = .ok s ∧
    Database.mssql.limitRows s 10 = .ok t ∧ ∃ r, validate .mssql t = .ok r := by
  have hs : validate .mssql " SELECT [x] ;" = .ok "SELECT [x]" := by decide +kernel
  have ht : Database.mssql.limitRows "SELECT [x]" 10 = .ok "SELECT TOP 10 [x]" := by decide +kernel
  have hkept : Database.mssql.kept "SELECT [x]" 10 = .inside "SELECT [x]" := by decide +kernel
  refine ⟨_, _, hs, ht, (validate_limitRows hs ht).2 ?_⟩
  rw [hkept]
  exact ⟨"SELECT [x]", by decide +kernel⟩

/-- A comment hides the semicolon in front of it from the text that is cut, but not from the gate. -/
theorem limitRows_refused : ¬∀ (db : Database) (sql s t : String) (limit : Nat),
    validate db sql = .ok s → db.limitRows s limit = .ok t → ∃ r, validate db t = .ok r := by
  intro h
  have hs : validate .postgresql "SELECT 1; -- note" = .ok "SELECT 1; -- note" := by decide +kernel
  have ht : Database.postgresql.limitRows "SELECT 1; -- note" 10 =
      .ok "SELECT * FROM (\nSELECT 1; -- note\n) AS __result LIMIT 10" := by decide +kernel
  have hrefused : validate .postgresql "SELECT * FROM (\nSELECT 1; -- note\n) AS __result LIMIT 10" =
      .error .severalStatements := by decide +kernel
  obtain ⟨r, hr⟩ := h _ _ _ _ _ hs ht
  rw [hrefused] at hr
  exact absurd hr (by simp)

-- A bracket that is doubled inside a name is printed once, and the name ends there.
example : Database.mssql.limitRows "SELECT [x]];DROP TABLE t--]" 10 =
    .ok "SELECT TOP 10 [x];DROP TABLE t--]" := by decide +kernel

end Sandbox

end SemanticLayer
