import SemanticLayer.Proofs.Sandbox.OneStatement
import SemanticLayer.Proofs.Sandbox.RowLimit
import SemanticLayer.Proofs.Sql.LineFeeds
/-!
What the derived table is that a limit on rows makes of a statement. The wrapper is read around the statement as
it stands, but the gate does not count parentheses: one too many in the statement closes the derived table.
-/
namespace SemanticLayer

open Sql (Token LexicalRules Lexeme)
open Sql.LexicalRules

namespace Sandbox

variable {db : Database} {sql s : String} {depth limit : Nat} {t : Token}
  {tokens inner front rest all more : List Token}

/-! ## Parentheses -/

/-- Parentheses that match: none closes that was not opened, and all are closed in the end. -/
structure Balanced (tokens : List Token) : Prop where
  within : ∀ front, front <+: tokens → front.count (.sign ")") ≤ front.count (.sign "(")
  closed : tokens.count (.sign ")") = tokens.count (.sign "(")

instance (tokens : List Token) : Decidable (Balanced tokens) :=
  decidable_of_iff ((∀ front ∈ tokens.inits, front.count (.sign ")") ≤ front.count (.sign "(")) ∧
    tokens.count (.sign ")") = tokens.count (.sign "("))
    ⟨fun h => ⟨fun front hfront => h.1 front ((List.mem_inits _ _).2 hfront), h.2⟩,
      fun h => ⟨fun front hfront => h.within front ((List.mem_inits _ _).1 hfront), h.closed⟩⟩

/-- The tokens in front of the parenthesis that closes what is open, `depth` others left aside. -/
def enclosed? : Nat → List Token → Option (List Token)
  | _, [] => none
  | depth, t :: rest =>
    if t = .sign ")" ∧ depth = 0 then some []
    else (enclosed? (depthBehind depth t) rest).map (t :: ·)

/-- What the first parenthesis of a statement encloses. -/
def firstGroup? (tokens : List Token) : Option (List Token) :=
  match tokens.dropWhile (· ≠ .sign "(") with
  | [] => none
  | _ :: rest => enclosed? 0 rest

/-- Tokens that stand in `depth` open parentheses and close all of them, not sooner than at the end. -/
def Closes (depth : Nat) (tokens : List Token) : Prop :=
  (∀ front, front <+: tokens → front.count (.sign ")") ≤ front.count (.sign "(") + depth) ∧
    tokens.count (.sign ")") = tokens.count (.sign "(") + depth

theorem closes_zero_iff : Closes 0 tokens ↔ Balanced tokens := by
  constructor
  · intro h
    exact ⟨h.1, h.2⟩
  · intro h
    exact ⟨h.within, h.closed⟩

theorem closes_nil_iff : Closes depth [] ↔ depth = 0 := by
  simp [Closes, eq_comm]

/-- What a token does to the depth, it does to the parentheses that are counted. -/
theorem count_cons_depthBehind (ht : ¬(t = .sign ")" ∧ depth = 0)) (front : List Token) :
    (t :: front).count (.sign ")") + front.count (.sign "(") + depthBehind depth t =
      front.count (.sign ")") + (t :: front).count (.sign "(") + depth := by
  unfold depthBehind
  rw [List.count_cons, List.count_cons]
  by_cases hopening : t = .sign "("
  · simp [hopening]
    omega
  · by_cases hclosing : t = .sign ")"
    · have hdepth : depth ≠ 0 := fun h => ht ⟨hclosing, h⟩
      simp [hclosing]
      omega
    · simp [hopening, hclosing]

theorem closes_cons_iff : Closes depth (t :: tokens) ↔
    ¬(t = .sign ")" ∧ depth = 0) ∧ Closes (depthBehind depth t) tokens := by
  constructor
  · rintro ⟨hwithin, hclosed⟩
    have ht : ¬(t = .sign ")" ∧ depth = 0) := by
      rintro ⟨rfl, rfl⟩
      have hfirst := hwithin [.sign ")"] (by simp)
      simp at hfirst
    refine ⟨ht, fun front hfront => ?_, ?_⟩
    · have hcount := count_cons_depthBehind ht front
      have hle := hwithin (t :: front) (List.cons_prefix_cons.2 ⟨rfl, hfront⟩)
      omega
    · have hcount := count_cons_depthBehind ht tokens
      omega
  · rintro ⟨ht, hwithin, hclosed⟩
    refine ⟨fun front hfront => ?_, ?_⟩
    · rcases List.prefix_cons_iff.1 hfront with rfl | ⟨front', rfl, hfront'⟩
      · simp
      · have hcount := count_cons_depthBehind ht front'
        have hle := hwithin front' hfront'
        omega
    · have hcount := count_cons_depthBehind ht tokens
      omega

theorem enclosed?_eq_some_iff :
    enclosed? depth (inner ++ .sign ")" :: rest) = some inner ↔ Closes depth inner := by
  -- the depth is what the tokens in front have opened, so it goes along with the induction
  induction inner generalizing depth with
  | nil =>
      rw [closes_nil_iff, List.nil_append, enclosed?]
      by_cases hdepth : depth = 0
      · simp [hdepth]
      · simp [hdepth]
  | cons t inner ih =>
      rw [closes_cons_iff, List.cons_append, enclosed?]
      by_cases ht : t = .sign ")" ∧ depth = 0
      · simp [ht]
      · rw [if_neg ht, ← ih]
        simp [ht]

theorem balanced_concat_iff (ht : t ∉ [.sign "(", .sign ")"]) :
    Balanced (front ++ [t]) ↔ Balanced front := by
  have hcount : ∀ u ∈ [Token.sign "(", .sign ")"], (front ++ [t]).count u = front.count u := by
    intro u hu
    have hne : t ≠ u := fun h => ht (h ▸ hu)
    simp [hne]
  have hopening := hcount (.sign "(") (by simp)
  have hclosing := hcount (.sign ")") (by simp)
  constructor
  · intro h
    constructor
    · intro p hp
      exact h.within p (hp.trans (List.prefix_append _ _))
    · rw [← hclosing, ← hopening]
      exact h.closed
  · intro h
    constructor
    · intro p hp
      rcases List.prefix_concat_iff.1 hp with rfl | hp
      · rw [hclosing, hopening]
        exact h.closed.le
      · exact h.within p hp
    · rw [hclosing, hopening]
      exact h.closed

/-! ## The wrapper -/

def wrapperFront : List Token :=
  [.word "SELECT" none, .sign "*", .word "FROM" none, .sign "("]

def wrapperBack (limit : Nat) : List Token :=
  [.sign ")", .word "AS" none, .word "__result" none, .word "LIMIT" none, .number (toString limit) false]

theorem fallsInto_front (db : Database) : ∃ tokens, withoutGaps tokens = wrapperFront ∧
    FallsInto (ofDatabase db) "SELECT * FROM (\n".toList tokens .gap := by
  refine ⟨[.word "SELECT" none, .gap, .sign "*", .gap, .word "FROM" none, .gap, .sign "(", .gap],
    by decide, ?_⟩
  have hselect : FallsInto (ofDatabase db) _ _ _ := fallsInto_word "SELECT" (by decide) (by decide)
  have hfrom : FallsInto (ofDatabase db) _ _ _ := fallsInto_word "FROM" (by decide) (by decide)
  have hspace : FallsInto (ofDatabase db) _ _ _ := fallsInto_plainGap (c := ' ') rfl
  have hline : FallsInto (ofDatabase db) _ _ _ := fallsInto_plainGap (c := '\n') rfl
  exact (((hselect.append (fallsInto_sign (c := '*') (by simp))).append hspace).append
    (hfrom.append (fallsInto_sign (c := '(') (by simp)))).append hline

theorem lexes_back (db : Database) (limit : Nat) : ∃ tokens, withoutGaps tokens = wrapperBack limit ∧
    ∀ previous, Lexes (ofDatabase db) previous (") AS __result LIMIT " ++ toString limit).toList tokens := by
  refine ⟨[.sign ")", .gap, .word "AS" none, .gap, .word "__result" none, .gap, .word "LIMIT" none, .gap,
    .number (toString limit) false], rfl, fun previous => ?_⟩
  have has : FallsInto (ofDatabase db) _ _ _ := fallsInto_word "AS" (by decide) (by decide)
  have hresult : FallsInto (ofDatabase db) _ _ _ := fallsInto_word "__result" (by decide) (by decide)
  have hlimit : FallsInto (ofDatabase db) _ _ _ := fallsInto_word "LIMIT" (by decide) (by decide)
  have hback := ((((fallsInto_sign (c := ')') (by simp)).append (fallsInto_plainGap (c := ' ') rfl)).append
    has).append hresult).append hlimit
  have hlexes := hback previous _ _ (lexes_number limit)
  simpa using hlexes

/-- The statement, on a line of its own, and the wrapper around it. -/
theorem significant_wrapInLimit (hs : Lexes (ofDatabase db) .gap s.toList all)
    (hfirm : Statement.Firm s.toList) (limit : Nat) :
    significant db (Statement.wrapInLimit s limit).toList =
      .ok (wrapperFront ++ withoutGaps ((ofDatabase db).beforeLineFeed all) ++ wrapperBack limit) := by
  obtain ⟨before, hbefore, hfront⟩ := fallsInto_front db
  obtain ⟨behind, hbehind, hback⟩ := lexes_back db limit
  have hname : (") AS __result LIMIT " ++ toString limit).toList.takeWhile (ofDatabase db).isNamePart = [] := by
    have hparenthesis : (") AS __result LIMIT " ++ toString limit).toList =
        ')' :: (" AS __result LIMIT " ++ toString limit).toList := by simp
    rw [hparenthesis, List.takeWhile_cons_of_neg]
    cases db <;> decide
  obtain ⟨gaps, hgaps, hline⟩ := hs.append_line hname hback
  have hempty : withoutGaps gaps = [] := by
    rw [withoutGaps, List.filter_eq_nil_iff]
    intro t ht
    simp [hgaps t ht]
  rw [wrapInLimit_toList hfirm, significant_eq_ok_iff_lexes]
  refine ⟨_, hfront _ _ _ hline, ?_⟩
  simp [hbefore, hbehind, hempty]

theorem firstGroup?_wrapper (inner : List Token) (limit : Nat) :
    firstGroup? (wrapperFront ++ inner ++ wrapperBack limit) = some inner ↔ Balanced inner := by
  have hgroup : firstGroup? (wrapperFront ++ inner ++ wrapperBack limit) =
      enclosed? 0 (inner ++ .sign ")" :: (wrapperBack limit).tail) := by
    rw [List.append_assoc]
    rfl
  rw [hgroup, enclosed?_eq_some_iff, closes_zero_iff]

/-! ## The statement inside -/

theorem withoutGaps_concat (ht : t ≠ .gap) (front : List Token) :
    withoutGaps (front ++ [t]) = withoutGaps front ++ [t] := by
  simp [withoutGaps, ht]

theorem balanced_beforeLineFeed (rules : LexicalRules) (all : List Token) :
    Balanced (withoutGaps (rules.beforeLineFeed all)) ↔ Balanced (withoutGaps all) := by
  rcases List.eq_nil_or_concat all with rfl | ⟨front, t, rfl⟩
  · rfl
  · rw [List.concat_eq_append, beforeLineFeed_concat]
    by_cases hsign : ∃ sign, t = .sign sign ∧ rules.BeginsName sign
    · obtain ⟨sign, rfl, hsign⟩ := hsign
      have hapart : ∀ sign ∈ nameSigns, Token.sign sign ∉ [.sign "(", .sign ")"] := by decide
      rw [withLineFeed_of_beginsName hsign, withoutGaps_concat (by simp), withoutGaps_concat (by simp),
        balanced_concat_iff (by simp), balanced_concat_iff (hapart sign hsign.1)]
    · rw [withLineFeed_eq_self fun sign ht h => hsign ⟨sign, ht, h⟩]

theorem withoutGaps_beforeLineFeed (rules : LexicalRules) (all : List Token) :
    withoutGaps (rules.beforeLineFeed all) = withoutGaps all ↔
      ∀ sign, all.getLast? = some (.sign sign) → ¬rules.BeginsName sign := by
  rcases List.eq_nil_or_concat all with rfl | ⟨front, t, rfl⟩
  · simp [beforeLineFeed]
  · rw [List.concat_eq_append, beforeLineFeed_concat, withoutGaps_append, withoutGaps_append,
      List.append_right_inj, List.getLast?_concat]
    constructor
    · intro h sign ht hsign
      obtain rfl := Option.some.inj ht
      rw [withLineFeed_of_beginsName hsign] at h
      simp [withoutGaps] at h
    · intro h
      rw [withLineFeed_eq_self fun sign ht => h sign (congrArg some ht)]

/-- Of the engines that limit rows so, only MySQL has names that begin with a sign. -/
theorem beginsName_iff (hdb : db ≠ .mssql) {sign : String} :
    (ofDatabase db).BeginsName sign ↔ db = .mysql ∧ sign ∈ ["@", "@@"] := by
  cases db with
  | postgresql => simpa using not_beginsName_postgresql sign
  | mysql => simpa using beginsName_mysql_iff
  | mssql => exact absurd rfl hdb

/-- A limit on rows as a derived table: the wrapper is read as it is written, and between its parentheses the
statement, whose last token is another only where it is an at sign of MySQL. The parentheses enclose what is
between them just if those of the statement match. -/
theorem wrapInLimit_encloses (hdb : db ≠ .mssql) (hs : validate db sql = .ok s) (limit : Nat) :
    ∃ lexemes tokens inner, (ofDatabase db).lexemes s.toList = .ok lexemes ∧
      significant db s.toList = .ok tokens ∧
      significant db (Statement.wrapInLimit s limit).toList =
        .ok (wrapperFront ++ inner ++ wrapperBack limit) ∧
      inner = withoutGaps ((ofDatabase db).beforeLineFeed (lexemes.map Lexeme.token)) ∧
      (inner = tokens ↔
        ¬(db = .mysql ∧ ∃ last ∈ lexemes.getLast?, last.token ∈ [.sign "@", .sign "@@"])) ∧
      (firstGroup? (wrapperFront ++ inner ++ wrapperBack limit) = some inner ↔ Balanced tokens) := by
  obtain ⟨hpasses, hfirm⟩ := passes_of_validate hs
  obtain ⟨tokens, htokens, -⟩ := (passes_iff _ _).1 hpasses
  obtain ⟨all, hall, rfl⟩ := significant_eq_ok_iff_lexes.1 htokens
  obtain ⟨lexemes, hlexemes, rfl⟩ := (lexemes_eq_ok_iff _ _).2 hall
  refine ⟨lexemes, _, _, hlexemes, htokens, significant_wrapInLimit hall hfirm limit, rfl, ?_, ?_⟩
  · rw [withoutGaps_beforeLineFeed]
    simp only [beginsName_iff hdb, List.getLast?_map, Option.map_eq_some_iff]
    constructor
    · rintro h ⟨hmysql, last, hlast, hmem⟩
      obtain ⟨sign, hsign, htoken⟩ : ∃ sign ∈ ["@", "@@"], last.token = .sign sign := by
        simpa using hmem
      exact h sign ⟨last, hlast, htoken⟩ ⟨hmysql, hsign⟩
    · rintro h sign ⟨last, hlast, htoken⟩ ⟨hmysql, hsign⟩
      refine h ⟨hmysql, last, hlast, ?_⟩
      rw [htoken]
      simpa using hsign
  · rw [firstGroup?_wrapper, balanced_beforeLineFeed]

theorem wrapInLimit_encloses_note : ∃ s tokens, validate .postgresql "SELECT f(a) FROM t -- note" = .ok s ∧
    significant .postgresql s.toList = .ok tokens ∧
    significant .postgresql (Statement.wrapInLimit s 5).toList =
      .ok (wrapperFront ++ tokens ++ wrapperBack 5) ∧
    firstGroup? (wrapperFront ++ tokens ++ wrapperBack 5) = some tokens := by
  have hs : validate .postgresql "SELECT f(a) FROM t -- note" = .ok "SELECT f(a) FROM t -- note" := by
    decide +kernel
  obtain ⟨lexemes, tokens, inner, -, htokens, hwrapped, -, hinner, hgroup⟩ :=
    wrapInLimit_encloses (by decide) hs 5
  obtain rfl := hinner.2 (by simp)
  have hbalanced : Balanced inner := by
    have hfound : significant .postgresql "SELECT f(a) FROM t -- note".toList =
        .ok [.word "SELECT" none, .word "f" none, .sign "(", .word "a" none, .sign ")", .word "FROM" none,
          .word "t" none] := by decide +kernel
    rw [hfound] at htokens
    obtain rfl := Except.ok.inj htokens
    decide
  exact ⟨_, inner, hs, htokens, hwrapped, hgroup.2 hbalanced⟩

/-- A statement whose parentheses do not match passes the gate. -/
theorem wrapInLimit_escaped : ¬∀ (db : Database) (sql s : String) (limit : Nat), db ≠ .mssql →
    validate db sql = .ok s → ∃ tokens, significant db s.toList = .ok tokens ∧
      significant db (Statement.wrapInLimit s limit).toList =
        .ok (wrapperFront ++ tokens ++ wrapperBack limit) ∧ Balanced tokens := by
  intro h
  have hs : validate .postgresql "SELECT 1) AS x, (SELECT 2" = .ok "SELECT 1) AS x, (SELECT 2" := by
    decide +kernel
  have hfound : significant .postgresql "SELECT 1) AS x, (SELECT 2".toList =
      .ok [.word "SELECT" none, .number "1" false, .sign ")", .word "AS" none, .word "x" none, .sign ",",
        .sign "(", .word "SELECT" none, .number "2" false] := by decide +kernel
  obtain ⟨tokens, htokens, -, hbalanced⟩ := h _ _ _ 10 (by decide) hs
  rw [hfound] at htokens
  obtain rfl := Except.ok.inj htokens
  exact absurd hbalanced (by decide)

-- The derived table is another statement, and a second one stands beside it.
example : (significant .postgresql (Statement.wrapInLimit "SELECT 1) AS x, (SELECT 2" 10).toList).toOption.bind
    firstGroup? = some [.word "SELECT" none, .number "1" false] := by decide +kernel

-- The line feed behind the at sign is read as the end of a name.
example : significant .mysql (Statement.wrapInLimit "SELECT @" 10).toList =
    .ok (wrapperFront ++ [.word "SELECT" none, .word "@\n" none] ++ wrapperBack 10) := by decide +kernel

end Sandbox

end SemanticLayer
