import SemanticLayer.Proofs.Sandbox.Gate
/-!
A statement on lines of its own inside another one. A line feed closes every comment that the statement leaves
open, so what the gate makes of the whole depends on the semicolons in it alone.
-/
namespace SemanticLayer.Sandbox

open Sql (Token LexicalRules)
open Sql.LexicalRules

variable {db : Database} {rules : LexicalRules} {stage : Stage} {previous t : Token}
  {tokens : List Token} {s x y : List Char}

/-! ## The end of the statement -/

/-- A token that an ending can leave incomplete without a fault. -/
def Loose (t : Token) : Prop :=
  t = .gap ∨ ∃ text, t = .sign text ∧ text ≠ ";"

theorem Loose.harmless (ht : Loose t) : Harmless t := by
  rcases ht with rfl | ⟨text, rfl, htext⟩
  · decide
  · exact ⟨by simpa using htext, rfl⟩

theorem Loose.not_opening (ht : Loose t) : listed? openingWords t = none := by
  rcases ht with rfl | ⟨text, rfl, -⟩ <;> rfl

/-- What a line feed can make of the last token of a text that ends in front of it. -/
def lineTokens : List Token :=
  [.gap, .sign "&>", .word "" none]

/-- Where a text can end, a line feed behind it ends the last token, if need be with the name part of what
follows. -/
theorem stage_newline (hvalid : stage.Valid rules) (hend : stage.Reads rules [] tokens) :
    (∀ t ∈ tokens, Loose t) ∧ ∀ y, ∃ pre left previous, (∀ t ∈ pre, t ∈ lineTokens) ∧
      (left = y ∨ left = y.dropWhile rules.isNamePart) ∧
      ∀ m, stage.Reads rules ('\n' :: y) m ↔ ∃ more, Reads rules previous left more ∧ m = pre ++ more := by
  cases stage with
  | between previous =>
      obtain rfl := reads_nil_iff.1 hend
      refine ⟨by simp, fun y => ⟨[.gap], y, .gap, by decide, .inl rfl, fun m => ?_⟩⟩
      exact reads_plainGap rfl
  | inside e =>
      obtain ⟨hwithin, hopen⟩ := hvalid
      obtain ⟨t, left, more, hafter, hmore, rfl⟩ := hend
      obtain ⟨rfl, ⟨ht, hline⟩ | ⟨sign, rfl, rfl⟩⟩ := Ending.after_newline hopen hafter
      · obtain rfl := reads_nil_iff.1 hmore
        have hloose : ∀ t ∈ [Token.gap, .sign "&>"], Loose t := by simp [Loose]
        have hkind : ∀ t ∈ [Token.gap, .sign "&>"], t ∈ lineTokens := by decide
        refine ⟨by simpa using hloose t ht, fun y => ⟨[t], y, t, by simpa using hkind t ht, .inl rfl,
          fun m => ?_⟩⟩
        exact Stage.reads_inside_iff (hline y)
      · obtain rfl := reads_nil_iff.1 hmore
        have hsign : sign ≠ ";" := by
          rintro rfl
          exact absurd hwithin.1 (by decide)
        refine ⟨by simp [Loose, hsign], fun y => ⟨[.word "" none], y.dropWhile rules.isNamePart,
          .word "" none, by decide, .inr rfl, fun m => ?_⟩⟩
        exact Stage.reads_inside_iff rfl

/-! ## What follows the statement -/

/-- A text whose tokens are harmless, whatever stands in front. -/
def Calm (rules : LexicalRules) (y : List Char) : Prop :=
  ∀ previous, ∃ tokens, Reads rules previous y tokens ∧ ∀ t ∈ tokens, Harmless t

/-- A calm text that is not only gaps. -/
def Trailing (rules : LexicalRules) (y : List Char) : Prop :=
  ∀ previous, ∃ tokens, Reads rules previous y tokens ∧ (∀ t ∈ tokens, Harmless t) ∧
    withoutGaps tokens ≠ []

theorem Calm.nil : Calm rules [] :=
  fun _ => ⟨[], .nil, by simp⟩

theorem Trailing.calm (hy : Trailing rules y) : Calm rules y := by
  intro previous
  obtain ⟨tokens, hreads, hharmless, -⟩ := hy previous
  exact ⟨tokens, hreads, hharmless⟩

theorem Trailing.space (hy : Trailing rules y) : Trailing rules (' ' :: y) := by
  intro previous
  obtain ⟨tokens, hreads, hharmless, hempty⟩ := hy .gap
  refine ⟨.gap :: tokens, (reads_plainGap rfl).2 ⟨tokens, hreads, rfl⟩, ?_, hempty⟩
  rintro t (_ | ⟨_, ht⟩)
  · decide
  · exact hharmless t ht

theorem Trailing.afterName (hy : Trailing rules y) (hhead : y.head?.any rules.isNamePart = false) :
    Trailing rules (y.dropWhile rules.isNamePart) := by
  cases y with
  | nil => exact hy
  | cons d y =>
      have hd : rules.isNamePart d = false := hhead
      rwa [List.dropWhile_cons_of_neg (by simp [hd])]

/-- A harmless token in front of a calm text. -/
theorem Calm.behind (hy : Calm rules y) (ht : Harmless t) (hgap : t ≠ .gap)
    (hreads : ∀ previous m, Reads rules previous x m ↔ ∃ more, Reads rules t y more ∧ m = t :: more) :
    Trailing rules x := by
  intro previous
  obtain ⟨tokens, hy, hharmless⟩ := hy t
  refine ⟨t :: tokens, (hreads _ _).2 ⟨tokens, hy, rfl⟩, ?_, by simp [withoutGaps, hgap]⟩
  rintro u (_ | ⟨_, hu⟩)
  · exact ht
  · exact hharmless u hu

theorem Calm.word (hy : Calm (ofDatabase db) y) (w : String) (hw : w.toList ≠ [])
    (hplain : w.toList.all isPlain = true) (hharmless : Harmless (.word w none))
    (hhead : ∀ d ∈ y.head?, d ∈ [' ', ')', '\n']) : Trailing (ofDatabase db) (w.toList ++ y) :=
  hy.behind hharmless (by simp) fun _ _ => reads_word w hw hplain hhead

theorem Calm.number (hy : Calm (ofDatabase db) y) (n : Nat) (hapart : Apart (ofDatabase db) y) :
    Trailing (ofDatabase db) ((toString n).toList ++ y) :=
  hy.behind ⟨by simp, rfl⟩ (by simp) fun _ _ => reads_number n hapart

theorem Calm.parenthesis (hy : Calm (ofDatabase db) y) : Trailing (ofDatabase db) (')' :: y) :=
  hy.behind (t := .sign ")") (by decide) (by simp) fun _ _ => reads_sign (c := ')') (by simp)

/-- A text with a line behind it is read up to the line as it is alone, but for a loose end. -/
theorem reads_newline (hs : Reads rules .gap s tokens) (hx : Apart rules ('\n' :: y)) :
    ∃ done loose pre left previous, tokens = done ++ loose ∧ (∀ t ∈ loose, Loose t) ∧
      (∀ t ∈ pre, t ∈ lineTokens) ∧ (left = y ∨ left = y.dropWhile rules.isNamePart) ∧
      ∀ m, Reads rules .gap (s ++ '\n' :: y) m ↔
        ∃ more, Reads rules previous left more ∧ m = done ++ (pre ++ more) := by
  obtain ⟨done, stage, hvalid, hstage⟩ := reads_append .gap s fun _ => ⟨tokens, hs⟩
  have hnil := hstage [] .nil tokens
  rw [List.append_nil] at hnil
  obtain ⟨loose, hloose, rfl⟩ := hnil.1 hs
  obtain ⟨hall, hline⟩ := stage_newline hvalid hloose
  obtain ⟨pre, left, previous, hpre, hleft, hreads⟩ := hline y
  refine ⟨done, loose, pre, left, previous, rfl, hall, hpre, hleft, fun m => ?_⟩
  rw [hstage _ hx]
  constructor
  · rintro ⟨behind, hbehind, rfl⟩
    obtain ⟨more, hmore, rfl⟩ := (hreads behind).1 hbehind
    exact ⟨more, hmore, rfl⟩
  · rintro ⟨more, hmore, rfl⟩
    exact ⟨_, (hreads _).2 ⟨more, hmore, rfl⟩, rfl⟩

theorem reads_line (hs : Reads rules .gap s tokens) (hx : Apart rules ('\n' :: y))
    (hy : Trailing rules y) (hname : Trailing rules (y.dropWhile rules.isNamePart)) :
    ∃ done loose rest, tokens = done ++ loose ∧ (∀ t ∈ loose, Loose t) ∧
      Reads rules .gap (s ++ '\n' :: y) (done ++ rest) ∧ (∀ t ∈ rest, Harmless t) ∧
      withoutGaps rest ≠ [] := by
  obtain ⟨done, loose, pre, left, previous, heq, hloose, hpre, hleft, hreads⟩ := reads_newline hs hx
  have htrailing : Trailing rules left := by
    rcases hleft with rfl | rfl
    · exact hy
    · exact hname
  obtain ⟨more, hmore, hharmless, hempty⟩ := htrailing previous
  refine ⟨done, loose, pre ++ more, heq, hloose, (hreads _).2 ⟨more, hmore, rfl⟩, ?_, by simp [hempty]⟩
  have hline : ∀ t ∈ lineTokens, Harmless t := by decide
  intro t ht
  rcases List.mem_append.1 ht with ht | ht
  · exact hline t (hpre t ht)
  · exact hharmless t ht

/-! ## The whole -/

/-- No semicolon is among the tokens of a text. -/
def SemicolonFree (db : Database) (s : List Char) : Prop :=
  ∃ tokens, Reads (ofDatabase db) .gap s tokens ∧ .sign ";" ∉ tokens

/-- Between harmless tokens a statement that has passed is harmless where it has no semicolon. -/
theorem checkRest_line {done loose rest : List Token}
    (hs : checkTokens (withoutGaps (done ++ loose)) = .ok ()) (hloose : ∀ t ∈ loose, Loose t)
    (hrest : ∀ t ∈ rest, Harmless t) (hempty : withoutGaps rest ≠ []) :
    (checkTokens (withoutGaps (done ++ rest)) = .ok () ↔ .sign ";" ∉ done ++ loose) ∧
      (checkRest (withoutGaps (done ++ rest)) = .ok () ↔ .sign ";" ∉ done ++ loose) := by
  have hsemicolon : .sign ";" ∉ loose := fun h => (hloose _ h).harmless.1 rfl
  have hrest' : checkRest (withoutGaps rest) = .ok () :=
    checkRest_of_harmless fun t ht => hrest t (mem_withoutGaps.1 ht).1
  rw [withoutGaps_append] at hs ⊢
  -- the opening word stands in front of the loose end
  cases hdone : withoutGaps done with
  | nil =>
      rw [hdone, List.nil_append] at hs
      obtain ⟨o, others, heq, ho, -⟩ := opening_of_checkTokens hs
      have hmem : o ∈ loose := (mem_withoutGaps.1 (heq ▸ List.mem_cons_self : o ∈ withoutGaps loose)).1
      rw [(hloose o hmem).not_opening] at ho
      exact absurd ho (by simp)
  | cons o others =>
      rw [hdone] at hs
      obtain ⟨o', others', heq, ho, hothers⟩ := opening_of_checkTokens hs
      obtain ⟨rfl, rfl⟩ := List.cons.inj heq
      have hgaps (l : List Token) : .sign ";" ∈ l ↔ .sign ";" ∈ withoutGaps l := by
        simp [mem_withoutGaps]
      have hmem : .sign ";" ∈ done ++ loose ↔ .sign ";" ∈ others ++ withoutGaps loose := by
        rw [hgaps, withoutGaps_append, hdone, List.cons_append, List.mem_cons]
        simp [(harmless_of_opening ho).1.symm]
      have hall : checkRest (others ++ withoutGaps rest) = .ok () ↔ .sign ";" ∉ done ++ loose := by
        rw [checkRest_append hempty, hmem]
        constructor
        · rintro ⟨hharmless, -⟩ h
          rcases List.mem_append.1 h with h | h
          · exact (hharmless _ h).1 rfl
          · exact hsemicolon (mem_withoutGaps.1 h).1
        · intro h
          exact ⟨fun t ht => harmless_of_checkRest hothers h t (List.mem_append_left _ ht), hrest'⟩
      rw [List.cons_append, checkTokens_cons ho, checkRest_cons (harmless_of_opening ho).1]
      exact ⟨hall, by simp [hall, (harmless_of_opening ho).2]⟩

theorem semicolonFree_iff (hs : Reads (ofDatabase db) .gap s tokens) :
    SemicolonFree db s ↔ .sign ";" ∉ tokens := by
  constructor
  · rintro ⟨tokens', hs', hsemicolon⟩
    rwa [hs.unique hs']
  · exact fun hsemicolon => ⟨tokens, hs, hsemicolon⟩

/-- A statement with something on the line behind it. -/
theorem passes_line (hs : Passes db s) (hy : Trailing (ofDatabase db) y)
    (hname : Trailing (ofDatabase db) (y.dropWhile (ofDatabase db).isNamePart)) :
    Passes db (s ++ '\n' :: y) ↔ SemicolonFree db s := by
  obtain ⟨tokens, hreads, hcheck⟩ := hs
  rw [semicolonFree_iff hreads]
  obtain ⟨done, loose, rest, rfl, hloose, hline, hrest, hempty⟩ :=
    reads_line hreads (apart_newline db y) hy hname
  rw [← (checkRest_line hcheck hloose hrest hempty).1]
  constructor
  · rintro ⟨all, hall, hpass⟩
    rwa [hline.unique hall]
  · exact fun hpass => ⟨_, hline, hpass⟩

/-- A text that opens a statement, complete and harmless. -/
def Leading (db : Database) (front : List Char) : Prop :=
  ∃ opening tokens, (listed? openingWords opening).isSome ∧ opening ≠ .gap ∧
    (∀ t ∈ tokens, Harmless t) ∧ Spells (ofDatabase db) front (opening :: tokens) .gap

/-- A statement on lines of its own inside another one. -/
theorem passes_lines {front : List Char} (hfront : Leading db front) (hs : Passes db s)
    (hy : Trailing (ofDatabase db) y)
    (hname : Trailing (ofDatabase db) (y.dropWhile (ofDatabase db).isNamePart)) :
    Passes db (front ++ (s ++ '\n' :: y)) ↔ SemicolonFree db s := by
  obtain ⟨opening, tokens, hopening, hgap, hharmless, hreads⟩ := hfront
  obtain ⟨found, hfound, hcheck⟩ := hs
  rw [semicolonFree_iff hfound]
  obtain ⟨done, loose, rest, rfl, hloose, hline, hrest, hempty⟩ :=
    reads_line hfound (apart_newline db y) hy hname
  rw [← (checkRest_line hcheck hloose hrest hempty).2]
  have hpass : checkTokens (withoutGaps (opening :: tokens ++ (done ++ rest))) = .ok () ↔
      checkRest (withoutGaps (done ++ rest)) = .ok () := by
    rw [List.cons_append, withoutGaps, List.filter_cons_of_pos (by simpa using hgap),
      checkTokens_cons hopening, ← withoutGaps, withoutGaps_append, checkRest_append (by simp [hempty])]
    exact and_iff_right fun t ht => hharmless t (mem_withoutGaps.1 ht).1
  rw [← hpass]
  constructor
  · rintro ⟨all, hall, h⟩
    obtain ⟨more, hmore, rfl⟩ := (hreads _ _ _).1 hall
    rwa [hline.unique hmore]
  · exact fun h => ⟨_, (hreads _ _ _).2 ⟨_, hline, rfl⟩, h⟩

/-! ## Derived tables -/

theorem leading_select (db : Database) : Leading db "SELECT * FROM (\n".toList := by
  refine ⟨.word "SELECT" none,
    [.gap, .sign "*", .gap, .word "FROM" none, .gap, .sign "(", .gap], by decide, by simp, by decide, ?_⟩
  have hselect : Spells (ofDatabase db) _ _ _ := spells_word "SELECT" (by decide) (by decide)
  have hfrom : Spells (ofDatabase db) _ _ _ := spells_word "FROM" (by decide) (by decide)
  exact (((hselect.append (spells_sign (c := '*') (by simp))).append (spells_plainGap (c := ' ') rfl)).append
    (hfrom.append (spells_sign (c := '(') (by simp)))).append (spells_plainGap (c := '\n') rfl)

/-- What stands in front of a query in a derived table. -/
def derivedFront (n : Nat) : List Char :=
  ("SELECT TOP " ++ toString n ++ " * FROM (").toList

def derivedTokens (n : Nat) : List Token :=
  [.gap, .word "TOP" none, .gap, .number (toString n) false, .gap, .sign "*", .gap, .word "FROM" none, .gap,
    .sign "("]

theorem derivedTokens_harmless (n : Nat) : ∀ t ∈ derivedTokens n, Harmless t := by
  have hnumber : Harmless (.number (toString n) false) := ⟨by simp, rfl⟩
  simp only [derivedTokens, List.forall_mem_cons, hnumber, true_and]
  decide

theorem spells_derived (n : Nat) :
    Spells (ofDatabase .mssql) (derivedFront n) (.word "SELECT" none :: derivedTokens n) (.sign "(") := by
  have hselect : Spells (ofDatabase .mssql) _ _ _ := spells_word "SELECT" (by decide) (by decide)
  have htop : Spells (ofDatabase .mssql) _ _ _ := spells_word "TOP" (by decide) (by decide)
  have hfrom : Spells (ofDatabase .mssql) _ _ _ := spells_word "FROM" (by decide) (by decide)
  have hall := ((((hselect.append htop).append (spells_number n)).append
    (spells_sign (c := '*') (by simp))).append (spells_plainGap (c := ' ') rfl)).append
    (hfrom.append (spells_sign (c := '(') (by simp)))
  simpa [derivedFront, derivedTokens] using hall

theorem leading_top (n : Nat) : Leading .mssql ("SELECT TOP " ++ toString n ++ " * FROM (\n").toList := by
  have hall := (spells_derived n).append (spells_plainGap (c := '\n') rfl)
  refine ⟨.word "SELECT" none, derivedTokens n ++ [.gap], by decide, by simp, ?_, by simpa [derivedFront] using hall⟩
  intro t ht
  rcases List.mem_append.1 ht with ht | ht
  · exact derivedTokens_harmless n t ht
  · obtain rfl := List.mem_singleton.1 ht
    decide

theorem trailing_limit (db : Database) (n : Nat) :
    Trailing (ofDatabase db) (") AS __result LIMIT " ++ toString n).toList := by
  have hnil : Calm (ofDatabase db) [] := .nil
  have hn : Trailing (ofDatabase db) (toString n).toList := by
    simpa using hnil.number n .nil
  have hlimit : Trailing (ofDatabase db) ("LIMIT".toList ++ ' ' :: (toString n).toList) :=
    hn.space.calm.word "LIMIT" (by decide) (by decide) (by decide) (by simp)
  have hresult := hlimit.space.calm.word "__result" (by decide) (by decide) (by decide) (by simp)
  have has := hresult.space.calm.word "AS" (by decide) (by decide) (by decide) (by simp)
  simpa using has.space.calm.parenthesis

theorem trailing_alias : Trailing (ofDatabase .mssql) " AS __result".toList := by
  have hnil : Calm (ofDatabase .mssql) [] := .nil
  have hresult := hnil.word "__result" (by decide) (by decide) (by decide) (by simp)
  exact (hresult.space.calm.word "AS" (by decide) (by decide) (by decide) (by simp)).space

theorem trailing_result : Trailing (ofDatabase .mssql) ") AS __result".toList :=
  trailing_alias.calm.parenthesis

theorem trailing_rows (n : Nat) : Trailing (ofDatabase .mssql)
    (" 0 ROWS FETCH NEXT " ++ toString n ++ " ROWS ONLY").toList := by
  have hnil : Calm (ofDatabase .mssql) [] := .nil
  have honly := hnil.word "ONLY" (by decide) (by decide) (by decide) (by simp)
  have hrows := honly.space.calm.word "ROWS" (by decide) (by decide) (by decide) (by simp)
  have hn := hrows.space.calm.number n (apart_space _)
  have hnext := hn.space.calm.word "NEXT" (by decide) (by decide) (by decide) (by simp)
  have hfetch := hnext.space.calm.word "FETCH" (by decide) (by decide) (by decide) (by simp)
  have hrows' := hfetch.space.calm.word "ROWS" (by decide) (by decide) (by decide) (by simp)
  have hzero := (hrows'.space.calm.number 0 (apart_space _)).space
  simpa using hzero

theorem trailing_fetch (n : Nat) : Trailing (ofDatabase .mssql)
    ("OFFSET 0 ROWS FETCH NEXT " ++ toString n ++ " ROWS ONLY").toList := by
  have hoffset := (trailing_rows n).calm.word "OFFSET" (by decide) (by decide) (by decide) (by simp)
  simpa using hoffset

end SemanticLayer.Sandbox
