import SemanticLayer.Proofs.Sql.Words
/-!
A line of text behind another one. The line feed between them ends the last token of the first, whatever that
is; only a sign that begins a name takes it for a part of the name.
-/
namespace SemanticLayer.Sql.LexicalRules

variable {db : Database} {rules : LexicalRules} {previous t : Token} {c : Char} {sign : String}
  {s rest left y : List Char} {tokens more : List Token}

/-! ## Signs that begin names -/

/-- Where a scan gives a sign that may begin a name, the sign is all that it takes. -/
def Bare (s : List Char) (r : Scan) : Prop :=
  ∀ sign ∈ nameSigns, ∀ left, r = .ok (.sign sign, left) → s = sign.toList ++ left

theorem bare_error (stop : LexicalStop) : Bare s (.error stop) := by
  intro sign _ left h
  cases h

theorem bare_token (ht : ∀ sign ∈ nameSigns, t ≠ .sign sign) (left : List Char) :
    Bare s (.ok (t, left)) := by
  intro sign hsign left' h
  cases h
  exact absurd rfl (ht sign hsign)

theorem bare_sign (hs : s = sign.toList ++ left) : Bare s (.ok (.sign sign, left)) := by
  intro sign' _ left' h
  cases h
  exact hs

theorem bare_readWord (start rest : List Char) : Bare s (rules.readWord start rest) :=
  bare_token (by simp) _

theorem bare_extend (spelled : String) (rest : List Char) :
    Bare (spelled.toList ++ rest) (rules.extend spelled spelled rest) := by
  unfold extend
  dsimp only
  split
  · exact bare_sign rfl
  · refine bare_sign ?_
    have hprefix := List.prefix_iff_eq_append.1 (List.takeWhile_prefix rules.isOperatorPart (l := rest))
    rw [String.toList_append, String.toList_ofList, List.append_assoc, hprefix]

theorem bare_signedName (start : Char) (signs rest : List Char) {k : Scan} (hk : Bare s k) :
    Bare s ((rules.signedName? start signs rest).getD k) := by
  cases rest with
  | nil => exact hk
  | cons c rest =>
      rw [signedName?]
      split
      · exact bare_readWord _ _
      · exact hk

theorem bare_readHash (rest : List Char) : Bare ('#' :: rest) (rules.readHash rest) := by
  fun_cases readHash rules rest with
  | case1 rest => exact bare_extend "#-" rest
  | case2 rest => exact bare_extend "#>>" rest
  | case3 rest => exact bare_extend "#>" rest
  | case4 rest => exact bare_sign rfl
  | case5 => exact bare_signedName _ _ _ (bare_extend "#" rest)

theorem bare_readAt (rest : List Char) : Bare ('@' :: rest) (rules.readAt rest) := by
  fun_cases readAt rules rest with
  | case4 rest => exact bare_signedName _ _ _ (bare_sign rfl)
  | case7 c rest => exact bare_signedName _ _ _ (bare_sign rfl)
  | _ => exact bare_sign rfl

theorem bare_readSign (s : List Char) {r : Scan} (h : rules.readSign? s = some r) : Bare s r := by
  revert h
  fun_cases readSign? rules s
  all_goals
    intro h
    cases h
  all_goals first
    | exact bare_sign rfl
    | exact bare_extend _ _
    | exact bare_readHash _
    | exact bare_readAt _
    | exact bare_token (by simp [nameSigns]) _

theorem bare_readText (kind : TextKind) (escapes : Bool) (rest : List Char) :
    Bare s (rules.readText kind escapes rest) := by
  fun_cases readText rules kind escapes rest with
  | case2 => exact bare_token (by simp) _
  | _ => exact bare_error _

theorem bare_readQuotedName (rest : List Char) : Bare s (readQuotedName rest) := by
  fun_cases readQuotedName rest with
  | case2 => exact bare_token (by simp) _
  | _ => exact bare_error _

theorem bare_finishNumber (number rest : List Char) : Bare s (finishNumber number rest) := by
  fun_cases finishNumber number rest <;> exact bare_token (by simp) _

theorem bare_finishDecimal (previous : Token) (number rest : List Char) :
    Bare s (rules.finishDecimal previous number rest) := by
  fun_cases finishDecimal rules previous number rest
  all_goals first
    | exact bare_finishNumber _ _
    | exact bare_token (by simp) _

theorem bare_readNumber (previous : Token) (rest : List Char) : Bare s (rules.readNumber previous rest) := by
  have hpoint (left : List Char) : Bare s (.ok (.sign ".", left)) := bare_token (by decide) left
  unfold readNumber
  split
  · split
    · exact hpoint _
    · exact bare_error _
  · dsimp only
    split
    · exact bare_token (by simp) _
    · split
      · exact hpoint _
      · split
        · exact hpoint _
        · exact bare_finishDecimal _ _ _
    · exact bare_finishDecimal _ _ _

theorem bare_readDollar (rest : List Char) : Bare s (readDollar rest) := by
  fun_cases readDollar rest
  all_goals first
    | exact bare_token (by simp) _
    | exact bare_error _

theorem bare_unicodeText (steps : Nat) (rest : List Char) :
    Bare s (do
      let (value, rest) ← unicodeText steps rest
      pure (.text .unicode (String.ofList value), rest)) := by
  cases unicodeText steps rest with
  | error stop => exact bare_error stop
  | ok p => exact bare_token (by simp) _

theorem bare_markedText (rest : List Char) {r : Scan} (h : markedText? rules rest = some r) : Bare s r := by
  revert h
  fun_cases markedText? rules rest
  all_goals
    intro h
    cases h
  all_goals first
    | exact bare_readText _ _ _
    | exact bare_unicodeText _ _
    | split
  · exact bare_token (by simp) _
  · exact bare_error _

theorem bare_scan (hgeometric : rules.geometricOperators = false) (previous : Token) (c : Char)
    (rest : List Char) : Bare (c :: rest) (rules.scan previous c rest) := by
  unfold scan
  dsimp only
  split
  · exact bare_token (by simp) _
  split
  · exact bare_token (by simp) _
  split
  · cases hmark : markedText? rules (c :: rest) with
    | some r => exact bare_markedText _ hmark
    | none => exact bare_readWord _ _
  split
  · exact bare_readText _ _ _
  split
  · exact bare_readQuotedName _
  split
  · exact bare_readText _ _ _
  split
  · exact bare_readNumber _ _
  split
  · exact bare_token (by simp) _
  split
  · split
    · exact bare_token (by simp) _
    · exact bare_error _
  rw [hgeometric, if_neg Bool.false_ne_true]
  dsimp only
  split
  · exact bare_readSign _ ‹_›
  split
  · exact bare_readWord _ _
  split
  · exact bare_readDollar _
  split
  · exact bare_token (by simp) _
  · exact bare_sign (by simp)

theorem not_beginsName_postgresql (sign : String) : ¬(ofDatabase .postgresql).BeginsName sign := by
  have hnone : ∀ sign ∈ nameSigns, ¬(ofDatabase .postgresql).BeginsName sign := by decide
  intro h
  exact hnone sign h.1 h

theorem beginsName_mysql_iff : (ofDatabase .mysql).BeginsName sign ↔ sign = "@" ∨ sign = "@@" := by
  constructor
  · intro h
    have hsigns : ∀ sign ∈ nameSigns, (ofDatabase .mysql).BeginsName sign → sign = "@" ∨ sign = "@@" := by
      decide
    exact hsigns sign h.1 h
  · rintro (rfl | rfl) <;> decide

/-- Such a sign at the end of a text takes the line feed behind it for the first character of a name. -/
theorem scan_of_beginsName (hsign : (ofDatabase db).BeginsName sign)
    (hscan : (ofDatabase db).scan previous c rest = .ok (.sign sign, [])) (y : List Char) :
    (ofDatabase db).scan previous c (rest ++ '\n' :: y) =
      .ok (.word (String.ofList (sign.toList ++ '\n' :: y.takeWhile (ofDatabase db).isNamePart)) none,
        y.dropWhile (ofDatabase db).isNamePart) := by
  cases db with
  | postgresql => exact absurd hsign (not_beginsName_postgresql sign)
  | mysql =>
      have htext := bare_scan rfl previous c rest sign hsign.1 [] hscan
      rcases beginsName_mysql_iff.1 hsign with rfl | rfl
      all_goals
        obtain ⟨rfl, rfl⟩ := List.cons.inj htext
        rfl
  | mssql =>
      have htext := bare_scan rfl previous c rest sign hsign.1 [] hscan
      have hsigns : sign = "#" ∨ sign = "@" ∨ sign = "@@" := by simpa [nameSigns] using hsign.1
      rcases hsigns with rfl | rfl | rfl
      all_goals
        obtain ⟨rfl, rfl⟩ := List.cons.inj htext
        rfl

/-! ## Lines -/

/-- What the last token of a text becomes with a line feed behind it. -/
def withLineFeed (rules : LexicalRules) : Token → Token
  | .sign sign => if rules.BeginsName sign then .word (sign ++ "\n") none else .sign sign
  | token => token

/-- The tokens of a text with a line feed behind it, but for the gap that the line feed may be. -/
def beforeLineFeed (rules : LexicalRules) : List Token → List Token
  | [] => []
  | [token] => [rules.withLineFeed token]
  | token :: next :: rest => token :: beforeLineFeed rules (next :: rest)

theorem beforeLineFeed_concat (tokens : List Token) (t : Token) :
    rules.beforeLineFeed (tokens ++ [t]) = tokens ++ [rules.withLineFeed t] := by
  induction tokens with
  | nil => rfl
  | cons u tokens ih =>
      cases tokens with
      | nil => rfl
      | cons next rest => exact congrArg (u :: ·) ih

theorem withLineFeed_of_beginsName (hsign : rules.BeginsName sign) :
    rules.withLineFeed (.sign sign) = .word (sign ++ "\n") none := by
  rw [withLineFeed, if_pos hsign]

theorem withLineFeed_eq_self (ht : ∀ sign, t = .sign sign → ¬rules.BeginsName sign) :
    rules.withLineFeed t = t := by
  cases t with
  | sign sign => rw [withLineFeed, if_neg (ht sign rfl)]
  | _ => rfl

theorem Lexes.eq_nil (h : Lexes rules previous s []) : s = [] := by
  cases h
  rfl

/-- Gaps and operators are told by their shapes. -/
theorem eq_of_shape_eq {token : Token} (ht : t.shape ∈ [.gap, .sign "&>"]) (h : token.shape = t.shape) :
    token = t := by
  simp only [List.mem_cons, List.not_mem_nil, or_false] at ht
  rcases ht with ht | ht
  · rw [Token.shape_eq_gap_iff.1 ht, Token.shape_eq_gap_iff.1 (h.trans ht)]
  · rw [Token.shape_eq_sign_iff.1 ht, Token.shape_eq_sign_iff.1 (h.trans ht)]

/-- A scan stops in front of a line feed behind the text, or it takes the line feed along with the last
characters. -/
theorem scan_line (hscan : (ofDatabase db).scan previous c rest = .ok (t, left))
    (hy : y.takeWhile (ofDatabase db).isNamePart = []) :
    (ofDatabase db).scan previous c (rest ++ '\n' :: y) = .ok (t, left ++ '\n' :: y) ∧
        (left = [] → (ofDatabase db).withLineFeed t = t) ∨
      left = [] ∧ (ofDatabase db).scan previous c (rest ++ '\n' :: y) =
        .ok ((ofDatabase db).withLineFeed t, y) := by
  have hline : Apart (ofDatabase db) ('\n' :: y) := apart_newline db y
  by_cases hname : left = [] ∧ ∃ sign, t = .sign sign ∧ (ofDatabase db).BeginsName sign
  · obtain ⟨rfl, sign, rfl, hsign⟩ := hname
    have hrest : y.dropWhile (ofDatabase db).isNamePart = y := by
      have hsplit := List.takeWhile_append_dropWhile (p := (ofDatabase db).isNamePart) (l := y)
      rwa [hy] at hsplit
    have hword : String.ofList (sign.toList ++ ['\n']) = sign ++ "\n" := by
      rw [String.ofList_append, String.ofList_toList]
    refine .inr ⟨rfl, ?_⟩
    rw [scan_of_beginsName hsign hscan, hy, hrest, hword, withLineFeed_of_beginsName hsign]
  · have hkept (hleft : left = []) : (ofDatabase db).withLineFeed t = t :=
      withLineFeed_eq_self fun sign ht hsign => hname ⟨hleft, sign, ht, hsign⟩
    have hopen : (ofDatabase db).markedTexts = true →
        (outline ((ofDatabase db).scan previous c rest)).isSome := by
      intro _
      rw [hscan]
      rfl
    rcases scan_ends previous c rest hopen with ⟨token, left', -, hsteady⟩ | ⟨e, hwithin, hopen, he⟩
    · have hnil := hsteady [] .nil
      simp only [List.append_nil, hscan] at hnil
      obtain ⟨rfl, rfl⟩ := Prod.mk.inj (Except.ok.inj hnil)
      exact .inl ⟨hsteady _ hline, hkept⟩
    · have hnil := he [] .nil
      simp only [List.append_nil, hscan] at hnil
      obtain ⟨rfl, ⟨ht, hafter⟩ | ⟨sign, rfl, ht⟩⟩ := Ending.after_newline hopen hnil.symm
      · obtain ⟨token, hscan', htoken⟩ := outline_eq_some_iff.1 ((he _ hline).trans (hafter y))
        rw [eq_of_shape_eq ht htoken] at hscan'
        refine .inr ⟨rfl, ?_⟩
        rw [hkept rfl]
        exact hscan'
      · have hsign := Token.shape_eq_sign_iff.1 ht
        exact absurd ⟨rfl, sign, hsign, hwithin⟩ hname

/-- A line behind a text is read as it is read alone. -/
theorem Lexes.append_line (h : Lexes (ofDatabase db) previous s tokens)
    (hy : y.takeWhile (ofDatabase db).isNamePart = [])
    (hmore : ∀ previous, Lexes (ofDatabase db) previous y more) :
    ∃ gaps, (∀ t ∈ gaps, t = .gap) ∧ Lexes (ofDatabase db) previous (s ++ '\n' :: y)
      ((ofDatabase db).beforeLineFeed tokens ++ (gaps ++ more)) := by
  induction h with
  | nil => exact ⟨[.gap], by simp, .cons (scan_of_isPlainGap rfl) (hmore .gap)⟩
  | @cons previous t c rest left tokens hscan htokens ih =>
      rcases scan_line hscan hy with ⟨hline, hkept⟩ | ⟨rfl, hline⟩
      · obtain ⟨gaps, hgaps, hlexes⟩ := ih
        refine ⟨gaps, hgaps, ?_⟩
        -- only the last token has the line feed behind it
        cases tokens with
        | nil =>
            rw [beforeLineFeed, hkept htokens.eq_nil]
            exact .cons hline hlexes
        | cons next tokens => exact .cons hline hlexes
      · obtain rfl := lexes_nil_iff.1 htokens
        exact ⟨[], by simp, .cons hline (hmore _)⟩

end SemanticLayer.Sql.LexicalRules
