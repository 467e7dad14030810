import SemanticLayer.Proofs.Checks
import SemanticLayer.Proofs.Sql.Scanning
/-!
The shapes of the tokens of a text, and the state between a text and what stands behind it: the tokens that
are complete there, and how the last one goes on.
-/
namespace SemanticLayer.Sql

variable {rules : LexicalRules} {previous t : Token} {c : Char} {s u rest left x : List Char}
  {tokens : List Token}

/-! ## The token in front -/

theorem Token.shape_isWord (t : Token) : t.shape.isWord = t.isWord := by
  cases t with
  | word name quote =>
      cases quote with
      | none =>
          rw [Token.shape]
          split <;> rfl
      | some quote => rfl
  | _ => rfl

theorem Token.shape_eq_sign_iff {text : String} : t.shape = .sign text ↔ t = .sign text := by
  cases t with
  | word name quote =>
      cases quote with
      | none =>
          rw [Token.shape]
          split <;> simp
      | some quote => simp [Token.shape]
  | _ => simp [Token.shape]

theorem Token.shape_eq_gap_iff : t.shape = .gap ↔ t = .gap := by
  cases t with
  | word name quote =>
      cases quote with
      | none =>
          rw [Token.shape]
          split <;> simp
      | some quote => simp [Token.shape]
  | _ => simp [Token.shape]

namespace LexicalRules

/-- Of the token in front a scan only asks whether it is a word and whether it is a point. -/
theorem scan_congr {previous' : Token} (hword : previous.isWord = previous'.isWord)
    (hpoint : previous = .sign "." ↔ previous' = .sign ".") (c : Char) (rest : List Char) :
    rules.scan previous c rest = rules.scan previous' c rest := by
  have hdecimal (number s : List Char) :
      rules.finishDecimal previous number s = rules.finishDecimal previous' number s := by
    unfold finishDecimal
    simp only [hpoint]
  have hnumber (s : List Char) : rules.readNumber previous s = rules.readNumber previous' s := by
    unfold readNumber
    simp only [hdecimal, hword]
  unfold scan
  simp only [hnumber]

theorem scan_shape (previous : Token) (c : Char) (rest : List Char) :
    rules.scan previous.shape c rest = rules.scan previous c rest :=
  scan_congr previous.shape_isWord Token.shape_eq_sign_iff c rest

/-! ## Progress -/

theorem Ending.length_of_after_nil {e : Ending} (he : e.Within rules u)
    (h : e.after rules [] = some (t, left)) : left.length ≤ u.length := by
  cases e with
  | closed token left' =>
      simp only [Ending.after, List.append_nil, Option.some.injEq, Prod.mk.injEq] at h
      rw [← h.2]
      exact he
  | tagged tag => simp [Ending.after, taggedText?] at h
  | _ =>
      simp [Ending.after, quoted?, quotedWithEscapes?, dollarText?, afterComment?, afterLine] at h
      try simp [h.2]

/-- Where a text can end in the middle of a token, a line feed ends that, or it is a sign that begins a name. -/
theorem Ending.after_newline {e : Ending} (hopen : e.Open) (h : e.after rules [] = some (t, left)) :
    left = [] ∧ ((t ∈ [.gap, .sign "&>"] ∧ ∀ y, e.after rules ('\n' :: y) = some (t, y)) ∨
      ∃ sign, e = .signed sign ∧ t = .sign sign) := by
  cases e with
  | closed token left' => exact absurd rfl (hopen token left')
  | line | carriage | operator =>
      obtain ⟨rfl, rfl⟩ := Prod.mk.inj (Option.some.inj h)
      exact ⟨rfl, .inl ⟨by decide, fun y => rfl⟩⟩
  | signed sign =>
      obtain ⟨rfl, rfl⟩ := Prod.mk.inj (Option.some.inj h)
      exact ⟨rfl, .inr ⟨sign, rfl, rfl⟩⟩
  | _ => simp [Ending.after, quoted?, quotedWithEscapes?, dollarText?, taggedText?, afterComment?] at h

/-- What a scan gives where the text goes on. -/
theorem scan_append (previous : Token) (c : Char) (u : List Char)
    (hopen : rules.markedTexts = true → (outline (rules.scan previous c u)).isSome) :
    ∃ e : Ending, e.Within rules u ∧
      ∀ x, Apart rules x → outline (rules.scan previous c (u ++ x)) = e.after rules x :=
  (scan_ends previous c u hopen).exists_ending

theorem scan_length (h : outline (rules.scan previous c rest) = some (t, left)) :
    left.length ≤ rest.length := by
  obtain ⟨e, hwithin, he⟩ := scan_append previous c rest fun _ => by rw [h]; rfl
  have hnil := he [] .nil
  rw [List.append_nil, h] at hnil
  exact Ending.length_of_after_nil hwithin hnil.symm

/-! ## Texts -/

/-- The shapes of the tokens of a text behind a token. -/
inductive Reads (rules : LexicalRules) : Token → List Char → List Token → Prop
  | nil {previous : Token} : Reads rules previous [] []
  | cons {previous t : Token} {c : Char} {rest left : List Char} {tokens : List Token}
      (hscan : outline (rules.scan previous c rest) = some (t, left))
      (htokens : Reads rules t left tokens) : Reads rules previous (c :: rest) (t :: tokens)

theorem reads_nil_iff : Reads rules previous [] tokens ↔ tokens = [] := by
  constructor
  · rintro ⟨⟩
    rfl
  · rintro rfl
    exact .nil

theorem reads_cons_iff : Reads rules previous (c :: rest) tokens ↔
    ∃ t left more, outline (rules.scan previous c rest) = some (t, left) ∧ Reads rules t left more ∧
      tokens = t :: more := by
  constructor
  · rintro (_ | ⟨hscan, htokens⟩)
    exact ⟨_, _, _, hscan, htokens, rfl⟩
  · rintro ⟨t, left, more, hscan, hmore, rfl⟩
    exact .cons hscan hmore

theorem Reads.unique {tokens' : List Token} (h : Reads rules previous s tokens)
    (h' : Reads rules previous s tokens') : tokens = tokens' := by
  induction h generalizing tokens' with
  | nil => exact (reads_nil_iff.1 h').symm
  | cons hscan _ ih =>
      obtain ⟨t', left', more', hscan', hmore', rfl⟩ := reads_cons_iff.1 h'
      rw [hscan] at hscan'
      obtain ⟨rfl, rfl⟩ := Prod.mk.inj (Option.some.inj hscan')
      rw [ih hmore']

theorem outline_scan_shape (previous : Token) (c : Char) (rest : List Char) :
    outline (rules.scan previous.shape c rest) = outline (rules.scan previous c rest) := by
  rw [scan_shape]

/-- The tokens of a text behind a token. -/
inductive Lexes (rules : LexicalRules) : Token → List Char → List Token → Prop
  | nil {previous : Token} : Lexes rules previous [] []
  | cons {previous t : Token} {c : Char} {rest left : List Char} {tokens : List Token}
      (hscan : rules.scan previous c rest = .ok (t, left)) (htokens : Lexes rules t left tokens) :
      Lexes rules previous (c :: rest) (t :: tokens)

theorem lexes_nil_iff : Lexes rules previous [] tokens ↔ tokens = [] := by
  constructor
  · rintro ⟨⟩
    rfl
  · rintro rfl
    exact .nil

/-- The tokens that are found step by step, places aside. -/
theorem lexemesFrom_eq_ok_iff {steps : Nat} (hs : s.length ≤ steps) (previous : Token) (place : Place)
    (tokens : List Token) :
    (∃ ls, lexemesFrom rules steps previous place s = .ok ls ∧ ls.map Lexeme.token = tokens) ↔
      Lexes rules previous s tokens := by
  induction steps generalizing s previous place tokens with
  | zero =>
      obtain rfl := List.eq_nil_of_length_eq_zero (Nat.le_zero.1 hs)
      rw [lexes_nil_iff, lexemesFrom]
      simp [eq_comm]
  | succ steps ih =>
      cases s with
      | nil =>
          rw [lexes_nil_iff, lexemesFrom]
          simp [eq_comm]
      | cons c rest =>
          rw [List.length_cons] at hs
          rw [lexemesFrom]
          cases hscan : rules.scan previous c rest with
          | error stop =>
              constructor
              · rintro ⟨ls, hls, -⟩
                simp at hls
              · rintro (_ | ⟨hscan', -⟩)
                simp [hscan] at hscan'
          | ok p =>
              obtain ⟨token, left⟩ := p
              have hleft := scan_length (by rw [hscan]; rfl : outline _ = some (token.shape, left))
              -- the place is carried along and decides about no token
              have hstep := ih (by omega : left.length ≤ steps) token
                (place.behind ((c :: rest).take ((c :: rest).length - left.length)))
              dsimp only
              constructor
              · rintro ⟨ls, hls, rfl⟩
                obtain ⟨more, hmore, hls⟩ := bind_eq_ok_iff.1 hls
                obtain rfl := pure_eq_ok_iff.1 hls
                exact .cons hscan ((hstep _).1 ⟨more, hmore, rfl⟩)
              · rintro (_ | ⟨hscan', hmore⟩)
                rw [hscan] at hscan'
                obtain ⟨rfl, rfl⟩ := Prod.mk.inj (Except.ok.inj hscan')
                obtain ⟨ls, hls, rfl⟩ := (hstep _).2 hmore
                exact ⟨⟨token, place⟩ :: ls, bind_eq_ok_iff.2 ⟨ls, hls, rfl⟩, rfl⟩

theorem lexemes_eq_ok_iff (s : List Char) (tokens : List Token) :
    (∃ ls, rules.lexemes s = .ok ls ∧ ls.map Lexeme.token = tokens) ↔ Lexes rules .gap s tokens :=
  lexemesFrom_eq_ok_iff (le_refl _) .gap .start tokens

theorem outline_eq_some_iff {r : Scan} :
    outline r = some (t, left) ↔ ∃ token, r = .ok (token, left) ∧ token.shape = t := by
  cases r with
  | error stop => simp [outline, Except.toOption]
  | ok p =>
      obtain ⟨token, rest⟩ := p
      simp [outline, Except.toOption, and_comm]

theorem Lexes.reads (h : Lexes rules previous s tokens) :
    Reads rules previous.shape s (tokens.map Token.shape) := by
  induction h with
  | nil => exact .nil
  | cons hscan _ ih =>
      refine .cons ?_ ih
      rw [outline_scan_shape, hscan]
      rfl

theorem Reads.exists_lexes {p : Token} {shapes : List Token} (h : Reads rules p s shapes)
    (hp : previous.shape = p) : ∃ tokens, Lexes rules previous s tokens ∧ tokens.map Token.shape = shapes := by
  induction h generalizing previous with
  | nil => exact ⟨[], .nil, rfl⟩
  | cons hscan _ ih =>
      rw [← hp, outline_scan_shape] at hscan
      obtain ⟨token, hscan, htoken⟩ := outline_eq_some_iff.1 hscan
      obtain ⟨tokens, htokens, rfl⟩ := ih htoken
      exact ⟨token :: tokens, .cons hscan htokens, by rw [List.map_cons, htoken]⟩

theorem Reads.congr {previous' : Token} (hword : previous.isWord = previous'.isWord)
    (hpoint : previous = .sign "." ↔ previous' = .sign ".") :
    Reads rules previous s tokens ↔ Reads rules previous' s tokens := by
  cases s with
  | nil => rw [reads_nil_iff, reads_nil_iff]
  | cons c rest => rw [reads_cons_iff, reads_cons_iff, scan_congr hword hpoint]

/-! ## Stages -/

/-- The state between a text and what stands behind it. -/
inductive Stage where
  /-- Behind a token. -/
  | between (previous : Token)
  /-- In the middle of the last token. -/
  | inside (ending : Ending)

/-- The tokens of what stands behind a text, the last one of the text among them where it is not complete. -/
def Stage.Reads (rules : LexicalRules) : Stage → List Char → List Token → Prop
  | between previous, x, tokens => LexicalRules.Reads rules previous x tokens
  | inside e, x, tokens =>
      ∃ t left more, e.after rules x = some (t, left) ∧ LexicalRules.Reads rules t left more ∧
        tokens = t :: more

theorem Stage.reads_inside_iff {e : Ending} (h : e.after rules x = some (t, left)) :
    (Stage.inside e).Reads rules x tokens ↔
      ∃ more, LexicalRules.Reads rules t left more ∧ tokens = t :: more := by
  simp [Stage.Reads, h]

theorem Stage.reads_unique {stage : Stage} {tokens' : List Token} (h : stage.Reads rules x tokens)
    (h' : stage.Reads rules x tokens') : tokens = tokens' := by
  cases stage with
  | between previous => exact LexicalRules.Reads.unique h h'
  | inside e =>
      obtain ⟨t, left, more, hafter, hmore, rfl⟩ := h
      obtain ⟨more', hmore', rfl⟩ := (Stage.reads_inside_iff hafter).1 h'
      rw [hmore.unique hmore']

/-- No stage is inside a token that ends in the text. -/
def Stage.Valid (rules : LexicalRules) : Stage → Prop
  | between _ => True
  | inside e => e.Within rules [] ∧ ∀ token left, e ≠ .closed token left

theorem Ending.Within.nil {e : Ending} (he : e.Within rules u)
    (hopen : ∀ token left, e ≠ .closed token left) : e.Within rules [] := by
  cases e with
  | closed token left => exact absurd rfl (hopen token left)
  | _ => exact he

theorem reads_append_cons_iff {e : Ending}
    (he : outline (rules.scan previous c (u ++ x)) = e.after rules x) :
    Reads rules previous (c :: u ++ x) tokens ↔
      ∃ t left more, e.after rules x = some (t, left) ∧ Reads rules t left more ∧ tokens = t :: more := by
  rw [List.cons_append, reads_cons_iff, he]

/-- A text whose first token ends in it is read on from the stage in which the rest of it is left. -/
theorem reads_append_closed {token : Token} {done : List Token} {stage : Stage} (he : ∀ x, Apart rules x →
      outline (rules.scan previous c (u ++ x)) = (Ending.closed token left).after rules x)
    (hstage : ∀ x, Apart rules x → ∀ tokens, Reads rules token (left ++ x) tokens ↔
      ∃ more, stage.Reads rules x more ∧ tokens = done ++ more)
    (hx : Apart rules x) : Reads rules previous (c :: u ++ x) tokens ↔
      ∃ more, stage.Reads rules x more ∧ tokens = token :: done ++ more := by
  rw [reads_append_cons_iff (he x hx)]
  constructor
  · rintro ⟨t, left', more, hafter, hmore, rfl⟩
    obtain ⟨rfl, rfl⟩ := Prod.mk.inj (Option.some.inj hafter)
    obtain ⟨rest, hrest, rfl⟩ := (hstage x hx more).1 hmore
    exact ⟨rest, hrest, rfl⟩
  · rintro ⟨rest, hrest, rfl⟩
    exact ⟨token, left ++ x, done ++ rest, rfl, (hstage x hx _).2 ⟨rest, hrest, rfl⟩, rfl⟩

/-- What stands behind a text is read on from one stage, whatever it is. -/
theorem reads_append (previous : Token) (u : List Char)
    (hopen : rules.markedTexts = true → ∃ tokens, Reads rules previous u tokens) :
    ∃ (done : List Token) (stage : Stage), stage.Valid rules ∧ ∀ x, Apart rules x → ∀ tokens,
      Reads rules previous (u ++ x) tokens ↔
        ∃ more, stage.Reads rules x more ∧ tokens = done ++ more := by
  -- a first token that ends in `u` takes a character of it, and what it leaves is shorter
  induction hn : u.length using Nat.strongRecOn generalizing previous u with
  | _ n ih =>
    cases u with
    | nil =>
        refine ⟨[], .between previous, trivial, fun x _ tokens => ?_⟩
        simp [Stage.Reads]
    | cons c u =>
        have hscan : rules.markedTexts = true → (outline (rules.scan previous c u)).isSome := by
          intro hmarked
          obtain ⟨tokens, htokens⟩ := hopen hmarked
          obtain ⟨t, left, more, hscan, -, -⟩ := reads_cons_iff.1 htokens
          rw [hscan]
          rfl
        obtain ⟨e, hwithin, he⟩ := scan_append previous c u hscan
        by_cases hclosed : ∃ token left, e = .closed token left
        · obtain ⟨token, left, rfl⟩ := hclosed
          have hleft : left.length < n := by
            rw [← hn, List.length_cons]
            exact Nat.lt_succ_of_le hwithin
          have hopen' : rules.markedTexts = true → ∃ tokens, Reads rules token left tokens := by
            intro hmarked
            obtain ⟨tokens, htokens⟩ := hopen hmarked
            rw [← List.append_nil (c :: u), reads_append_cons_iff (he [] .nil)] at htokens
            obtain ⟨t, left', more, hafter, hmore, -⟩ := htokens
            rw [Ending.after, List.append_nil] at hafter
            obtain ⟨rfl, rfl⟩ := Prod.mk.inj (Option.some.inj hafter)
            exact ⟨more, hmore⟩
          obtain ⟨done, stage, hvalid, hstage⟩ := ih left.length hleft token left hopen' rfl
          exact ⟨token :: done, stage, hvalid, fun x hx tokens => reads_append_closed he hstage hx⟩
        · have hopen' (token : Token) (left : List Char) : e ≠ .closed token left :=
            fun h => hclosed ⟨token, left, h⟩
          refine ⟨[], .inside e, ⟨hwithin.nil hopen', hopen'⟩, fun x hx tokens => ?_⟩
          rw [reads_append_cons_iff (he x hx)]
          simp [Stage.Reads]

end LexicalRules

end SemanticLayer.Sql
