import SemanticLayer.Proofs.Checks
import SemanticLayer.Proofs.Sql.Operators
/-!
The first token of a text, where the text goes on: what it takes is settled by the text, or it is open at the
end.
-/
namespace SemanticLayer.Sql.LexicalRules

variable {rules : LexicalRules} {s u rest x : List Char}

/-! ## Comments -/

theorem lineComment?_length (h : lineComment? rules s = some rest) : rest.length ≤ s.tail.length := by
  revert h
  fun_cases lineComment? rules s with
  | case1 v =>
      rintro ⟨⟩
      simp
  | case3 v =>
      rintro ⟨⟩
      simp
  | _ => simp

theorem lineComment?_append (hs : s ≠ []) (hx : Apart rules x) :
    lineComment? rules (s ++ x) = (lineComment? rules s).map (· ++ x) := by
  fun_cases lineComment? rules s with
  | case1 v h =>
      have h' : (!rules.spacedComments || decide ((v ++ x).head? = some ' ')) = true := by
        simp only [Bool.or_eq_true, decide_eq_true_eq] at h ⊢
        refine h.imp_right fun h => ?_
        rw [List.head?_append, h]
        rfl
      rw [List.cons_append, List.cons_append, lineComment?, if_pos h']
      rfl
  | case2 v h =>
      have h' : ¬(!rules.spacedComments || decide ((v ++ x).head? = some ' ')) = true := by
        simp only [Bool.or_eq_true, decide_eq_true_eq, not_or, Bool.not_eq_true, Bool.not_eq_false'] at h ⊢
        refine ⟨h.1, head?_append_ne h.2 fun hspace => ?_⟩
        exact absurd (hx.line (.inr h.1) ' ' hspace) (by decide)
      rw [List.cons_append, List.cons_append, lineComment?, if_neg h']
      rfl
  | case3 v h =>
      rw [List.cons_append, lineComment?, if_pos h]
      rfl
  | case4 v h =>
      rw [List.cons_append, lineComment?, if_neg h]
      rfl
  | case5 _ hminus hhash =>
      rw [lineComment?]
      · rfl
      · exact append_ne_cons_cons hminus (hx.ne (by decide)) (hx.ne (by decide))
      · exact append_ne_cons hhash (hx.ne (by decide))

/-! ## Texts with a mark in front -/

theorem escapedText?_ends {c : Char} (hmarked : rules.markedTexts = true)
    (hopen : (escapedText? s.length s).isSome) (hu : s.length ≤ u.length) :
    Ends rules u fun x =>
      match escapedText? (s ++ x).length (s ++ x) with
      | some (value, rest) => .ok (.text .escaped (String.ofList value), rest)
      | none => .error ⟨.openEscapedText, c :: '\'' :: (s ++ x)⟩ := by
  obtain ⟨p, hp⟩ := Option.isSome_iff_exists.1 hopen
  have hgrows (x : List Char) (hx : Apart rules x) :=
    escapedText?_grows (hx.line (.inl hmarked)) (List.length_append ▸ Nat.le_add_right s.length x.length)
      s p.1 p.2 hp
  have hleft := (hgrows [] .nil).1.length_le
  refine .steady (.text .escaped (String.ofList p.1)) p.2 (by omega) fun x hx => ?_
  rw [(hgrows x hx).2]

theorem unicodeText_ends (hmarked : rules.markedTexts = true)
    (hopen : (unicodeText s.length s).toOption.isSome) (hu : s.length ≤ u.length) :
    Ends rules u fun x => (do
      let (value, rest) ← unicodeText (s ++ x).length (s ++ x)
      pure (.text .unicode (String.ofList value), rest)) := by
  obtain ⟨p, hp⟩ := Option.isSome_iff_exists.1 hopen
  have hgrows (x : List Char) (hx : Apart rules x) :=
    unicodeText_grows (hx.line (.inl hmarked)) (List.length_append ▸ Nat.le_add_right s.length x.length)
      s p.1 p.2 hp
  have hleft := (hgrows [] .nil).1.length_le
  refine .steady (.text .unicode (String.ofList p.1)) p.2 (by omega) fun x hx => ?_
  rw [eq_ok_of_toOption (hgrows x hx).2]
  rfl

theorem readText_offers (kind : TextKind) (escapes : Bool) (quote : Char) (hquote : quote ∈ ['\'', '"'])
    {g : List Char → Option Scan}
    (hg : ∀ x, Apart rules x → g x = some (rules.readText kind escapes (quote :: (s ++ x))))
    (hu : s.length ≤ u.length) : Offers rules u g :=
  .some hg ((readText_ends hquote s).mono hu)

theorem escapedText?_isSome {c : Char}
    (h : (outline (match escapedText? s.length s with
      | some (value, rest) => .ok (.text .escaped (String.ofList value), rest)
      | none => .error ⟨.openEscapedText, c :: '\'' :: s⟩)).isSome) :
    (escapedText? s.length s).isSome := by
  cases hr : escapedText? s.length s with
  | none =>
      rw [hr] at h
      exact h
  | some p => rfl

theorem unicodeText_isSome
    (h : (outline (do
      let (value, rest) ← unicodeText s.length s
      pure (.text .unicode (String.ofList value), rest))).isSome) :
    (unicodeText s.length s).toOption.isSome := by
  cases hr : unicodeText s.length s with
  | error stop =>
      rw [hr] at h
      exact h
  | ok p => rfl

theorem markedText?_append_eq_none (hs : s ≠ []) (hquote : ∀ c v, s = c :: '\'' :: v → False)
    (hdouble : ∀ c v, s = c :: '"' :: v → False) (hunicode : ∀ c v, s = c :: '&' :: '\'' :: v → False)
    (hx : Apart rules x) : markedText? rules (s ++ x) = none := by
  obtain ⟨c, s, rfl⟩ := List.exists_cons_of_ne_nil hs
  rw [markedText?]
  · intro a v heq
    exact append_ne_cons (fun w hw => hquote c w (by rw [hw])) (hx.ne (by decide)) v (List.cons.inj heq).2
  · intro a v heq
    exact append_ne_cons (fun w hw => hdouble c w (by rw [hw])) (hx.ne (by decide)) v (List.cons.inj heq).2
  · intro a v heq
    exact append_ne_cons_cons (fun w hw => hunicode c w (by rw [hw])) (hx.ne (by decide))
      (hx.ne (by decide)) v (List.cons.inj heq).2

theorem markedText?_offers (s : List Char) (hs : s ≠ []) (hu : s.tail.length ≤ u.length)
    (hopen : rules.markedTexts = true → ∀ r, markedText? rules s = some r → (outline r).isSome) :
    Offers rules u fun x => markedText? rules (s ++ x) := by
  fun_cases markedText? rules s with
  | case1 c rest h =>
      refine readText_offers .national rules.backslashEscapes '\'' (by decide) (fun x _ => ?_) (Nat.le_of_succ_le hu)
      rw [List.cons_append, List.cons_append, markedText?, if_pos h]
  | case2 c rest h h' =>
      refine readText_offers .hex true '\'' (by decide) (fun x _ => ?_) (Nat.le_of_succ_le hu)
      rw [List.cons_append, List.cons_append, markedText?, if_neg h, if_pos h']
  | case3 c rest h h' h'' =>
      refine readText_offers .bytes false '\'' (by decide) (fun x _ => ?_) (Nat.le_of_succ_le hu)
      rw [List.cons_append, List.cons_append, markedText?, if_neg h, if_neg h', if_pos h'']
  | case4 c rest h h' h'' hmarked =>
      have hmarked' : rules.markedTexts = true := (Bool.and_eq_true_iff.1 hmarked).2
      have hsome := hopen hmarked' _ (by rw [markedText?, if_neg h, if_neg h', if_neg h'', if_pos hmarked])
      refine .some (fun x _ => ?_)
        (escapedText?_ends (c := c) hmarked' (escapedText?_isSome hsome) (Nat.le_of_succ_le hu))
      rw [List.cons_append, List.cons_append, markedText?]
      exact (if_neg h).trans ((if_neg h').trans ((if_neg h'').trans (if_pos hmarked)))
  | case5 c rest h h' h'' hmarked =>
      refine .inl fun x _ => ?_
      dsimp only
      rw [List.cons_append, List.cons_append, markedText?, if_neg h, if_neg h', if_neg h'', if_neg hmarked]
  | case6 c rest h =>
      refine readText_offers .doubleQuotedBytes false '"' (by decide) (fun x _ => ?_) (Nat.le_of_succ_le hu)
      rw [List.cons_append, List.cons_append, markedText?, if_pos h]
  | case7 c rest h =>
      refine .inl fun x _ => ?_
      dsimp only
      rw [List.cons_append, List.cons_append, markedText?, if_neg h]
  | case8 c rest hmarked =>
      have hmarked' : rules.markedTexts = true := (Bool.and_eq_true_iff.1 hmarked).2
      have hsome := hopen hmarked' _ (by rw [markedText?, if_pos hmarked])
      refine .some (fun x _ => ?_) (unicodeText_ends hmarked' (unicodeText_isSome hsome)
        (Nat.le_of_succ_le (Nat.le_of_succ_le hu)))
      rw [List.cons_append, List.cons_append, List.cons_append, markedText?, if_pos hmarked]
  | case9 c rest hmarked =>
      refine .inl fun x _ => ?_
      dsimp only
      rw [List.cons_append, List.cons_append, List.cons_append, markedText?, if_neg hmarked]
  | case10 _ hquote hdouble hunicode =>
      exact .inl fun x hx => markedText?_append_eq_none hs hquote hdouble hunicode hx

/-! ## Tokens -/

theorem Offers.ends {g : List Char → Option Scan} {k : List Char → Scan} (hg : Offers rules u g)
    (hk : Ends rules u k) : Ends rules u fun x => (g x).getD (k x) := by
  rcases hg with hg | ⟨f, hg, hf⟩
  · exact hk.congr fun x hx => by rw [hg x hx]; rfl
  · exact hf.congr fun x hx => by rw [hg x hx]; rfl

/-- What a text begins with that is neither a gap, a literal, a quoted name nor a number. -/
def scanSign (rules : LexicalRules) (c : Char) (rest : List Char) : Scan :=
  ((if rules.geometricOperators then geometric? rules (c :: rest) else none).or
    (readSign? rules (c :: rest))).getD
      (if rules.isNameStart c then readWord rules [c] rest
      else if c = '$' then readDollar rest
      else if Text.isBlank c then .ok (.gap, rest)
      else .ok (.sign (String.singleton c), rest))

theorem scanSign_ends (c : Char) (u : List Char) :
    Ends rules u fun x => scanSign rules c (u ++ x) := by
  have hrest : Ends rules u fun x =>
      if rules.isNameStart c then readWord rules [c] (u ++ x)
      else if c = '$' then readDollar (u ++ x)
      else if Text.isBlank c then .ok (.gap, u ++ x)
      else .ok (.sign (String.singleton c), u ++ x) := by
    by_cases hname : rules.isNameStart c = true
    · simp only [if_pos hname]
      exact (readWord_steady [c] u).ends (le_refl _)
    simp only [if_neg hname]
    by_cases hdollar : c = '$'
    · simp only [if_pos hdollar]
      exact readDollar_ends u
    simp only [if_neg hdollar]
    by_cases hblank : Text.isBlank c = true
    · simp only [if_pos hblank]
      exact Ends.ok .gap u (le_refl _)
    · simp only [if_neg hblank]
      exact Ends.ok _ u (le_refl _)
  have hoffers : Offers rules u fun x => readSign? rules (c :: u ++ x) :=
    readSign?_offers (c :: u) (by simp) (le_refl u.length)
  have hsign := hoffers.ends hrest
  by_cases hgeometric : rules.geometricOperators = true
  · refine ((geometric?_offers hgeometric (c :: u) (le_refl u.length)).ends hsign).congr fun x _ => ?_
    rw [scanSign, if_pos hgeometric]
    simp only [List.cons_append]
    cases geometric? rules (c :: (u ++ x)) <;> rfl
  · refine hsign.congr fun x _ => ?_
    rw [scanSign, if_neg hgeometric]
    rfl

theorem carriage_ends (u : List Char) :
    Ends rules u fun x =>
      .ok (.gap, if (u ++ x).head? = some '\n' then (u ++ x).drop 1 else u ++ x) := by
  cases u with
  | nil => exact .opens .carriage trivial (by simp [Ending.Open]) fun x _ => rfl
  | cons d v =>
      by_cases hd : d = '\n'
      · refine (Ends.ok .gap v (by simp)).congr fun x _ => ?_
        rw [List.cons_append, hd]
        rfl
      · refine (Ends.ok .gap (d :: v) (le_refl _)).congr fun x _ => ?_
        rw [List.cons_append, List.head?_cons, if_neg (by simpa using hd)]

/-- What a text begins with that is neither a plain gap, a literal, a quoted name nor a number: a comment or a
sign. -/
def scanComment (rules : LexicalRules) (c : Char) (rest : List Char) : Scan :=
  match lineComment? rules (c :: rest) with
  | some comment => .ok (.gap, afterLine rules comment)
  | none =>
      if c = '/' && rest.head? = some '*' then
        match afterComment? rules.nestedComments 1 (rest.drop 1) with
        | some rest => .ok (.gap, rest)
        | none => .error ⟨.openComment, []⟩
      else scanSign rules c rest

theorem scanComment_ends (c : Char) (u : List Char) :
    Ends rules u fun x => scanComment rules c (u ++ x) := by
  have hline (x : List Char) (hx : Apart rules x) :
      lineComment? rules (c :: (u ++ x)) = (lineComment? rules (c :: u)).map (· ++ x) := by
    rw [← List.cons_append, lineComment?_append (by simp) hx]
  cases h : lineComment? rules (c :: u) with
  | some rest =>
      refine (afterLine_ends (lineComment?_length h)).congr fun x hx => ?_
      rw [scanComment, hline x hx, h]
      rfl
  | none =>
      by_cases hcomment : c = '/' ∧ u.head? = some '*'
      · obtain ⟨rfl, hu⟩ := hcomment
        obtain ⟨v, rfl⟩ := List.head?_eq_some_iff.1 hu
        refine (afterComment?_ends 1 (s := v) (by simp)).congr fun x hx => ?_
        rw [scanComment, hline x hx, h]
        rfl
      · refine (scanSign_ends c u).congr fun x hx => ?_
        have hcomment' : ¬(c = '/' && (u ++ x).head? = some '*') = true := by
          simp only [Bool.and_eq_true, decide_eq_true_eq, not_and] at hcomment ⊢
          exact fun hc => head?_append_ne (hcomment hc) (hx.ne (by decide))
        rw [scanComment, hline x hx, h]
        exact if_neg hcomment'

theorem scan_ends (previous : Token) (c : Char) (u : List Char)
    (hopen : rules.markedTexts = true → (outline (rules.scan previous c u)).isSome) :
    Ends rules u fun x => rules.scan previous c (u ++ x) := by
  -- the cases of `scan`, in its order; what was decided before is dropped from the goal
  unfold scan at hopen ⊢
  by_cases hgap : isPlainGap c = true
  · simp only [if_pos hgap]
    exact Ends.ok .gap u (le_refl _)
  simp only [if_neg hgap] at hopen ⊢
  by_cases hreturn : c = '\r'
  · simp only [if_pos hreturn]
    exact carriage_ends u
  simp only [if_neg hreturn] at hopen ⊢
  by_cases hmark : isMarkLetter rules c = true
  · simp only [if_pos hmark] at hopen ⊢
    refine (markedText?_offers (c :: u) (by simp) (le_refl u.length) fun hmarked r hr => ?_).ends
      ((readWord_steady [c] u).ends (le_refl _))
    have hsome := hopen hmarked
    rwa [hr] at hsome
  simp only [if_neg hmark]
  by_cases htext : c = '\''
  · simp only [if_pos htext]
    exact readText_ends (by simp [htext]) u
  simp only [if_neg htext]
  by_cases hname : rules.nameQuotes.contains c = true
  · simp only [if_pos hname]
    exact readQuotedName_ends (by simpa using hname) u
  simp only [if_neg hname]
  by_cases hdouble : c = '"'
  · simp only [if_pos hdouble]
    exact readText_ends (by simp [hdouble]) u
  simp only [if_neg hdouble]
  by_cases hnumber : (c.isDigit || c = '.') = true
  · simp only [if_pos hnumber]
    exact readNumber_ends (by simpa using hnumber) u
  simp only [if_neg hnumber]
  refine (scanComment_ends c u).congr fun x _ => ?_
  rw [scanComment, scanSign]
  cases (if rules.geometricOperators = true then geometric? rules (c :: (u ++ x)) else none) with
  | some r => rfl
  | none => cases readSign? rules (c :: (u ++ x)) <;> rfl

end SemanticLayer.Sql.LexicalRules
