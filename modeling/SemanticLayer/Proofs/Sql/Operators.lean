import SemanticLayer.Proofs.Sql.Numbers
/-!
Operators at the end of a text, and the signs that make a name of what is behind.
-/
namespace SemanticLayer.Sql.LexicalRules

variable {rules : LexicalRules} {s u rest x : List Char}

theorem extend_ends (spelled known : String) (hu : s.length ≤ u.length) :
    Ends rules u fun x => rules.extend spelled known (s ++ x) := by
  by_cases hmore : (s.takeWhile rules.isOperatorPart).isEmpty = true
  · refine (Ends.ok (.sign known) _ hu).congr fun x hx => ?_
    rw [extend, takeWhile_append_apart hx.operator]
    simp only [if_pos hmore]
  · refine (Ends.ok (.sign (spelled ++ String.ofList (s.takeWhile rules.isOperatorPart)))
      (s.drop (s.takeWhile rules.isOperatorPart).length) (by simp; omega)).congr fun x hx => ?_
    rw [extend, takeWhile_append_apart hx.operator]
    simp only [hmore, drop_append_initial (List.takeWhile_prefix _)]
    rfl

theorem extendOrStop_ends (spelled : String) (hu : s.length ≤ u.length) :
    Ends rules u fun x => rules.extendOrStop spelled (s ++ x) := by
  by_cases hmore : (s.takeWhile rules.isOperatorPart).isEmpty = true
  · refine .opens .stuck trivial (by simp [Ending.Open]) fun x hx => ?_
    rw [extendOrStop, takeWhile_append_apart hx.operator]
    simp only [if_pos hmore]
    rfl
  · refine (Ends.ok (.sign (spelled ++ String.ofList (s.takeWhile rules.isOperatorPart)))
      (s.drop (s.takeWhile rules.isOperatorPart).length) (by simp; omega)).congr fun x hx => ?_
    rw [extendOrStop, takeWhile_append_apart hx.operator]
    simp only [hmore, drop_append_initial (List.takeWhile_prefix _)]
    rfl

/-- Behind `&>` a character is lost. -/
theorem drop_one_ends (hgeometric : rules.geometricOperators = true) (s : List Char) (hu : s.length ≤ u.length) :
    Ends rules u fun x => .ok (.sign "&>", (s ++ x).drop 1) := by
  cases s with
  | nil => exact .opens .operator hgeometric (by simp [Ending.Open]) fun x _ => rfl
  | cons c s =>
      rw [List.length_cons] at hu
      exact Ends.ok _ _ (by omega)

theorem readWord_shape {sign c : Char} (hsign : sign = '@' ∨ sign = '#') (signs rest : List Char) :
    outline (rules.readWord (sign :: signs ++ [c]) rest) =
      some (.word "" none, rest.dropWhile rules.isNamePart) := by
  have hhead : (String.ofList (sign :: signs ++ [c] ++ rest.takeWhile rules.isNamePart)).toList.head? =
      some '@' ∨
        (String.ofList (sign :: signs ++ [c] ++ rest.takeWhile rules.isNamePart)).toList.head? =
          some '#' := by
    simpa using hsign
  rw [readWord, outline, Except.toOption, Option.map_some, Token.shape, if_pos hhead]

/-! ## Signs that may begin a name -/

theorem signedName?_cons {start c : Char} {signs rest : List Char} (h : rules.isNameStart start = true) :
    rules.signedName? start signs (c :: rest) = some (rules.readWord (signs ++ [c]) rest) := by
  rw [signedName?, if_pos h]

theorem signedName?_of_not {start : Char} {signs : List Char} (h : ¬rules.isNameStart start = true)
    (s : List Char) : rules.signedName? start signs s = none := by
  cases s with
  | nil => rfl
  | cons c s => rw [signedName?, if_neg h]

/-- A sign at the end of a text: where it makes names, the character behind it is taken, whichever it is. -/
theorem signedName_ends_nil {mark : Char} (signs : List Char) {sign : String} (hmark : mark = '@' ∨ mark = '#')
    (hsign : rules.isNameStart mark = true → rules.BeginsName sign) {f k : List Char → Scan}
    (hnil : f [] = .ok (.sign sign, []))
    (hspace : ∀ rest, f (' ' :: rest) = .ok (.sign sign, ' ' :: rest))
    (hf : ∀ c rest, c = ')' ∨ c = '\n' →
      f (c :: rest) = (rules.signedName? mark (mark :: signs) (c :: rest)).getD (k (c :: rest)))
    (hk : ∀ x, Apart rules x → k x = .ok (.sign sign, x)) : Ends rules u f := by
  have hcases (c : Char) (x : List Char) (hx : Apart rules (c :: x)) (hc : c ≠ ' ') : c = ')' ∨ c = '\n' := by
    simpa [hc] using hx.head c rfl
  by_cases hname : rules.isNameStart mark = true
  · refine .opens (.signed sign) (hsign hname) (by simp [Ending.Open]) fun x hx => ?_
    cases x with
    | nil =>
        rw [hnil]
        rfl
    | cons c x =>
        rw [Ending.after]
        by_cases hc : c = ' '
        · rw [if_pos hc, hc, hspace]
          rfl
        · rw [if_neg hc, hf c x (hcases c x hx hc), signedName?_cons hname]
          exact readWord_shape hmark signs x
  · refine (Ends.ok (.sign sign) [] (Nat.zero_le _)).congr fun x hx => ?_
    cases x with
    | nil => exact hnil
    | cons c x =>
        by_cases hc : c = ' '
        · rw [hc]
          exact hspace x
        · rw [hf c x (hcases c x hx hc), signedName?_of_not hname]
          exact hk (c :: x) hx

/-- A sign with a character behind it, which the name goes on with where the sign makes names. -/
theorem signedName_ends_cons (mark c : Char) (signs : List Char) {f k : List Char → Scan}
    (hf : ∀ x, Apart rules x →
      f x = (rules.signedName? mark signs (c :: (s ++ x))).getD (k x))
    (hu : s.length ≤ u.length) (hk : Ends rules u k) : Ends rules u f := by
  by_cases hname : rules.isNameStart mark = true
  · refine ((readWord_steady (signs ++ [c]) s).ends hu).congr fun x hx => ?_
    rw [hf x hx, signedName?_cons hname, Option.getD_some]
  · refine hk.congr fun x hx => ?_
    rw [hf x hx, signedName?_of_not hname, Option.getD_none]

theorem readHash_of_ne (hminus : ∀ v, s = '-' :: v → False) (hgreater : ∀ v, s = '>' :: v → False)
    (hspace : ∀ v, s = ' ' :: v → False) :
    rules.readHash s = (rules.signedName? '#' ['#'] s).getD (rules.extend "#" "#" s) := by
  rw [readHash]
  · exact hminus
  · exact fun v => hgreater ('>' :: v)
  · exact hgreater
  · exact hspace

theorem readHash_nil_ends : Ends rules u rules.readHash := by
  refine signedName_ends_nil (k := rules.extend "#" "#") [] (.inr rfl) (fun hname => ⟨by decide, hname⟩)
    (by simp [readHash, signedName?, extend]) (fun rest => rfl) ?_ fun x hx => ?_
  · rintro c rest (rfl | rfl)
    · exact readHash_of_ne (by simp) (by simp) (by simp)
    · exact readHash_of_ne (by simp) (by simp) (by simp)
  · rw [← List.nil_append x, extend, takeWhile_append_apart hx.operator]
    rfl

theorem readHash_ends (s : List Char) (hu : s.length ≤ u.length) :
    Ends rules u fun x => rules.readHash (s ++ x) := by
  fun_cases readHash rules s with
  | case1 rest =>
      rw [List.length_cons] at hu
      exact extend_ends "#-" "#-" (by omega)
  | case2 rest =>
      rw [List.length_cons, List.length_cons] at hu
      exact extend_ends "#>>" "#>>" (by omega)
  | case3 rest hrest =>
      rw [List.length_cons] at hu
      refine (extend_ends "#>" "#>" (s := rest) (by omega)).congr fun x hx => ?_
      rw [List.cons_append, readHash]
      exact append_ne_cons hrest (hx.ne (by decide))
  | case4 rest => exact Ends.ok (.sign "#") _ hu
  | case5 _ hminus _ hgreater hspace =>
      cases s with
      | nil => exact readHash_nil_ends
      | cons c s =>
          have hplain : Ends rules u fun x => rules.extend "#" "#" (c :: s ++ x) :=
            extend_ends "#" "#" hu
          rw [List.length_cons] at hu
          refine signedName_ends_cons '#' c ['#'] (s := s) (fun x hx => ?_) (by omega) hplain
          refine readHash_of_ne (append_ne_cons hminus (hx.ne (by decide)))
            (append_ne_cons hgreater (hx.ne (by decide))) ?_
          rintro v ⟨⟩
          exact hspace s rfl

theorem readAt_at (hspace : ∀ v, s = ' ' :: v → False) :
    rules.readAt ('@' :: s) =
      (rules.signedName? '@' ['@', '@'] s).getD (.ok (.sign "@@", s)) := by
  rw [readAt]
  exact hspace

theorem readAt_cons {c : Char} (hc : c ∉ ['>', '?', '@', ' ', '\'', '"', '\x60']) (s : List Char) :
    rules.readAt (c :: s) =
      (rules.signedName? '@' ['@'] (c :: s)).getD (.ok (.sign "@", c :: s)) := by
  have hne (d : Char) (hd : d ∈ ['>', '?', '@', ' ', '\'', '"', '\x60']) : c ≠ d := by
    rintro rfl
    exact hc hd
  rw [readAt]
  · simp [hne ' ' (by simp), hne '\'' (by simp), hne '"' (by simp), hne '\x60' (by simp)]
  · rintro v ⟨⟩
    exact hc (by simp)
  · rintro v ⟨⟩
    exact hc (by simp)
  · rintro v ⟨⟩
    exact hc (by simp)
  · rintro v ⟨⟩
    exact hc (by simp)

theorem readAt_nil_ends : Ends rules u rules.readAt := by
  refine signedName_ends_nil (k := fun x => .ok (.sign "@", x)) [] (.inl rfl)
    (fun hname => ⟨by decide, hname⟩) rfl (fun rest => rfl) ?_ fun x hx => rfl
  rintro c rest (rfl | rfl)
  · exact readAt_cons (by decide) rest
  · exact readAt_cons (by decide) rest

theorem readAt_at_ends (hspace : ∀ v, s = ' ' :: v → False) (hu : s.length ≤ u.length) :
    Ends rules u fun x => rules.readAt ('@' :: (s ++ x)) := by
  cases s with
  | nil =>
      refine signedName_ends_nil (k := fun x => .ok (.sign "@@", x)) ['@'] (.inl rfl)
        (fun hname => ⟨by decide, hname⟩) rfl (fun rest => rfl) ?_ fun x hx => rfl
      rintro c rest (rfl | rfl)
      · exact readAt_at (by simp)
      · exact readAt_at (by simp)
  | cons c s =>
      have hplain : Ends rules u fun x => .ok (.sign "@@", c :: s ++ x) := Ends.ok _ _ hu
      rw [List.length_cons] at hu
      refine signedName_ends_cons '@' c ['@', '@'] (s := s) (fun x hx => ?_) (by omega) hplain
      refine readAt_at ?_
      rintro v ⟨⟩
      exact hspace s rfl

theorem readAt_ends (s : List Char) (hu : s.length ≤ u.length) :
    Ends rules u fun x => rules.readAt (s ++ x) := by
  fun_cases readAt rules s with
  | case1 rest =>
      rw [List.length_cons] at hu
      exact Ends.ok (.sign "@>") _ (by omega)
  | case2 rest =>
      rw [List.length_cons] at hu
      exact Ends.ok (.sign "@?") _ (by omega)
  | case3 rest =>
      rw [List.length_cons] at hu
      exact Ends.ok (.sign "@@") (' ' :: rest) (by omega)
  | case4 rest hspace =>
      rw [List.length_cons] at hu
      exact readAt_at_ends hspace (by omega)
  | case5 => exact readAt_nil_ends
  | case6 c rest h hgreater hquestion _ hat =>
      refine (Ends.ok (.sign "@") (c :: rest) hu).congr fun x hx => ?_
      simp only [Bool.or_eq_true, decide_eq_true_eq] at h
      rcases h with ((rfl | rfl) | rfl) | rfl <;> rfl
  | case7 c rest h hgreater hquestion _ hat =>
      have hc : c ∉ ['>', '?', '@', ' ', '\'', '"', '\x60'] := by
        intro hc
        simp only [Bool.or_eq_true, decide_eq_true_eq, not_or] at h
        obtain ⟨⟨⟨hspace, hquote⟩, hdouble⟩, hback⟩ := h
        simp only [List.mem_cons, List.not_mem_nil, or_false] at hc
        rcases hc with rfl | rfl | rfl | hc | hc | hc | hc
        · exact hgreater rest rfl
        · exact hquestion rest rfl
        · exact hat rest rfl
        · exact hspace hc
        · exact hquote hc
        · exact hdouble hc
        · exact hback hc
      have hplain : Ends rules u fun x => .ok (.sign "@", c :: rest ++ x) := Ends.ok _ _ hu
      rw [List.length_cons] at hu
      exact signedName_ends_cons '@' c ['@'] (s := rest)
        (fun x hx => readAt_cons hc (rest ++ x)) (by omega) hplain

/-! ## Operators of more than one character -/

theorem append_ne_cons_cons {c d : Char} (hrest : ∀ tail, rest = c :: d :: tail → False)
    (hc : x.head? ≠ some c) (hd : x.head? ≠ some d) (tail : List Char) :
    rest ++ x = c :: d :: tail → False := by
  intro h
  cases rest with
  | nil => exact hc (by simp [show x = c :: d :: tail from h])
  | cons e rest =>
      obtain ⟨rfl, htail⟩ := List.cons.inj h
      exact append_ne_cons (fun tail (heq : rest = _) => hrest tail (congrArg _ heq)) hd tail htail

theorem append_ne_cons_cons_cons {c d e : Char} (hrest : ∀ tail, rest = c :: d :: e :: tail → False)
    (hc : x.head? ≠ some c) (hd : x.head? ≠ some d) (he : x.head? ≠ some e) (tail : List Char) :
    rest ++ x = c :: d :: e :: tail → False := by
  intro h
  cases rest with
  | nil => exact hc (by simp [show x = c :: d :: e :: tail from h])
  | cons a rest =>
      obtain ⟨rfl, htail⟩ := List.cons.inj h
      exact append_ne_cons_cons (fun tail (heq : rest = _) => hrest tail (congrArg _ heq)) hd he tail htail

theorem Offers.some {g : List Char → Option Scan} {f : List Char → Scan}
    (hg : ∀ x, Apart rules x → g x = some (f x)) (hf : Ends rules u f) :
    Offers rules u g :=
  .inr ⟨f, hg, hf⟩

theorem append_ne_of_ne_nil {c : Char} (hs : s ≠ []) (hc : ∀ tail, s = c :: tail → False)
    (tail : List Char) : s ++ x = c :: tail → False := by
  intro h
  obtain ⟨d, s, rfl⟩ := List.exists_cons_of_ne_nil hs
  obtain ⟨rfl, -⟩ := List.cons.inj h
  exact hc s rfl

theorem numbered_ends (hu : s.length ≤ u.length) :
    Ends rules u fun x => .ok
      (.placeholder (String.ofList ('?' :: (s ++ x).takeWhile Text.isNumeric)),
        (s ++ x).drop ((s ++ x).takeWhile Text.isNumeric).length) := by
  refine (Ends.ok (.placeholder (String.ofList ('?' :: s.takeWhile Text.isNumeric)))
    (s.drop (s.takeWhile Text.isNumeric).length) (by simp; omega)).congr fun x hx => ?_
  rw [takeWhile_append_apart (hx.lacks (by decide)), drop_append_initial (List.takeWhile_prefix _)]

theorem readSign?_offers (s : List Char) (hs : s ≠ []) (hu : s.tail.length ≤ u.length) :
    Offers rules u fun x => rules.readSign? (s ++ x) := by
  fun_cases readSign? rules s
  -- no sign: the first character begins none, and it stays the first
  case case54 =>
    refine .inl fun x hx => ?_
    dsimp only
    rw [readSign?]
    all_goals exact fun tail => append_ne_of_ne_nil hs (by assumption) _
  all_goals
    simp only [List.tail_cons, List.length_cons] at hu
    apply Offers.some
    · intro x hx
      simp only [List.cons_append]
      rw [readSign?]
      all_goals first
        | exact append_ne_cons (by assumption) (hx.ne (by decide))
        | exact append_ne_cons_cons (by assumption) (hx.ne (by decide)) (hx.ne (by decide))
        | exact append_ne_cons_cons_cons (by assumption) (hx.ne (by decide)) (hx.ne (by decide))
            (hx.ne (by decide))
    · first
      | exact Ends.ok _ _ (by omega)
      | exact extend_ends _ _ (by omega)
      | exact readHash_ends _ (by omega)
      | exact readAt_ends _ (by omega)
      | exact numbered_ends (by omega)

theorem geometric?_offers (hgeometric : rules.geometricOperators = true) (s : List Char)
    (hu : s.tail.length ≤ u.length) :
    Offers rules u fun x => geometric? rules (s ++ x) := by
  fun_cases geometric? rules s
  case case26 =>
    refine .inl fun x hx => ?_
    dsimp only
    rw [geometric?]
    all_goals first
      | exact append_ne_cons (by assumption) (hx.ne (by decide))
      | exact append_ne_cons_cons (by assumption) (hx.ne (by decide)) (hx.ne (by decide))
      | exact append_ne_cons_cons_cons (by assumption) (hx.ne (by decide)) (hx.ne (by decide))
          (hx.ne (by decide))
  all_goals
    simp only [List.tail_cons, List.length_cons] at hu
    apply Offers.some
    · intro x hx
      simp only [List.cons_append]
      rw [geometric?]
      all_goals first
        | exact append_ne_cons (by assumption) (hx.ne (by decide))
        | exact append_ne_cons_cons (by assumption) (hx.ne (by decide)) (hx.ne (by decide))
    · first
      | exact Ends.ok _ _ (by omega)
      | exact extend_ends _ _ (by omega)
      | exact extendOrStop_ends _ (by omega)
      | exact drop_one_ends hgeometric _ (by omega)

end SemanticLayer.Sql.LexicalRules
