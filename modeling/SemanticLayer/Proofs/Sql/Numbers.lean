import SemanticLayer.Proofs.Sql.Endings
/-!
Numbers at the end of a text: they end there, whatever stands apart behind.
-/
namespace SemanticLayer.Sql.LexicalRules

variable {rules : LexicalRules} {s u rest x : List Char}

theorem digits_cons {isDigit : Char → Bool} (c : Char) (rest : List Char) :
    rules.digits isDigit (c :: rest) =
      if isDigit c || (rules.groupedDigits && c == '_' && (rest.head?.map isHexDigit).getD false) then
        c :: rules.digits isDigit rest
      else [] := by
  rw [digits.eq_def]
  cases rest <;> grind

theorem digits_append {isDigit : Char → Bool} (hx : ∀ d ∈ x.head?, isDigit d = false)
    (hhex : ∀ d ∈ x.head?, isHexDigit d = false) (hunder : x.head? ≠ some '_') (s : List Char) :
    rules.digits isDigit (s ++ x) = rules.digits isDigit s := by
  induction s with
  | nil =>
      cases x with
      | nil => rfl
      | cons d x =>
          have hd : d ≠ '_' := fun h => hunder (by rw [h]; rfl)
          simp [digits_cons, hx d rfl, hd, digits]
  | cons c s ih =>
      have hhead : ((s ++ x).head?.map isHexDigit).getD false = (s.head?.map isHexDigit).getD false := by
        cases s with
        | nil =>
            cases x with
            | nil => rfl
            | cons d x => simp [hhex d rfl]
        | cons d s => rfl
      rw [List.cons_append, digits_cons, digits_cons, ih, hhead]

theorem digits_initial (isDigit : Char → Bool) (s : List Char) : rules.digits isDigit s <+: s := by
  induction s with
  | nil => exact List.prefix_refl _
  | cons c s ih =>
      rw [digits_cons]
      split
      · exact (List.prefix_cons_inj c).2 ih
      · exact List.nil_prefix

theorem exponentPart_append (hx : Apart rules x) (s : List Char) :
    exponentPart (s ++ x) = exponentPart s := by
  have hdigit : ∀ d ∈ x.head?, d.isDigit = false := hx.lacks (by decide)
  have hhead (c : Char) (hc : c ∉ [' ', ')', '\n']) : ∀ d ∈ x.head?, d ≠ c := by
    rintro d hd rfl
    exact hx.ne hc hd
  have hnil : exponentPart x = [] := by
    cases x with
    | nil => rfl
    | cons d x =>
        simp [exponentPart, hhead 'e' (by decide) d rfl, hhead 'E' (by decide) d rfl]
  fun_cases exponentPart s
  case case1 => exact hnil
  case case2 e he s d tail h =>
    simp only [List.cons_append, exponentPart, if_pos he, if_pos h, List.drop_one, List.tail_cons]
    rw [← List.cons_append, takeWhile_append_apart hdigit]
  case case3 e he s d tail h h' =>
    simp only [List.cons_append, exponentPart, if_pos he, if_neg h, if_pos h']
    rw [← List.cons_append, ← List.cons_append, takeWhile_append_apart hdigit]
  case case4 e he s d tail h h' =>
    simp only [List.cons_append, exponentPart, if_pos he, if_neg h, if_neg h']
  case case5 e he d h =>
    cases x with
    | nil => simp [exponentPart, he, h]
    | cons a x => simp [exponentPart, he, h, hdigit a rfl]
  case case6 e he d h =>
    cases x with
    | nil => simp [exponentPart, he, h]
    | cons a x => simp [exponentPart, he, h, hdigit a rfl]
  case case7 e he =>
    cases x with
    | nil => simp [exponentPart]
    | cons a x =>
      have ha := hdigit a rfl
      cases x with
      | nil => simp [exponentPart, he, ha]
      | cons b x => simp [exponentPart, he, ha, hhead '+' (by decide) a rfl, hhead '-' (by decide) a rfl]
  case case8 e rest he =>
    simp only [List.cons_append, exponentPart, if_neg he]

theorem exponentPart_initial (s : List Char) : exponentPart s <+: s := by
  fun_cases exponentPart s
  case case2 e he s d tail h =>
    exact (List.prefix_cons_inj e).2 ((List.prefix_cons_inj s).2 (List.takeWhile_prefix _))
  case case3 e he s d tail h h' => exact (List.prefix_cons_inj e).2 (List.takeWhile_prefix _)
  case case5 => exact List.prefix_refl _
  all_goals exact List.nil_prefix

theorem finishNumber_of_ne (number : List Char) (hs : s.head? ≠ some 'L') :
    finishNumber number s = .ok (.number (String.ofList number) false, s) := by
  rw [finishNumber]
  rintro v rfl
  exact hs rfl

theorem finishNumber_steady (number s : List Char) :
    Steady rules s fun x => finishNumber number (s ++ x) := by
  by_cases hs : s.head? = some 'L'
  · obtain ⟨s, rfl⟩ := List.head?_eq_some_iff.1 hs
    exact Steady.ok _ _ (by simp)
  · refine (Steady.ok (.number (String.ofList number) false) _ (le_refl _)).congr fun x hx => ?_
    exact finishNumber_of_ne number (head?_append_ne hs (hx.ne (by decide)))

theorem finishDecimal_steady (previous : Token) (number s : List Char) :
    Steady rules s fun x => rules.finishDecimal previous number (s ++ x) := by
  have hexponent := exponentPart_initial s
  have hlength : (s.drop (exponentPart s).length).length ≤ s.length := by simp
  have hfinish : Steady rules s fun x =>
      finishNumber (number ++ exponentPart s) (s.drop (exponentPart s).length ++ x) :=
    (finishNumber_steady _ _).mono hlength
  have hsame (x : List Char) (hx : Apart rules x) :
      (s ++ x).drop (exponentPart (s ++ x)).length = s.drop (exponentPart s).length ++ x := by
    rw [exponentPart_append hx, drop_append_initial hexponent]
  unfold finishDecimal
  by_cases hnames : rules.digitNames = true
  · simp only [if_pos hnames]
    by_cases hempty : (exponentPart s).isEmpty = true
    · have hnil : exponentPart s = [] := List.isEmpty_iff.1 hempty
      by_cases hname : (s.takeWhile rules.isNamePart).isEmpty = true
      · refine hfinish.congr fun x hx => ?_
        simp only [exponentPart_append hx, hnil, List.isEmpty_nil, if_true, List.length_nil,
          List.drop_zero, takeWhile_append_apart hx.part, hname]
      · refine (Steady.ok (.word (String.ofList (number ++ s.takeWhile rules.isNamePart)) none)
          (s.drop (s.takeWhile rules.isNamePart).length) (by simp)).congr fun x hx => ?_
        simp only [exponentPart_append hx, hnil, List.isEmpty_nil, if_true, List.length_nil,
          List.drop_zero, takeWhile_append_apart hx.part, hname, List.append_nil,
          drop_append_initial (List.takeWhile_prefix _)]
        rfl
    · by_cases hpoint : previous = .sign "."
      · refine (Steady.ok (.word (String.ofList (number ++ exponentPart s)) none) _ hlength).congr
          fun x hx => ?_
        rw [hsame x hx, exponentPart_append hx, if_neg hempty, if_pos hpoint]
      · refine hfinish.congr fun x hx => ?_
        rw [hsame x hx, exponentPart_append hx, if_neg hempty, if_neg hpoint]
  · refine hfinish.congr fun x hx => ?_
    dsimp only
    rw [if_neg hnames, hsame x hx, exponentPart_append hx]

/-- What stands behind the whole part of a number and a point. -/
def readFraction (rules : LexicalRules) (previous : Token) (whole rest : List Char) : Scan :=
  if whole.isEmpty && rules.digitNames && previous.isWord then .ok (.sign ".", rest)
  else
    let fraction := rules.digits Char.isDigit rest
    if whole.isEmpty && fraction.isEmpty then .ok (.sign ".", rest)
    else rules.finishDecimal previous (whole ++ '.' :: fraction) (rest.drop fraction.length)

theorem Apart.digits (hx : Apart rules x) (s : List Char) :
    rules.digits Char.isDigit (s ++ x) = rules.digits Char.isDigit s :=
  digits_append (hx.lacks (by decide)) (hx.lacks (by decide)) (hx.ne (by decide)) s

theorem Apart.hexDigits (hx : Apart rules x) (s : List Char) :
    rules.digits isHexDigit (s ++ x) = rules.digits isHexDigit s :=
  digits_append (hx.lacks (by decide)) (hx.lacks (by decide)) (hx.ne (by decide)) s

theorem readFraction_steady (previous : Token) (whole s : List Char) :
    Steady rules s fun x => readFraction rules previous whole (s ++ x) := by
  unfold readFraction
  by_cases hword : (whole.isEmpty && rules.digitNames && previous.isWord) = true
  · simp only [if_pos hword]
    exact Steady.ok _ _ (le_refl _)
  · simp only [if_neg hword]
    by_cases hempty : (whole.isEmpty && (rules.digits Char.isDigit s).isEmpty) = true
    · refine (Steady.ok (.sign ".") _ (le_refl _)).congr fun x hx => ?_
      rw [hx.digits, if_pos hempty]
    · refine ((finishDecimal_steady previous (whole ++ '.' :: rules.digits Char.isDigit s)
        (s.drop (rules.digits Char.isDigit s).length)).mono (by simp)).congr fun x hx => ?_
      rw [hx.digits, if_neg hempty, drop_append_initial (digits_initial _ _)]

theorem readNumber_hex {previous : Token} (rest : List Char) (hwhole : rules.digits Char.isDigit s = ['0'])
    (hrest : s.drop 1 = 'x' :: rest) :
    rules.readNumber previous s =
      .ok (.text .hex (String.ofList (rules.digits isHexDigit rest)),
        rest.drop (rules.digits isHexDigit rest).length) := by
  have hne : ∀ v, s = '.' :: '_' :: v → False := by
    rintro v rfl
    simp at hrest
  rw [readNumber]
  · simp only [hwhole, List.length_singleton, hrest]
  · exact hne

theorem readNumber_point {previous : Token} (rest : List Char) (hs : ∀ v, s = '.' :: '_' :: v → False)
    (hrest : s.drop (rules.digits Char.isDigit s).length = '.' :: rest) :
    rules.readNumber previous s =
      readFraction rules previous (rules.digits Char.isDigit s) rest := by
  rw [readNumber]
  · simp only [hrest]
    rfl
  · exact hs

theorem readNumber_whole {previous : Token} (hs : s.head? ≠ some '.')
    (hhex : rules.digits Char.isDigit s = ['0'] → (s.drop 1).head? ≠ some 'x')
    (hrest : (s.drop (rules.digits Char.isDigit s).length).head? ≠ some '.') :
    rules.readNumber previous s =
      rules.finishDecimal previous (rules.digits Char.isDigit s)
        (s.drop (rules.digits Char.isDigit s).length) := by
  have hne : ∀ v, s = '.' :: '_' :: v → False := by
    rintro v rfl
    exact hs rfl
  rw [readNumber]
  · split
    · rename_i hwhole hx
      rw [hwhole] at hx
      exact absurd (by rw [List.length_singleton] at hx; rw [hx]; rfl) (hhex hwhole)
    · rename_i hpoint
      exact absurd (by rw [hpoint]; rfl) hrest
    · rfl
  · exact hne

theorem readNumber_underscore_ends (previous : Token) (v : List Char) :
    Ends rules ('_' :: v) fun x => rules.readNumber previous ('.' :: ('_' :: v ++ x)) := by
  cases hword : previous.isWord with
  | true =>
      refine (Ends.ok (.sign ".") _ (le_refl _)).congr fun x _ => ?_
      rw [List.cons_append, readNumber, if_pos hword]
  | false =>
      refine .opens .stuck trivial (by simp [Ending.Open]) fun x _ => ?_
      rw [List.cons_append, readNumber, if_neg (by simp [hword])]
      rfl

theorem readNumber_point_ends {previous : Token} (hu : u.head? ≠ some '_') :
    Ends rules u fun x => rules.readNumber previous ('.' :: (u ++ x)) := by
  have hwhole (s : List Char) : rules.digits Char.isDigit ('.' :: s) = [] := by
    simp [digits_cons]
  refine ((readFraction_steady previous [] u).ends (le_refl _)).congr fun x hx => ?_
  rw [readNumber_point (u ++ x) _ (by rw [hwhole]; rfl), hwhole]
  intro v hv
  refine head?_append_ne hu (hx.ne (c := '_') (by decide)) ?_
  rw [(List.cons.inj hv).2]
  rfl

theorem readNumber_digit_ends {previous : Token} {c : Char} (hc : c.isDigit = true) (u : List Char) :
    Ends rules u fun x => rules.readNumber previous (c :: (u ++ x)) := by
  have hpoint : c ≠ '.' := by
    rintro rfl
    exact absurd hc (by decide)
  have hdigits (x : List Char) (hx : Apart rules x) :
      rules.digits Char.isDigit (c :: (u ++ x)) = rules.digits Char.isDigit (c :: u) :=
    hx.digits (c :: u)
  have hdrop (x : List Char) : (c :: (u ++ x)).drop (rules.digits Char.isDigit (c :: u)).length =
      (c :: u).drop (rules.digits Char.isDigit (c :: u)).length ++ x :=
    drop_append_initial (digits_initial _ _) x
  have hrest : ((c :: u).drop (rules.digits Char.isDigit (c :: u)).length).length ≤ u.length := by
    rw [digits_cons, if_pos (by simp [hc]), List.length_cons, List.drop_succ_cons]
    simp
  by_cases hfraction : ((c :: u).drop (rules.digits Char.isDigit (c :: u)).length).head? = some '.'
  · obtain ⟨v, hv⟩ := List.head?_eq_some_iff.1 hfraction
    have hlength : v.length ≤ u.length := by
      rw [hv, List.length_cons] at hrest
      omega
    refine ((readFraction_steady previous (rules.digits Char.isDigit (c :: u)) v).ends
      hlength).congr fun x hx => ?_
    rw [readNumber_point (v ++ x) (by simp [hpoint]) (by rw [hdigits x hx, hdrop, hv]; rfl), hdigits x hx]
  by_cases hhex : rules.digits Char.isDigit (c :: u) = ['0'] ∧ u.head? = some 'x'
  · obtain ⟨hwhole, hu⟩ := hhex
    obtain ⟨v, rfl⟩ := List.head?_eq_some_iff.1 hu
    refine (Ends.ok (.text .hex (String.ofList (rules.digits isHexDigit v)))
      (v.drop (rules.digits isHexDigit v).length) (by simp; omega)).congr fun x hx => ?_
    rw [readNumber_hex (v ++ x) (by rw [hdigits x hx, hwhole]) rfl, hx.hexDigits,
      drop_append_initial (digits_initial _ _)]
  · refine ((finishDecimal_steady previous (rules.digits Char.isDigit (c :: u))
      ((c :: u).drop (rules.digits Char.isDigit (c :: u)).length)).ends hrest).congr fun x hx => ?_
    rw [readNumber_whole, hdigits x hx, hdrop]
    · simpa using hpoint
    · intro hwhole
      rw [hdigits x hx] at hwhole
      exact head?_append_ne (fun h => hhex ⟨hwhole, h⟩) (hx.ne (by decide))
    · rw [hdigits x hx, hdrop]
      exact head?_append_ne hfraction (hx.ne (by decide))

theorem readNumber_ends {previous : Token} {c : Char} (hc : c.isDigit = true ∨ c = '.')
    (u : List Char) : Ends rules u fun x => rules.readNumber previous (c :: (u ++ x)) := by
  rcases hc with hc | rfl
  · exact readNumber_digit_ends hc u
  · by_cases hu : u.head? = some '_'
    · obtain ⟨v, rfl⟩ := List.head?_eq_some_iff.1 hu
      exact readNumber_underscore_ends previous v
    · exact readNumber_point_ends hu

end SemanticLayer.Sql.LexicalRules
