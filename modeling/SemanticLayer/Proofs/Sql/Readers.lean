import Mathlib.Data.List.Infix
import SemanticLayer.Sql.Lexer
/-!
The readers of tokens on longer texts: what is behind the end of a text changes a token of it only where
the token is still open there.
-/
namespace SemanticLayer.Sql.LexicalRules

variable {rules : LexicalRules} {s rest left x : List Char} {α β : Type} {quote : Char}

/-- What a reader gives on a text `s` and what it gives with `x` behind: where it takes something from
the front of `s`, it takes the same from the longer text. -/
def Grows (s x : List Char) (r r' : Option (α × List Char)) : Prop :=
  ∀ a left, r = some (a, left) → left <:+ s ∧ r' = some (a, left ++ x)

theorem Grows.none {r' : Option (α × List Char)} : Grows s x none r' := by
  simp [Grows]

theorem Grows.some {a : α} (h : left <:+ s) : Grows s x (some (a, left)) (some (a, left ++ x)) := by
  intro b l hb
  obtain ⟨rfl, rfl⟩ := Prod.mk.inj (Option.some.inj hb)
  exact ⟨h, rfl⟩

theorem Grows.map {r r' : Option (α × List Char)} {f : α → β} (h : Grows s x r r') :
    Grows s x (r.map fun p => (f p.1, p.2)) (r'.map fun p => (f p.1, p.2)) := by
  intro b left hb
  obtain ⟨⟨a, l⟩, ha, heq⟩ := Option.map_eq_some_iff.1 hb
  obtain ⟨rfl, rfl⟩ := Prod.mk.inj heq
  obtain ⟨hleft, hr'⟩ := h a l ha
  exact ⟨hleft, by simp [hr']⟩

theorem Grows.cons {r r' : Option (α × List Char)} {c : Char} (h : Grows s x r r') :
    Grows (c :: s) x r r' := by
  intro a left ha
  obtain ⟨hleft, hr'⟩ := h a left ha
  exact ⟨hleft.trans (List.suffix_cons c s), hr'⟩

theorem Grows.value (r : Option α) (h : left <:+ s) :
    Grows s x (r.map (·, left)) (r.map (·, left ++ x)) := by
  cases r with
  | none => exact Grows.none
  | some a => exact Grows.some h

theorem Grows.bind {r r' : Option (α × List Char)} {f f' : α × List Char → Option (β × List Char)}
    (h : Grows s x r r') (hf : ∀ a left, Grows left x (f (a, left)) (f' (a, left ++ x))) :
    Grows s x (r >>= f) (r' >>= f') := by
  intro b left hb
  obtain ⟨⟨a, middle⟩, ha, hb⟩ := Option.bind_eq_some_iff.1 hb
  obtain ⟨hmiddle, hr'⟩ := h a middle ha
  obtain ⟨hleft, hf'⟩ := hf a middle b left hb
  exact ⟨hleft.trans hmiddle, by simpa [hr'] using hf'⟩

/-! ## Texts and names in quotes -/

theorem quoted?_close (hx : x.head? ≠ some quote) : quoted? quote (quote :: x) = some ([], x) := by
  cases x with
  | nil => simp [quoted?]
  | cons d x =>
      have hd : d ≠ quote := by simpa using hx
      simp [quoted?, hd]

theorem quoted?_grows (hx : x.head? ≠ some quote) (s : List Char) :
    Grows s x (quoted? quote s) (quoted? quote (s ++ x)) := by
  fun_induction quoted? quote s with
  | case1 => exact Grows.none
  | case2 =>
      rw [List.singleton_append, quoted?_close hx]
      exact Grows.some List.nil_suffix
  | case3 => exact Grows.none
  | case4 rest ih =>
      simp only [List.cons_append, quoted?, if_true]
      exact ih.map.cons.cons
  | case5 d rest hd =>
      simp only [List.cons_append, quoted?, if_true, if_neg hd]
      exact Grows.some (List.suffix_cons _ _)
  | case6 c d rest hc ih =>
      simp only [List.cons_append, quoted?, if_neg hc]
      exact ih.map.cons

/-- A text that is open at the end is closed by what stands behind. -/
theorem quoted?_open (h : quoted? quote s = none) (x : List Char) :
    (quoted? quote (s ++ x)).map Prod.snd = (quoted? quote x).map Prod.snd := by
  fun_induction quoted? quote s with
  | case1 => rfl
  | case2 => simp at h
  | case3 c hc =>
      cases x with
      | nil => simp [quoted?, hc]
      | cons d x => simp [quoted?, hc, Function.comp_def]
  | case4 rest ih =>
      simp only [List.cons_append, quoted?, if_true, Option.map_map]
      exact ih (by simpa using h)
  | case5 => simp at h
  | case6 c d rest hc ih =>
      simp only [List.cons_append, quoted?, if_neg hc, Option.map_map]
      exact ih (by simpa using h)

theorem quotedWithEscapes?_close {keeps : Bool} (hx : x.head? ≠ some quote) :
    quotedWithEscapes? keeps quote (quote :: x) = some ([], x) := by
  cases x with
  | nil => simp [quotedWithEscapes?]
  | cons d x =>
      have hd : d ≠ quote := by simpa using hx
      simp [quotedWithEscapes?, hd]

theorem quotedWithEscapes?_grows {keeps : Bool} (hx : x.head? ≠ some quote) (s : List Char) :
    Grows s x (quotedWithEscapes? keeps quote s) (quotedWithEscapes? keeps quote (s ++ x)) := by
  fun_induction quotedWithEscapes? keeps quote s with
  | case1 => exact Grows.none
  | case2 =>
      rw [List.singleton_append, quotedWithEscapes?_close hx]
      exact Grows.some List.nil_suffix
  | case3 => exact Grows.none
  | case4 rest ih =>
      simp only [List.cons_append, quotedWithEscapes?, if_true]
      exact ih.map.cons.cons
  | case5 d rest hd =>
      simp only [List.cons_append, quotedWithEscapes?, if_true, if_neg hd]
      exact Grows.some (List.suffix_cons _ _)
  | case6 d rest hc ih =>
      simp only [List.cons_append, quotedWithEscapes?, if_neg hc, if_true]
      by_cases hkeeps : (keeps && (d = '%' || d = '_')) = true
      · simp only [hkeeps, if_true]
        exact (ih.map (f := fun a => '\\' :: d :: a)).cons.cons
      · simp only [hkeeps]
        exact ih.map.cons.cons
  | case7 c d rest hc hescape ih =>
      simp only [List.cons_append, quotedWithEscapes?, if_neg hc, if_neg hescape]
      exact ih.map.cons

/-- The same where an escape may be open at the end, which takes a character of what stands behind. -/
theorem quotedWithEscapes?_open {keeps : Bool} (h : quotedWithEscapes? keeps quote s = none) :
    ∃ taken ≤ 1, ∀ x : List Char, (quotedWithEscapes? keeps quote (s ++ x)).map Prod.snd =
      (quotedWithEscapes? keeps quote (x.drop taken)).map Prod.snd := by
  fun_induction quotedWithEscapes? keeps quote s with
  | case1 => exact ⟨0, by omega, fun x => rfl⟩
  | case2 => simp at h
  | case3 c hc =>
      by_cases hescape : c = '\\'
      · refine ⟨1, by omega, ?_⟩
        intro x
        cases x with
        | nil => simp [quotedWithEscapes?, hc]
        | cons d x =>
            simp only [List.singleton_append, quotedWithEscapes?, if_neg hc, if_pos hescape,
              Option.map_map, List.drop_one, List.tail_cons]
            congr 1
            funext p
            simp only [Function.comp_apply]
            split <;> rfl
      · refine ⟨0, by omega, ?_⟩
        intro x
        cases x with
        | nil => simp [quotedWithEscapes?, hc]
        | cons d x => simp [quotedWithEscapes?, hc, hescape, Function.comp_def]
  | case4 rest ih =>
      obtain ⟨taken, htaken, ih⟩ := ih (by simpa using h)
      refine ⟨taken, htaken, ?_⟩
      intro x
      simp only [List.cons_append, quotedWithEscapes?, if_true, Option.map_map]
      exact ih x
  | case5 => simp at h
  | case6 d rest hc ih =>
      obtain ⟨taken, htaken, ih⟩ := ih (by simpa using h)
      refine ⟨taken, htaken, ?_⟩
      intro x
      rw [← ih x]
      simp only [List.cons_append, quotedWithEscapes?, if_neg hc, if_true, Option.map_map]
      congr 1
      funext p
      simp only [Function.comp_apply]
      split <;> rfl
  | case7 c d rest hc hescape ih =>
      obtain ⟨taken, htaken, ih⟩ := ih (by simpa using h)
      refine ⟨taken, htaken, ?_⟩
      intro x
      simp only [List.cons_append, quotedWithEscapes?, if_neg hc, if_neg hescape, Option.map_map]
      exact ih x

/-! ## Dollar signs -/

theorem dollarText?_cons {c : Char} (h : c = '$' → rest.head? ≠ some '$') :
    dollarText? (c :: rest) = (dollarText? rest).map fun p => (c :: p.1, p.2) := by
  rw [dollarText?]
  rintro more rfl rfl
  exact h rfl rfl

theorem dollarText?_grows (hx : x.head? ≠ some '$') (s : List Char) :
    Grows s x (dollarText? s) (dollarText? (s ++ x)) := by
  fun_induction dollarText? s with
  | case1 => exact Grows.none
  | case2 rest =>
      simp only [List.cons_append, dollarText?]
      exact Grows.some ((List.suffix_cons _ _).trans (List.suffix_cons _ _))
  | case3 c rest hc ih =>
      have hrest : c = '$' → (rest ++ x).head? ≠ some '$' := by
        rintro rfl
        cases rest with
        | nil => exact hx
        | cons d rest =>
            intro hd
            exact hc rest rfl (by simpa using hd)
      rw [List.cons_append, dollarText?_cons hrest]
      exact ih.map.cons

theorem dollarText?_open (h : dollarText? s = none) (hx : x.head? ≠ some '$') :
    (dollarText? (s ++ x)).map Prod.snd = (dollarText? x).map Prod.snd := by
  fun_induction dollarText? s with
  | case1 => rfl
  | case2 => simp at h
  | case3 c rest hc ih =>
      have hrest : c = '$' → (rest ++ x).head? ≠ some '$' := by
        rintro rfl
        cases rest with
        | nil => exact hx
        | cons d rest =>
            intro hd
            exact hc rest rfl (by simpa using hd)
      rw [List.cons_append, dollarText?_cons hrest, Option.map_map]
      exact ih (by simpa using h)

/-- What does not begin with a character of a mark cannot complete it. -/
theorem isPrefixOf_append {closing : List Char} (hx : ∀ d ∈ x.head?, d ∉ closing) :
    closing.isPrefixOf (s ++ x) = closing.isPrefixOf s := by
  induction closing generalizing s with
  | nil => simp
  | cons c closing ih =>
      have htail : ∀ d ∈ x.head?, d ∉ closing := fun d hd h => hx d hd (List.mem_cons_of_mem _ h)
      cases s with
      | nil =>
          cases x with
          | nil => rfl
          | cons d x =>
              have hd : c ≠ d := fun heq => hx d (by simp) (by simp [heq])
              simp [List.isPrefixOf, hd]
      | cons d s => simp [List.isPrefixOf, ih htail]

theorem taggedText?_grows {closing : List Char} (hclosing : closing ≠ [])
    (hx : ∀ d ∈ x.head?, d ∉ closing) (s : List Char) :
    Grows s x (taggedText? closing s) (taggedText? closing (s ++ x)) := by
  fun_induction taggedText? closing s with
  | case1 hempty => exact absurd (by simpa using hempty) hclosing
  | case2 => exact Grows.none
  | case3 c rest h =>
      rw [List.cons_append, taggedText?, ← List.cons_append, isPrefixOf_append hx, if_pos h,
        List.drop_append_of_le_length (List.isPrefixOf_iff_prefix.1 h).length_le]
      exact Grows.some (List.drop_suffix _ _)
  | case4 c rest h ih =>
      rw [List.cons_append, taggedText?, ← List.cons_append, isPrefixOf_append hx, if_neg h]
      exact ih.map.cons

theorem taggedText?_open {closing : List Char} (h : taggedText? closing s = none)
    (hx : ∀ d ∈ x.head?, d ∉ closing) :
    (taggedText? closing (s ++ x)).map Prod.snd = (taggedText? closing x).map Prod.snd := by
  fun_induction taggedText? closing s with
  | case1 => simp at h
  | case2 => rfl
  | case3 => simp at h
  | case4 c rest hprefix ih =>
      rw [List.cons_append, taggedText?, ← List.cons_append, isPrefixOf_append hx, if_neg hprefix,
        Option.map_map]
      exact ih (by simpa using h)

/-! ## Comments -/

theorem afterComment?_grows (nests : Bool) (depth : Nat) (s x : List Char) :
    Grows s x ((afterComment? nests depth s).map (Prod.mk ()))
      ((afterComment? nests depth (s ++ x)).map (Prod.mk ())) := by
  fun_induction afterComment? nests depth s with
  | case1 => exact Grows.none
  | case2 => exact Grows.none
  | case3 depth c d rest h ih =>
      simp only [List.cons_append, afterComment?, if_pos h]
      exact ih.cons.cons
  | case4 c d rest h h' depth ih =>
      simp only [List.cons_append, afterComment?, if_neg h, if_pos h']
      exact ih.cons.cons
  | case5 depth c d rest h h' hdepth =>
      simp only [List.cons_append, afterComment?, if_neg h, if_pos h']
      exact Grows.some ((List.suffix_cons _ _).trans (List.suffix_cons _ _))
  | case6 depth c d rest h h' ih =>
      simp only [List.cons_append, afterComment?, if_neg h, if_neg h']
      exact ih.cons

theorem afterComment?_open {nests : Bool} {depth : Nat} (h : afterComment? nests depth s = none) :
    ∃ depth', ∀ x : List Char, x.head? ≠ some '*' → x.head? ≠ some '/' →
      afterComment? nests depth (s ++ x) = afterComment? nests depth' x := by
  fun_induction afterComment? nests depth s with
  | case1 depth => exact ⟨depth, fun x _ _ => rfl⟩
  | case2 depth c =>
      refine ⟨depth, ?_⟩
      intro x hstar hslash
      cases x with
      | nil => simp [afterComment?]
      | cons d x =>
          have hd : d ≠ '*' := by simpa using hstar
          have hd' : d ≠ '/' := by simpa using hslash
          simp [afterComment?, hd, hd']
  | case3 depth c d rest hopen ih =>
      obtain ⟨depth', ih⟩ := ih h
      refine ⟨depth', ?_⟩
      intro x hstar hslash
      simp only [List.cons_append, afterComment?, if_pos hopen]
      exact ih x hstar hslash
  | case4 c d rest hopen hclose depth ih =>
      obtain ⟨depth', ih⟩ := ih h
      refine ⟨depth', ?_⟩
      intro x hstar hslash
      simp only [List.cons_append, afterComment?, if_neg hopen, if_pos hclose]
      exact ih x hstar hslash
  | case5 => simp at h
  | case6 depth c d rest hopen hclose ih =>
      obtain ⟨depth', ih⟩ := ih h
      refine ⟨depth', ?_⟩
      intro x hstar hslash
      simp only [List.cons_append, afterComment?, if_neg hopen, if_neg hclose]
      exact ih x hstar hslash

/-! ## Runs of characters -/

theorem takeWhile_append_apart {p : Char → Bool} (hx : ∀ d ∈ x.head?, p d = false) (s : List Char) :
    (s ++ x).takeWhile p = s.takeWhile p := by
  induction s with
  | nil =>
      cases x with
      | nil => rfl
      | cons d x => simp [hx d rfl]
  | cons c s ih => simp [List.takeWhile_cons, ih]

theorem dropWhile_append_apart {p : Char → Bool} (hx : ∀ d ∈ x.head?, p d = false) (s : List Char) :
    (s ++ x).dropWhile p = s.dropWhile p ++ x := by
  induction s with
  | nil =>
      cases x with
      | nil => rfl
      | cons d x => simp [hx d rfl]
  | cons c s ih =>
      simp only [List.cons_append, List.dropWhile_cons, ih]
      split <;> rfl

theorem upTo_append_apart {limit : Nat} {p : Char → Bool} (hx : ∀ d ∈ x.head?, p d = false)
    (s : List Char) : upTo limit p (s ++ x) = upTo limit p s := by
  unfold upTo
  rw [List.take_append]
  refine takeWhile_append_apart ?_ _
  intro d hd
  cases hlimit : limit - s.length with
  | zero => simp [hlimit] at hd
  | succ n =>
      rw [hlimit] at hd
      cases x with
      | nil => simp at hd
      | cons e x => exact hx d (by simpa using hd)

theorem length_upTo_le (limit : Nat) (p : Char → Bool) (s : List Char) :
    (upTo limit p s).length ≤ s.length :=
  (List.takeWhile_prefix p).length_le.trans (List.length_take_le' limit s)

/-! ## Texts with escapes by a mark in front -/

theorem unicodeEscape?_grows (count : Nat) (s x : List Char) :
    Grows s x (unicodeEscape? count s) (unicodeEscape? count (s ++ x)) := by
  unfold unicodeEscape?
  split
  · exact Grows.none
  · rename_i hlength
    have hlonger : ¬(s ++ x).length < count := by
      rw [List.length_append]
      omega
    rw [if_neg hlonger, List.take_append_of_le_length (by omega),
      List.drop_append_of_le_length (by omega)]
    intro c left h
    obtain ⟨d, hd, heq⟩ := Option.map_eq_some_iff.1 h
    obtain ⟨rfl, rfl⟩ := Prod.mk.inj heq
    exact ⟨List.drop_suffix _ _, by simp [hd]⟩

theorem escape?_grows (hx : ∀ d ∈ x.head?, d = '\n') (s : List Char) :
    Grows s x (escape? s) (escape? (s ++ x)) := by
  have hhex : ∀ d ∈ x.head?, isHexDigit d = false := by
    intro d hd
    rw [hx d hd]
    decide
  have hoctal : ∀ d ∈ x.head?, isOctalDigit d = false := by
    intro d hd
    rw [hx d hd]
    decide
  fun_cases escape? s with
  | case1 => exact Grows.none
  | case2 rest => exact Grows.some (List.suffix_cons _ _)
  | case3 rest => exact Grows.some (List.suffix_cons _ _)
  | case4 rest => exact Grows.some (List.suffix_cons _ _)
  | case5 rest => exact Grows.some (List.suffix_cons _ _)
  | case6 rest => exact Grows.some (List.suffix_cons _ _)
  | case7 rest => exact (unicodeEscape?_grows 4 rest x).cons
  | case8 rest => exact (unicodeEscape?_grows 8 rest x).cons
  | case9 rest digits hdigits =>
      simp only [List.cons_append, escape?, upTo_append_apart hhex, digits] at hdigits ⊢
      rw [if_pos hdigits]
      exact Grows.some (List.suffix_cons _ _)
  | case10 rest digits hdigits =>
      simp only [List.cons_append, escape?, upTo_append_apart hhex, digits] at hdigits ⊢
      rw [if_neg hdigits, List.drop_append_of_le_length (length_upTo_le _ _ _)]
      cases Text.hexNumber? (upTo 2 isHexDigit rest) with
      | none => exact Grows.none
      | some n => exact (Grows.value _ (List.drop_suffix _ _)).cons
  | case11 c rest hb hf hn hr ht hu hU hX hc digits code =>
      rw [List.cons_append, escape?.eq_10 c _ hb hf hn hr ht hu hU hX, if_pos hc]
      simp only [upTo_append_apart hoctal, List.length_cons, Nat.add_sub_cancel, digits, code]
      rw [List.drop_append_of_le_length (length_upTo_le _ _ _)]
      exact (Grows.value _ (List.drop_suffix _ _)).cons
  | case12 c rest hb hf hn hr ht hu hU hX hc =>
      rw [List.cons_append, escape?.eq_10 c _ hb hf hn hr ht hu hU hX, if_neg hc]
      exact Grows.some (List.suffix_cons _ _)

theorem append_ne_cons {c : Char} (hrest : ∀ tail, rest = c :: tail → False)
    (hx : x.head? ≠ some c) (tail : List Char) : rest ++ x = c :: tail → False := by
  intro h
  cases rest with
  | nil => exact hx (by simp [show x = c :: tail from h])
  | cons d rest =>
      obtain ⟨rfl, -⟩ := List.cons.inj h
      exact hrest rest rfl

/-- More steps than characters change nothing. -/
theorem escapedText?_grows (hx : ∀ d ∈ x.head?, d = '\n') {steps more : Nat} (hsteps : steps ≤ more)
    (s : List Char) : Grows s x (escapedText? steps s) (escapedText? more (s ++ x)) := by
  have hquote : x.head? ≠ some '\'' := fun h => absurd (hx _ h) (by decide)
  fun_induction escapedText? steps s generalizing more with
  | case1 => exact Grows.none
  | case2 => exact Grows.none
  | case3 steps rest ih =>
      obtain ⟨more, rfl⟩ := Nat.exists_eq_add_one_of_ne_zero (by omega : more ≠ 0)
      simp only [List.cons_append, escapedText?]
      exact (ih (by omega)).map.cons.cons
  | case4 steps rest hrest =>
      obtain ⟨more, rfl⟩ := Nat.exists_eq_add_one_of_ne_zero (by omega : more ≠ 0)
      rw [List.cons_append, escapedText?]
      · exact Grows.some (List.suffix_cons _ _)
      · exact append_ne_cons hrest hquote
  | case5 steps rest ih =>
      obtain ⟨more, rfl⟩ := Nat.exists_eq_add_one_of_ne_zero (by omega : more ≠ 0)
      simp only [List.cons_append, escapedText?]
      refine Grows.cons ((escape?_grows hx rest).bind ?_)
      intro c left
      dsimp only
      split
      · exact Grows.none
      · exact (ih left (by omega)).bind fun a left => Grows.some (List.suffix_refl _)
  | case6 steps c rest hquotes hc hescape ih =>
      obtain ⟨more, rfl⟩ := Nat.exists_eq_add_one_of_ne_zero (by omega : more ≠ 0)
      rw [List.cons_append, escapedText?]
      · exact (ih (by omega)).map.cons
      · exact fun _ h _ => hc h
      · exact hc
      · exact hescape

theorem toOption_bind {ε : Type} (r : Except ε α) (f : α → Except ε β) :
    (r >>= f).toOption = r.toOption >>= fun a => (f a).toOption := by
  cases r <;> rfl

theorem unicodeCode_grows (count code : Nat) (s x : List Char) :
    Grows s x (unicodeCode count code s).toOption (unicodeCode count code (s ++ x)).toOption := by
  fun_induction unicodeCode count code s with
  | case1 code s =>
      rw [unicodeCode]
      exact Grows.some (List.suffix_refl _)
  | case2 => exact Grows.none
  | case3 count code c rest v hv ih =>
      simp only [List.cons_append, unicodeCode, hv]
      exact ih.cons
  | case4 => exact Grows.none

theorem unicodeCharacter_grows (count : Nat) (s x : List Char) :
    Grows s x (unicodeCharacter count s).toOption (unicodeCharacter count (s ++ x)).toOption := by
  unfold unicodeCharacter
  rw [toOption_bind, toOption_bind]
  refine (unicodeCode_grows count 0 s x).bind ?_
  intro code left
  dsimp only
  split
  · exact Grows.some (List.suffix_refl _)
  · exact Grows.none

/-- A character in front of the rest of a text. -/
theorem Grows.character {r r' : Except LexicalStop (List Char × List Char)} (c : Char)
    (h : Grows s x r.toOption r'.toOption) :
    Grows s x (do let (more, rest) ← r; pure (c :: more, rest) : Except LexicalStop _).toOption
      (do let (more, rest) ← r'; pure (c :: more, rest) : Except LexicalStop _).toOption := by
  rw [toOption_bind, toOption_bind]
  exact h.bind fun a left => Grows.some (List.suffix_refl _)

theorem unicodeText_grows (hx : ∀ d ∈ x.head?, d = '\n') {steps more : Nat} (hsteps : steps ≤ more)
    (s : List Char) :
    Grows s x (unicodeText steps s).toOption (unicodeText more (s ++ x)).toOption := by
  have hhead (c : Char) (hc : c ≠ '\n') : x.head? ≠ some c := fun h => hc (hx c h)
  fun_induction unicodeText steps s generalizing more with
  | case1 => exact Grows.none
  | case2 => exact Grows.none
  | case3 steps rest ih =>
      obtain ⟨more, rfl⟩ := Nat.exists_eq_add_one_of_ne_zero (by omega : more ≠ 0)
      simp only [List.cons_append, unicodeText]
      exact ((ih (by omega)).character _).cons.cons
  | case4 steps rest hrest =>
      obtain ⟨more, rfl⟩ := Nat.exists_eq_add_one_of_ne_zero (by omega : more ≠ 0)
      rw [List.cons_append, unicodeText]
      · exact Grows.some (List.suffix_cons _ _)
      · exact append_ne_cons hrest (hhead _ (by decide))
  | case5 steps rest ih =>
      obtain ⟨more, rfl⟩ := Nat.exists_eq_add_one_of_ne_zero (by omega : more ≠ 0)
      simp only [List.cons_append, unicodeText]
      exact ((ih (by omega)).character _).cons.cons
  | case6 steps rest ih =>
      obtain ⟨more, rfl⟩ := Nat.exists_eq_add_one_of_ne_zero (by omega : more ≠ 0)
      simp only [List.cons_append, unicodeText]
      rw [toOption_bind, toOption_bind]
      refine Grows.cons (Grows.cons ((unicodeCharacter_grows 6 rest x).bind ?_))
      exact fun c left => (ih left (by omega)).character c
  | case7 steps rest hescape hplus ih =>
      obtain ⟨more, rfl⟩ := Nat.exists_eq_add_one_of_ne_zero (by omega : more ≠ 0)
      rw [List.cons_append, unicodeText]
      · rw [toOption_bind, toOption_bind]
        refine Grows.cons ((unicodeCharacter_grows 4 rest x).bind ?_)
        exact fun c left => (ih left (by omega)).character c
      · exact append_ne_cons hescape (hhead _ (by decide))
      · exact append_ne_cons hplus (hhead _ (by decide))
  | case8 steps c rest hquotes hquote hescapes hplus hescape ih =>
      obtain ⟨more, rfl⟩ := Nat.exists_eq_add_one_of_ne_zero (by omega : more ≠ 0)
      rw [List.cons_append, unicodeText]
      · exact ((ih (by omega)).character c).cons
      · exact fun _ h _ => hquote h
      · exact hquote
      · exact fun _ h _ => hescape h
      · exact fun _ h _ => hescape h
      · exact hescape

end SemanticLayer.Sql.LexicalRules
