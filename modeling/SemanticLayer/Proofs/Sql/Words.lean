import Mathlib
import SemanticLayer.Proofs.Sql.Reading
/-!
Reading plain words, numbers and parentheses, of which what stands around a statement is made.
-/
namespace SemanticLayer.Sql.LexicalRules

variable {db : Database} {previous : Token} {c : Char} {s rest x : List Char} {tokens : List Token}

/-! ## What may stand behind a token -/

theorem apart_newline (db : Database) (x : List Char) : Apart (ofDatabase db) ('\n' :: x) where
  head := by simp
  part := by cases db <;> simp <;> decide
  operator := by cases db <;> simp <;> decide
  quote := by cases db <;> simp [ofDatabase, postgresql, mssql, mysql, closingQuote]
  line := by simp

theorem apart_space (x : List Char) : Apart mssql (' ' :: x) where
  head := by simp
  part := by simp; decide
  operator := by simp; decide
  quote := by simp [mssql, closingQuote]
  line := by simp [mssql]

theorem apart_parenthesis (x : List Char) : Apart mssql (')' :: x) where
  head := by simp
  part := by simp; decide
  operator := by simp; decide
  quote := by simp [mssql, closingQuote]
  line := by simp [mssql]

/-! ## Gaps and signs -/

variable {rules : LexicalRules}

theorem scan_of_isPlainGap (hc : isPlainGap c = true) : rules.scan previous c x = .ok (.gap, x) := by
  rw [scan, if_pos hc]

theorem reads_plainGap (hc : isPlainGap c = true) :
    Reads rules previous (c :: x) tokens ↔ ∃ more, Reads rules .gap x more ∧ tokens = .gap :: more := by
  have hscan : outline (rules.scan previous c x) = some (.gap, x) := by
    rw [scan_of_isPlainGap hc]
    rfl
  rw [reads_cons_iff, hscan]
  simp

/-- The signs that stand around a derived table. -/
theorem scan_of_mem_signs (hc : c ∈ ['(', ')', '*']) :
    (ofDatabase db).scan previous c x = .ok (.sign (String.singleton c), x) := by
  simp only [List.mem_cons, List.not_mem_nil, or_false] at hc
  rcases hc with rfl | rfl | rfl <;> cases db <;> rfl

theorem reads_sign (hc : c ∈ ['(', ')', '*']) :
    Reads (ofDatabase db) previous (c :: x) tokens ↔
      ∃ more, Reads (ofDatabase db) (.sign (String.singleton c)) x more ∧
        tokens = .sign (String.singleton c) :: more := by
  have hscan : outline ((ofDatabase db).scan previous c x) = some (.sign (String.singleton c), x) := by
    rw [scan_of_mem_signs hc]
    rfl
  rw [reads_cons_iff, hscan]
  simp

/-! ## Words -/

/-- The characters of the plain words. -/
def isPlain (c : Char) : Bool :=
  c.isAlpha || c == '_'

theorem isPlain_ne {d : Char} (hc : isPlain c = true) (hd : isPlain d = false) : c ≠ d := by
  rintro rfl
  rw [hc] at hd
  exact absurd hd (by decide)

theorem isAlphabetic_of_isAlpha (hc : c.isAlpha = true) : Text.isAlphabetic c = true := by
  have hascii : c.toNat < 0x80 := by
    simp only [Char.isAlpha, Char.isUpper, Char.isLower, Bool.or_eq_true, Bool.and_eq_true,
      decide_eq_true_eq, ge_iff_le, UInt32.le_iff_toNat_le] at hc
    change c.val.toNat < 0x80
    rcases hc with ⟨-, hc⟩ | ⟨-, hc⟩
    · exact lt_of_le_of_lt hc (by decide)
    · exact lt_of_le_of_lt hc (by decide)
  rw [Text.isAlphabetic, if_pos hascii, hc]

theorem isPlain_of_isDigit (hc : c.isDigit = true) : isPlain c = false := by
  rw [Bool.eq_false_iff]
  intro hplain
  simp only [isPlain, Char.isAlpha, Char.isUpper, Char.isLower, Char.isDigit, Bool.or_eq_true,
    Bool.and_eq_true, decide_eq_true_eq, beq_iff_eq, ge_iff_le, UInt32.le_iff_toNat_le] at hc hplain
  obtain ⟨-, hc⟩ := hc
  change c.val.toNat ≤ 57 at hc
  rcases hplain with (⟨hplain, -⟩ | ⟨hplain, -⟩) | rfl
  · change 65 ≤ c.val.toNat at hplain
    omega
  · change 97 ≤ c.val.toNat at hplain
    omega
  · exact absurd hc (by decide)

theorem isNamePart_of_isPlain (hc : isPlain c = true) : (ofDatabase db).isNamePart c = true := by
  rcases Bool.or_eq_true_iff.1 hc with hc | hc
  · cases db <;> simp [ofDatabase, postgresql, mssql, mysql, isAlphabetic_of_isAlpha hc]
  · cases db <;> simp [ofDatabase, postgresql, mssql, mysql, hc]

theorem isNameStart_of_isPlain (hc : isPlain c = true) : (ofDatabase db).isNameStart c = true := by
  rcases Bool.or_eq_true_iff.1 hc with hc | hc
  · cases db <;> simp [ofDatabase, postgresql, mssql, mysql, isAlphabetic_of_isAlpha hc]
  · cases db <;> simp [ofDatabase, postgresql, mssql, mysql, hc]

theorem markedText?_eq_none (hrest : ∀ d ∈ rest.head?, d ∉ ['\'', '"', '&']) :
    markedText? rules (c :: rest) = none := by
  have hne {d : Char} (hd : d ∈ ['\'', '"', '&']) (a : Char) (v : List Char) :
      c :: rest = a :: d :: v → False := by
    rintro h
    obtain ⟨rfl, rfl⟩ := List.cons.inj h
    exact hrest d rfl hd
  rw [markedText?]
  · exact hne (by simp)
  · exact hne (by simp)
  · exact fun a v => hne (by simp) a ('\'' :: v)

theorem readSign?_eq_none (hc : isPlain c = true) : readSign? rules (c :: rest) = none := by
  rw [readSign?]
  all_goals
    rintro v ⟨⟩
    exact absurd hc (by decide)

theorem geometric?_eq_none (hc : isPlain c = true) : geometric? rules (c :: rest) = none := by
  rw [geometric?]
  all_goals
    rintro v ⟨⟩
    exact absurd hc (by decide)

theorem lineComment?_eq_none (hc : isPlain c = true) : lineComment? rules (c :: rest) = none := by
  rw [lineComment?]
  all_goals
    rintro v ⟨⟩
    exact absurd hc (by decide)

theorem scan_of_isPlain (hc : isPlain c = true) (hrest : ∀ d ∈ rest.head?, d ∉ ['\'', '"', '&']) :
    (ofDatabase db).scan previous c rest = readWord (ofDatabase db) [c] rest := by
  have hne (d : Char) (hd : isPlain d = false) : c ≠ d := isPlain_ne hc hd
  have hgap : ¬isPlainGap c = true := by
    simp [isPlainGap, hne ' ' (by decide), hne '\t' (by decide), hne '\n' (by decide)]
  have hdigit : ¬(c.isDigit || c = '.') = true := by
    rintro h
    rcases Bool.or_eq_true_iff.1 h with h | h
    · exact absurd hc (by simp [isPlain_of_isDigit h])
    · exact hne '.' (by decide) (of_decide_eq_true h)
  have hquotes : ¬(ofDatabase db).nameQuotes.contains c = true := by
    cases db <;> simp [ofDatabase, postgresql, mssql, mysql, hne '"' (by decide), hne '[' (by decide),
      hne '\x60' (by decide)]
  rw [scan, if_neg hgap, if_neg (hne '\r' (by decide)), markedText?_eq_none hrest, Option.getD_none,
    if_neg (hne '\'' (by decide)), if_neg hquotes, if_neg (hne '"' (by decide)), if_neg hdigit,
    lineComment?_eq_none hc]
  split
  · rfl
  · simp [hne '/' (by decide), geometric?_eq_none hc, readSign?_eq_none hc, isNameStart_of_isPlain hc]

theorem scan_word {w : String} {s : List Char} (hs : w.toList = c :: s)
    (hplain : w.toList.all isPlain = true) (hx : ∀ d ∈ x.head?, d ∈ [' ', ')', '\n']) :
    (ofDatabase db).scan previous c (s ++ x) = .ok (.word w none, x) := by
  rw [hs, List.all_cons, Bool.and_eq_true] at hplain
  obtain ⟨hc, hplain⟩ := hplain
  have hpart : ∀ d ∈ s, (ofDatabase db).isNamePart d = true := fun d hd =>
    isNamePart_of_isPlain (List.all_eq_true.1 hplain d hd)
  have hapart : ∀ d ∈ x.head?, (ofDatabase db).isNamePart d = false := by
    intro d hd
    have hhead := hx d hd
    simp only [List.mem_cons, List.not_mem_nil, or_false] at hhead
    rcases hhead with rfl | rfl | rfl <;> cases db <;> decide
  have hrest : ∀ d ∈ (s ++ x).head?, d ∉ ['\'', '"', '&'] := by
    intro d hd hmem
    cases s with
    | nil =>
        have hhead := hx d hd
        simp only [List.mem_cons, List.not_mem_nil, or_false] at hmem hhead
        rcases hmem with rfl | rfl | rfl <;> simp at hhead
    | cons e s =>
        obtain rfl : e = d := by simpa using hd
        have hd' := List.all_eq_true.1 hplain e (by simp)
        simp only [List.mem_cons, List.not_mem_nil, or_false] at hmem
        rcases hmem with rfl | rfl | rfl <;> exact absurd hd' (by decide)
  rw [scan_of_isPlain hc hrest, readWord_append hapart, List.takeWhile_eq_self_iff.2 hpart,
    List.dropWhile_eq_nil_iff.2 hpart, List.singleton_append, ← hs, String.ofList_toList,
    List.nil_append]

/-- A plain word is its own shape. -/
theorem shape_word {w : String} (hw : w.toList ≠ []) (hplain : w.toList.all isPlain = true) :
    Token.shape (.word w none) = .word w none := by
  obtain ⟨c, s, hs⟩ := List.exists_cons_of_ne_nil hw
  rw [hs, List.all_cons, Bool.and_eq_true] at hplain
  rw [Token.shape, if_neg]
  rw [hs, List.head?_cons]
  simpa using ⟨isPlain_ne hplain.1 (by decide), isPlain_ne hplain.1 (by decide)⟩

/-- A plain word is read up to its end. -/
theorem reads_word (w : String) (hw : w.toList ≠ []) (hplain : w.toList.all isPlain = true)
    (hx : ∀ d ∈ x.head?, d ∈ [' ', ')', '\n']) :
    Reads (ofDatabase db) previous (w.toList ++ x) tokens ↔
      ∃ more, Reads (ofDatabase db) (.word w none) x more ∧ tokens = .word w none :: more := by
  obtain ⟨c, s, hs⟩ := List.exists_cons_of_ne_nil hw
  have hscan : outline ((ofDatabase db).scan previous c (s ++ x)) = some (.word w none, x) := by
    rw [scan_word hs hplain hx, outline, Except.toOption, Option.map_some, shape_word hw hplain]
  rw [hs, List.cons_append, reads_cons_iff, hscan]
  simp

/-! ## Numbers -/

theorem digits_of_all (hs : ∀ d ∈ s, d.isDigit = true) : rules.digits Char.isDigit s = s := by
  induction s with
  | nil => rfl
  | cons c s ih =>
      rw [digits_cons, if_pos (by simp [hs c (by simp)]), ih fun d hd => hs d (by simp [hd])]

theorem readNumber_of_all (hs : ∀ d ∈ s, d.isDigit = true) (hempty : s ≠ [])
    (hx : Apart rules x) :
    rules.readNumber previous (s ++ x) = .ok (.number (String.ofList s) false, x) := by
  have hdigits : rules.digits Char.isDigit (s ++ x) = s := by
    rw [hx.digits, digits_of_all hs]
  obtain ⟨c, v, rfl⟩ := List.exists_cons_of_ne_nil hempty
  have hc : c ≠ '.' := by
    rintro rfl
    exact absurd (hs '.' (by simp)) (by decide)
  have hexponent : exponentPart x = [] := by
    have h := exponentPart_append hx []
    rwa [List.nil_append] at h
  have hname : (x.takeWhile rules.isNamePart).isEmpty = true := by
    have h := takeWhile_append_apart hx.part []
    rw [List.nil_append] at h
    rw [h]
    rfl
  have hfinish (number : List Char) : finishNumber number x =
      .ok (.number (String.ofList number) false, x) := finishNumber_of_ne number (hx.ne (by decide))
  rw [readNumber_whole, hdigits, List.drop_left, finishDecimal]
  · simp [hexponent, hname, hfinish]
  · simpa using hc
  · intro hzero
    rw [hdigits] at hzero
    obtain ⟨-, rfl⟩ := List.cons.inj hzero
    exact hx.ne (by decide)
  · rw [hdigits, List.drop_left]
    exact hx.ne (by decide)

theorem scan_of_isDigit (hc : c.isDigit = true) :
    (ofDatabase db).scan previous c rest = (ofDatabase db).readNumber previous (c :: rest) := by
  have hne (d : Char) (hd : d.isDigit = false) : c ≠ d := by
    rintro rfl
    rw [hc] at hd
    exact absurd hd (by decide)
  have hgap : ¬isPlainGap c = true := by
    simp [isPlainGap, hne ' ' (by decide), hne '\t' (by decide), hne '\n' (by decide)]
  have hmark : ¬isMarkLetter (ofDatabase db) c = true := by
    simp [isMarkLetter, hne 'N' (by decide), hne 'n' (by decide), hne 'X' (by decide),
      hne 'x' (by decide), hne 'B' (by decide), hne 'b' (by decide), hne 'E' (by decide),
      hne 'e' (by decide), hne 'U' (by decide), hne 'u' (by decide)]
  have hquotes : ¬(ofDatabase db).nameQuotes.contains c = true := by
    cases db <;> simp [ofDatabase, postgresql, mssql, mysql, hne '"' (by decide), hne '[' (by decide),
      hne '\x60' (by decide)]
  rw [scan, if_neg hgap, if_neg (hne '\r' (by decide)), if_neg hmark, if_neg (hne '\'' (by decide)),
    if_neg hquotes, if_neg (hne '"' (by decide)), if_pos (by simp [hc])]

theorem isDigit_of_mem_number {n : Nat} (hc : c ∈ (toString n).toList) : c.isDigit = true := by
  rw [Nat.toString_eq_ofList_toDigits, String.toList_ofList] at hc
  exact Nat.isDigit_of_mem_toDigits (by decide) (by decide) hc

theorem number_ne_nil (n : Nat) : (toString n).toList ≠ [] := by
  rw [Nat.toString_eq_ofList_toDigits, String.toList_ofList]
  exact Nat.toDigits_ne_nil

theorem scan_number {n : Nat} {s : List Char} (hs : (toString n).toList = c :: s)
    (hx : Apart (ofDatabase db) x) :
    (ofDatabase db).scan previous c (s ++ x) = .ok (.number (toString n) false, x) := by
  have hdigits : ∀ d ∈ (toString n).toList, d.isDigit = true := fun d hd => isDigit_of_mem_number hd
  have hc : c.isDigit = true := hdigits c (hs ▸ List.mem_cons_self)
  rw [scan_of_isDigit hc, ← List.cons_append, ← hs, readNumber_of_all hdigits (number_ne_nil n) hx,
    String.ofList_toList]

/-- A number in digits is read up to its end. -/
theorem reads_number (n : Nat) (hx : Apart (ofDatabase db) x) :
    Reads (ofDatabase db) previous ((toString n).toList ++ x) tokens ↔
      ∃ more, Reads (ofDatabase db) (.number (toString n) false) x more ∧
        tokens = .number (toString n) false :: more := by
  obtain ⟨c, s, hs⟩ := List.exists_cons_of_ne_nil (number_ne_nil n)
  have hscan : outline ((ofDatabase db).scan previous c (s ++ x)) =
      some (.number (toString n) false, x) := by
    rw [scan_number hs hx]
    rfl
  rw [hs, List.cons_append, reads_cons_iff, hscan]
  simp

/-! ## Texts that are complete -/

/-- A text whose tokens are complete, whatever stands in front and behind. -/
def Spells (rules : LexicalRules) (front : List Char) (tokens : List Token) (last : Token) : Prop :=
  ∀ previous x m, Reads rules previous (front ++ x) m ↔
    ∃ more, Reads rules last x more ∧ m = tokens ++ more

theorem Spells.append {front front' : List Char} {tokens' : List Token} {last last' : Token}
    (h : Spells rules front tokens last) (h' : Spells rules front' tokens' last') :
    Spells rules (front ++ front') (tokens ++ tokens') last' := by
  intro previous x m
  rw [List.append_assoc, h]
  constructor
  · rintro ⟨more, hmore, rfl⟩
    obtain ⟨more', hmore', rfl⟩ := (h' _ _ _).1 hmore
    exact ⟨more', hmore', (List.append_assoc _ _ _).symm⟩
  · rintro ⟨more', hmore', rfl⟩
    exact ⟨tokens' ++ more', (h' _ _ _).2 ⟨more', hmore', rfl⟩, List.append_assoc _ _ _⟩

theorem spells_plainGap (hc : isPlainGap c = true) : Spells rules [c] [.gap] .gap :=
  fun _ _ _ => reads_plainGap hc

theorem spells_sign (hc : c ∈ ['(', ')', '*']) :
    Spells (ofDatabase db) [c] [.sign (String.singleton c)] (.sign (String.singleton c)) :=
  fun _ _ _ => reads_sign hc

theorem spells_word (w : String) (hw : w.toList ≠ []) (hplain : w.toList.all isPlain = true) :
    Spells (ofDatabase db) (w.toList ++ [' ']) [.word w none, .gap] .gap := by
  intro previous x m
  rw [List.append_assoc, reads_word w hw hplain (by simp)]
  simp [reads_plainGap, isPlainGap]

theorem spells_number (n : Nat) :
    Spells (ofDatabase .mssql) ((toString n).toList ++ [' ']) [.number (toString n) false, .gap]
      .gap := by
  intro previous x m
  have hx : Apart (ofDatabase .mssql) ([' '] ++ x) := apart_space x
  rw [List.append_assoc, reads_number n hx]
  simp [reads_plainGap, isPlainGap]

/-- The same of the tokens themselves, insides and all. -/
def FallsInto (rules : LexicalRules) (front : List Char) (tokens : List Token) (last : Token) : Prop :=
  ∀ previous x more, Lexes rules last x more → Lexes rules previous (front ++ x) (tokens ++ more)

theorem FallsInto.append {front front' : List Char} {tokens' : List Token} {last last' : Token}
    (h : FallsInto rules front tokens last) (h' : FallsInto rules front' tokens' last') :
    FallsInto rules (front ++ front') (tokens ++ tokens') last' := by
  intro previous x more hmore
  rw [List.append_assoc, List.append_assoc]
  exact h _ _ _ (h' _ _ _ hmore)

theorem fallsInto_plainGap (hc : isPlainGap c = true) : FallsInto rules [c] [.gap] .gap :=
  fun _ _ _ hmore => .cons (scan_of_isPlainGap hc) hmore

theorem fallsInto_sign (hc : c ∈ ['(', ')', '*']) :
    FallsInto (ofDatabase db) [c] [.sign (String.singleton c)] (.sign (String.singleton c)) :=
  fun _ _ _ hmore => .cons (scan_of_mem_signs hc) hmore

theorem fallsInto_word (w : String) (hw : w.toList ≠ []) (hplain : w.toList.all isPlain = true) :
    FallsInto (ofDatabase db) (w.toList ++ [' ']) [.word w none, .gap] .gap := by
  intro previous x more hmore
  obtain ⟨c, s, hs⟩ := List.exists_cons_of_ne_nil hw
  have hword : (ofDatabase db).scan previous c (s ++ ' ' :: x) = .ok (.word w none, ' ' :: x) :=
    scan_word hs hplain (by simp)
  rw [List.append_assoc, hs]
  exact .cons hword (.cons (scan_of_isPlainGap rfl) hmore)

theorem lexes_number (n : Nat) :
    Lexes (ofDatabase db) previous (toString n).toList [.number (toString n) false] := by
  obtain ⟨c, s, hs⟩ := List.exists_cons_of_ne_nil (number_ne_nil n)
  have hnumber := @scan_number db previous c [] n s hs .nil
  rw [List.append_nil] at hnumber
  rw [hs]
  exact .cons hnumber .nil

end SemanticLayer.Sql.LexicalRules
