import SemanticLayer.Calculation.Token
import SemanticLayer.Proofs.Checks
import SemanticLayer.Proofs.Decimal.Literal
/-!
How the tokens of an arithmetic expression are spelt. A text has at most one list of tokens, and the reader finds it.
-/
namespace SemanticLayer.Calculation

/-- The spelling of a decimal number: digits, with a point among them, before or behind them. -/
inductive Numeral : List Char → Decimal.Literal → Prop
  | whole {ds : List Char} (hne : ds ≠ []) (hds : ∀ c ∈ ds, c.isDigit = true) :
      Numeral ds ⟨Decimal.digitsValue 0 ds, 0⟩
  | pointed {ds fs : List Char} (hne : ds ++ fs ≠ []) (hds : ∀ c ∈ ds, c.isDigit = true)
      (hfs : ∀ c ∈ fs, c.isDigit = true) :
      Numeral (ds ++ '.' :: fs) ⟨Decimal.digitsValue 0 (ds ++ fs), -(fs.length : Int)⟩

/-- The spelling of a list of tokens. Numbers that follow one another are kept apart. -/
inductive Spells : List Char → List Token → Prop
  | nil : Spells [] []
  | blank {c : Char} {s : List Char} {ts : List Token} (hc : Text.isBlank c = true) (h : Spells s ts) :
      Spells (c :: s) ts
  | opening {s : List Char} {ts : List Token} (h : Spells s ts) : Spells ('(' :: s) (.opening :: ts)
  | closing {s : List Char} {ts : List Token} (h : Spells s ts) : Spells (')' :: s) (.closing :: ts)
  | operator {s : List Char} {ts : List Token} (op : Operator) (h : Spells s ts) :
      Spells (op.sign :: s) (.operator op :: ts)
  | «variable» {name s : List Char} {ts : List Token} (hclosed : '\x7d' ∉ name) (hname : Text.trim name ≠ [])
      (h : Spells s ts) :
      Spells ('\x7b' :: (name ++ '\x7d' :: s)) (.variable (String.ofList (Text.trim name)) :: ts)
  | number {literal s : List Char} {ts : List Token} {l : Decimal.Literal} (hl : Numeral literal l)
      (hs : ∀ c ∈ s.head?, isNumberPart c = false) (h : Spells s ts) : Spells (literal ++ s) (.number l.toFloat :: ts)

variable {c : Char} {s literal : List Char} {ts : List Token} {l : Decimal.Literal} {steps : Nat}

/-! ## Characters -/

theorem isNumberPart_iff : isNumberPart c = true ↔ c.isDigit = true ∨ c = '.' := by
  simp [isNumberPart]

theorem isBlank_of_isNumberPart (h : isNumberPart c = true) : Text.isBlank c = false := by
  rcases isNumberPart_iff.1 h with hdigit | rfl
  · exact Text.isBlank_of_isDigit hdigit
  · rfl

theorem ofSign?_eq_some_iff {op : Operator} : Operator.ofSign? c = some op ↔ c = op.sign := by
  constructor
  · intro h
    unfold Operator.ofSign? at h
    split at h <;> cases h <;> rfl
  · rintro rfl
    cases op <;> rfl

theorem exists_span (p : Char → Bool) (s : List Char) : ∃ front behind, s = front ++ behind ∧
    (∀ c ∈ front, p c = true) ∧ ∀ c ∈ behind.head?, p c = false := by
  refine ⟨s.takeWhile p, s.dropWhile p, List.takeWhile_append_dropWhile.symm, ?_, ?_⟩
  · intro c hc
    exact List.mem_takeWhile_imp hc
  · intro c hc
    have hhead := List.head?_dropWhile_not p s
    rw [Option.mem_def.1 hc] at hhead
    exact hhead

/-! ## Numbers -/

theorem Numeral.isNumberPart (h : Numeral literal l) : ∀ c ∈ literal, isNumberPart c = true := by
  intro c hc
  cases h with
  | whole hne hds => exact isNumberPart_iff.2 (.inl (hds c hc))
  | pointed hne hds hfs =>
      rcases List.mem_append.1 hc with hc | hc
      · exact isNumberPart_iff.2 (.inl (hds c hc))
      · rcases List.mem_cons.1 hc with rfl | hc
        · rfl
        · exact isNumberPart_iff.2 (.inl (hfs c hc))

theorem Numeral.ne_nil (h : Numeral literal l) : literal ≠ [] := by
  cases h with
  | whole hne hds => exact hne
  | pointed hne hds hfs => simp

/-- A number without a point has no fraction, and one with it has digits behind it or before it. -/
theorem read?_whole {ds : List Char} (hds : ∀ c ∈ ds, c.isDigit = true) : Decimal.Literal.read? ds =
    if ds = [] then none else some ⟨Decimal.digitsValue 0 ds, 0⟩ := by
  by_cases hne : ds = []
  · simp [hne, Decimal.Literal.read?]
  · have hread := Decimal.read?_whole [] hne hds (by simp)
    rw [List.append_nil] at hread
    rw [hread, if_neg hne]
    rfl

theorem read?_pointed {ds fs : List Char} (behind : List Char) (hds : ∀ c ∈ ds, c.isDigit = true)
    (hfs : ∀ c ∈ fs, c.isDigit = true) (hbehind : ∀ c ∈ behind.head?, c = '.') :
    Decimal.Literal.read? (ds ++ '.' :: (fs ++ behind)) =
      if ds ++ fs = [] ∨ behind ≠ [] then none
      else some ⟨Decimal.digitsValue 0 (ds ++ fs), -(fs.length : Int)⟩ := by
  by_cases hne : ds ++ fs = []
  · obtain ⟨rfl, rfl⟩ := List.append_eq_nil_iff.1 hne
    cases behind with
    | nil => rfl
    | cons c behind =>
        obtain rfl := hbehind c rfl
        rfl
  · rw [Decimal.read?_pointed behind hne hds hfs fun c hc => by rw [hbehind c hc]; rfl]
    cases behind with
    | nil =>
        rw [if_neg (by simp [hne])]
        rfl
    | cons c behind =>
        obtain rfl := hbehind c rfl
        rw [if_pos (by simp)]
        rfl

theorem read?_eq_some_iff (hparts : ∀ c ∈ literal, isNumberPart c = true) :
    Decimal.Literal.read? literal = some l ↔ Numeral literal l := by
  constructor
  · intro h
    obtain ⟨ds, rest, rfl, hds, hrest⟩ := exists_span Char.isDigit literal
    cases rest with
    | nil =>
        rw [List.append_nil] at h ⊢
        rw [read?_whole hds] at h
        split at h
        · simp at h
        · rename_i hne
          cases h
          exact .whole hne hds
    | cons c rest =>
        have hpoint : c = '.' :=
          (isNumberPart_iff.1 (hparts c (by simp))).resolve_left (by simp [hrest c rfl])
        subst hpoint
        obtain ⟨fs, behind, rfl, hfs, hbehind⟩ := exists_span Char.isDigit rest
        rw [read?_pointed _ hds hfs] at h
        · split at h
          · simp at h
          · rename_i hne
            rw [not_or, not_not] at hne
            obtain ⟨hne, rfl⟩ := hne
            cases h
            rw [List.append_nil]
            exact .pointed hne hds hfs
        · intro c hc
          have hmem : c ∈ behind := List.mem_of_mem_head? hc
          exact (isNumberPart_iff.1 (hparts c (by simp [hmem]))).resolve_left (by simp [hbehind c hc])
  · intro h
    cases h with
    | whole hne hds => rw [read?_whole hds, if_neg hne]
    | @pointed ds fs hne hds hfs =>
        have hread := read?_pointed [] hds hfs (by simp)
        rw [List.append_nil, if_neg (by simpa using hne)] at hread
        exact hread

/-! ## Lists of tokens -/

theorem readNumber_eq_ok_iff (hparts : ∀ c ∈ literal, isNumberPart c = true) {token : Token} :
    readNumber literal = .ok token ↔ ∃ l, Numeral literal l ∧ token = .number l.toFloat := by
  unfold readNumber
  cases h : Decimal.Literal.read? literal with
  | none =>
      constructor
      · intro hnone
        simp at hnone
      · rintro ⟨l, hl, -⟩
        rw [(read?_eq_some_iff hparts).2 hl] at h
        simp at h
  | some l =>
      constructor
      · intro hsome
        exact ⟨l, (read?_eq_some_iff hparts).1 h, (Except.ok.inj hsome).symm⟩
      · rintro ⟨l', hl', rfl⟩
        rw [(read?_eq_some_iff hparts).2 hl'] at h
        obtain rfl := Option.some.inj h
        rfl

theorem readVariable_eq_ok_iff {token : Token} {rest : List Char} : readVariable s = .ok (token, rest) ↔
    ∃ name, s = name ++ '\x7d' :: rest ∧ '\x7d' ∉ name ∧ Text.trim name ≠ [] ∧
      token = .variable (String.ofList (Text.trim name)) := by
  constructor
  · intro h
    obtain ⟨name, behind, rfl, hname, hbehind⟩ := exists_span (· != '\x7d') s
    obtain ⟨htake, hdrop⟩ := Decimal.span_append _ hname hbehind
    simp only [readVariable, htake, hdrop] at h
    cases behind with
    | nil => simp at h
    | cons c behind =>
        obtain rfl : c = '\x7d' := by simpa using hbehind c rfl
        dsimp only at h
        split at h
        · simp at h
        · rename_i hne
          obtain ⟨rfl, rfl⟩ := Prod.mk.inj (Except.ok.inj h)
          refine ⟨name, rfl, ?_, by simpa using hne, rfl⟩
          intro hmem
          simpa using hname _ hmem
  · rintro ⟨name, rfl, hopen, hne, rfl⟩
    have hname : ∀ c ∈ name, (c != '\x7d') = true := by
      intro c hc
      rw [bne_iff_ne]
      rintro rfl
      exact hopen hc
    obtain ⟨htake, hdrop⟩ := Decimal.span_append ('\x7d' :: rest) hname (by simp)
    simp [readVariable, htake, hdrop, hne]

theorem length_lt_of_readVariable {token : Token} {rest : List Char} (h : readVariable s = .ok (token, rest)) :
    rest.length < s.length := by
  obtain ⟨name, rfl, -⟩ := readVariable_eq_ok_iff.1 h
  rw [List.length_append, List.length_cons]
  omega

theorem Spells.of_readVariable {token : Token} {rest : List Char} (hread : readVariable s = .ok (token, rest))
    (h : Spells rest ts) : Spells ('\x7b' :: s) (token :: ts) := by
  obtain ⟨name, rfl, hopen, hname, rfl⟩ := readVariable_eq_ok_iff.1 hread
  exact .variable hopen hname h

theorem Spells.of_readNumber {token : Token} (hread : readNumber (s.takeWhile isNumberPart) = .ok token)
    (h : Spells (s.dropWhile isNumberPart) ts) : Spells s (token :: ts) := by
  obtain ⟨literal, behind, rfl, hliteral, hbehind⟩ := exists_span isNumberPart s
  obtain ⟨htake, hdrop⟩ := Decimal.span_append _ hliteral hbehind
  rw [htake] at hread
  rw [hdrop] at h
  obtain ⟨l, hl, rfl⟩ := (readNumber_eq_ok_iff hliteral).1 hread
  exact .number hl hbehind h

/-- The reader finds what a text spells, however many steps it may take. -/
theorem spells_of_tokensFrom (hsteps : s.length ≤ steps) (h : tokensFrom steps s = .ok ts) : Spells s ts := by
  induction steps generalizing s ts with
  | zero =>
      obtain rfl := List.length_eq_zero_iff.1 (Nat.le_zero.1 hsteps)
      obtain rfl := Except.ok.inj h
      exact .nil
  | succ steps ih =>
      cases s with
      | nil =>
          obtain rfl := Except.ok.inj h
          exact .nil
      | cons c rest =>
          have hrest : rest.length ≤ steps := Nat.le_of_succ_le_succ hsteps
          -- the kinds of token in the order in which the reader tries them
          rw [tokensFrom] at h
          split at h
          · rename_i hblank
            exact .blank hblank (ih hrest h)
          split at h
          · rename_i hopening
            obtain rfl := eq_of_beq hopening
            obtain ⟨ts, hts, rfl⟩ := map_eq_ok_iff.1 h
            exact .opening (ih hrest hts)
          split at h
          · rename_i hclosing
            obtain rfl := eq_of_beq hclosing
            obtain ⟨ts, hts, rfl⟩ := map_eq_ok_iff.1 h
            exact .closing (ih hrest hts)
          split at h
          · rename_i hbrace
            obtain rfl := eq_of_beq hbrace
            obtain ⟨⟨token, behind⟩, hread, h⟩ := bind_eq_ok_iff.1 h
            obtain ⟨ts, hts, h⟩ := bind_eq_ok_iff.1 h
            obtain rfl := pure_eq_ok_iff.1 h
            exact .of_readVariable hread (ih (by have := length_lt_of_readVariable hread; omega) hts)
          split at h
          · rename_i hnumber
            obtain ⟨token, hread, h⟩ := bind_eq_ok_iff.1 h
            obtain ⟨ts, hts, h⟩ := bind_eq_ok_iff.1 h
            obtain rfl := pure_eq_ok_iff.1 h
            refine .of_readNumber hread (ih ?_ hts)
            rw [List.dropWhile_cons_of_pos hnumber]
            exact (List.dropWhile_suffix _).length_le.trans hrest
          split at h
          · rename_i op hsign
            obtain rfl := ofSign?_eq_some_iff.1 hsign
            obtain ⟨ts, hts, rfl⟩ := map_eq_ok_iff.1 h
            exact .operator op (ih hrest hts)
          · simp at h

theorem exists_steps (h : (c :: s).length ≤ steps) : ∃ left, steps = left + 1 ∧ s.length ≤ left := by
  rw [List.length_cons] at h
  exact ⟨steps - 1, by omega, by omega⟩

theorem Spells.tokensFrom (h : Spells s ts) (hsteps : s.length ≤ steps) : tokensFrom steps s = .ok ts := by
  induction h generalizing steps with
  | nil => cases steps <;> rfl
  | blank hc h ih =>
      obtain ⟨steps, rfl, hleft⟩ := exists_steps hsteps
      rw [Calculation.tokensFrom, if_pos hc]
      exact ih hleft
  | opening h ih =>
      obtain ⟨steps, rfl, hleft⟩ := exists_steps hsteps
      simp [Calculation.tokensFrom, Text.isBlank, Except.map, ih hleft]
  | closing h ih =>
      obtain ⟨steps, rfl, hleft⟩ := exists_steps hsteps
      simp [Calculation.tokensFrom, Text.isBlank, Except.map, ih hleft]
  | operator op h ih =>
      obtain ⟨steps, rfl, hleft⟩ := exists_steps hsteps
      cases op <;>
        simp [Calculation.tokensFrom, Operator.sign, Operator.ofSign?, isNumberPart, Text.isBlank, Except.map, ih hleft]
  | @«variable» name s ts hclosed hname h ih =>
      obtain ⟨steps, rfl, hleft⟩ := exists_steps hsteps
      have hread : readVariable (name ++ '\x7d' :: s) = .ok (.variable (String.ofList (Text.trim name)), s) :=
        readVariable_eq_ok_iff.2 ⟨name, rfl, hclosed, hname, rfl⟩
      have hrest : Calculation.tokensFrom steps s = .ok ts := by
        apply ih
        simp only [List.length_cons, List.length_append] at hleft
        omega
      simp [Calculation.tokensFrom, Text.isBlank, hread, hrest]
  | @number literal s ts l hl hs h ih =>
      obtain ⟨htake, hdrop⟩ := Decimal.span_append _ hl.isNumberPart hs
      obtain ⟨c, rest, heq⟩ := List.exists_cons_of_ne_nil hl.ne_nil
      have hc : Calculation.isNumberPart c = true := hl.isNumberPart c (by simp [heq])
      have hread := (readNumber_eq_ok_iff hl.isNumberPart).2 ⟨l, hl, rfl⟩
      -- no other kind of token begins with a part of a number
      have hother : (c == '(') = false ∧ (c == ')') = false ∧ (c == '\x7b') = false := by
        refine ⟨?_, ?_, ?_⟩ <;>
          · rw [beq_eq_false_iff_ne]
            rintro rfl
            exact absurd hc (by decide)
      rw [heq, List.cons_append] at htake hdrop hsteps ⊢
      obtain ⟨steps, rfl, hleft⟩ := exists_steps hsteps
      have hrest : Calculation.tokensFrom steps s = .ok ts := by
        apply ih
        rw [List.length_append] at hleft
        omega
      simp [Calculation.tokensFrom, isBlank_of_isNumberPart hc, hother, hc, htake, hdrop, ← heq, hread, hrest]

theorem tokensFrom_eq_ok_iff : tokensFrom s.length s = .ok ts ↔ Spells s ts :=
  ⟨spells_of_tokensFrom (Nat.le_refl _), fun h => h.tokensFrom (Nat.le_refl _)⟩

theorem Spells.unique {us : List Token} (h : Spells s ts) (h' : Spells s us) : ts = us :=
  Except.ok.inj ((tokensFrom_eq_ok_iff.2 h).symm.trans (tokensFrom_eq_ok_iff.2 h'))

/-- A text that has tokens spells them, and they are not none. -/
theorem tokens_eq_ok_iff : tokens s = .ok ts ↔ Spells s ts ∧ ts ≠ [] := by
  unfold tokens
  rw [bind_eq_ok_iff]
  constructor
  · rintro ⟨us, hus, h⟩
    split at h
    · simp at h
    · rename_i hne
      obtain rfl := pure_eq_ok_iff.1 h
      exact ⟨tokensFrom_eq_ok_iff.1 hus, by simpa using hne⟩
  · rintro ⟨h, hne⟩
    refine ⟨ts, tokensFrom_eq_ok_iff.2 h, ?_⟩
    rw [if_neg (by simpa using hne)]
    rfl

end SemanticLayer.Calculation
