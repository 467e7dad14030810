import SemanticLayer.Calculation.Parser
import SemanticLayer.Proofs.Calculation.Spelling
/-!
The grammar of arithmetic expressions, with the trees that its derivations stand for, and how deep parentheses and minus
signs are nested in them. A text is read exactly if its tokens have a derivation that is not nested too deeply, and the
tree is the only one that they have.
-/
namespace SemanticLayer.Calculation

inductive Level where
  | sum
  | product
  | unary
  | primary
  deriving DecidableEq, Repr

/-- The tokens of a part, its tree, and the most parentheses and minus signs that stand around any point of it. -/
inductive Derives : Level → Nat → List Token → Expression → Prop
  | product {depth : Nat} {ts : List Token} {e : Expression} (h : Derives .product depth ts e) :
      Derives .sum depth ts e
  | added {depth depth' : Nat} {ts us : List Token} {left right : Expression} {op : Operator}
      (hop : op = .add ∨ op = .subtract) (hleft : Derives .sum depth ts left)
      (hright : Derives .product depth' us right) :
      Derives .sum (max depth depth') (ts ++ .operator op :: us) (.binary op left right)
  | unary {depth : Nat} {ts : List Token} {e : Expression} (h : Derives .unary depth ts e) :
      Derives .product depth ts e
  | multiplied {depth depth' : Nat} {ts us : List Token} {left right : Expression} {op : Operator}
      (hop : op = .multiply ∨ op = .divide ∨ op = .remainder) (hleft : Derives .product depth ts left)
      (hright : Derives .unary depth' us right) :
      Derives .product (max depth depth') (ts ++ .operator op :: us) (.binary op left right)
  | primary {depth : Nat} {ts : List Token} {e : Expression} (h : Derives .primary depth ts e) :
      Derives .unary depth ts e
  | negated {depth : Nat} {ts : List Token} {e : Expression} (h : Derives .unary depth ts e) :
      Derives .unary (depth + 1) (.operator .subtract :: ts) (.negate e)
  | number (value : Float) : Derives .primary 0 [.number value] (.number value)
  | «variable» (name : String) : Derives .primary 0 [.variable name] (.variable name)
  | nested {depth : Nat} {ts : List Token} {e : Expression} (h : Derives .sum depth ts e) :
      Derives .primary (depth + 1) (.opening :: (ts ++ [.closing])) e

variable {level : Level} {depth bound steps : Nat} {ts us rest : List Token} {e left right : Expression}
  {op : Operator} {operand : Reader} {joins : Operator → Bool} {inner : Inner}

theorem isAdditive_iff : isAdditive op = true ↔ op = .add ∨ op = .subtract := by
  cases op <;> decide

theorem isAdditive_eq_false_iff : (!isAdditive op) = true ↔ op = .multiply ∨ op = .divide ∨ op = .remainder := by
  cases op <;> decide

theorem Derives.ne_nil (h : Derives level depth ts e) : ts ≠ [] := by
  induction h with
  | product h ih => exact ih
  | unary h ih => exact ih
  | primary h ih => exact ih
  | _ => simp

def Token.operator? : Token → Option Operator
  | operator op => some op
  | _ => none

/-! ## What is read has a derivation -/

/-- What a reader takes from the front of a list is derived, and nested at most as deep as given. -/
def Reads (level : Level) (bound : Nat) (reader : Reader) : Prop :=
  ∀ ts e rest, reader ts = .ok (e, rest) → ∃ used depth, ts = used ++ rest ∧ depth < bound ∧ Derives level depth used e

theorem Reads.length_lt (h : Reads level bound operand) (hok : operand ts = .ok (e, rest)) :
    rest.length < ts.length := by
  obtain ⟨used, depth, rfl, -, hused⟩ := h ts e rest hok
  have hpos := List.length_pos_iff.2 hused.ne_nil
  rw [List.length_append]
  omega

/-- Whether a chain of operands cannot go on with a list. -/
def Stops (joins : Operator → Bool) (ts : List Token) : Prop :=
  ∀ op ∈ (ts.head?.bind Token.operator?), joins op = false

theorem chain_of_stops (h : Stops joins ts) (left : Expression) :
    chain operand joins steps left ts = .ok (left, ts) := by
  cases steps with
  | zero => rfl
  | succ steps =>
      cases ts with
      | nil => rfl
      | cons t ts =>
          cases t with
          | operator op => rw [chain, if_neg (by simp [h op rfl])]
          | _ => rfl

theorem chain_cons (h : joins op = true) (left : Expression) :
    chain operand joins (steps + 1) left (.operator op :: ts) =
      (do let (right, rest) ← operand ts; chain operand joins steps (.binary op left right) rest) := by
  rw [chain, if_pos h]

theorem stops_or (joins : Operator → Bool) (ts : List Token) :
    Stops joins ts ∨ ∃ op more, ts = .operator op :: more ∧ joins op = true := by
  cases ts with
  | nil => exact .inl (by simp [Stops])
  | cons t ts =>
      cases t with
      | operator op =>
          cases h : joins op with
          | true => exact .inr ⟨op, ts, rfl, h⟩
          | false => exact .inl (by simp [Stops, Token.operator?, h])
      | _ => exact .inl (by simp [Stops, Token.operator?])

/-- Operands that are joined to what has been read make one part with it. -/
theorem reads_chain {outer : Level} (hoperand : Reads level bound operand)
    (hjoin : ∀ op depth depth' ts us left right, joins op = true → Derives outer depth ts left →
      Derives level depth' us right →
      Derives outer (max depth depth') (ts ++ .operator op :: us) (.binary op left right))
    {before : List Token} (hdepth : depth < bound) (hleft : Derives outer depth before left)
    (h : chain operand joins steps left ts = .ok (e, rest)) :
    ∃ used depth, ts = used ++ rest ∧ depth < bound ∧ Derives outer depth (before ++ used) e := by
  induction steps generalizing depth ts left before with
  | zero =>
      obtain ⟨rfl, rfl⟩ := Prod.mk.inj (Except.ok.inj h)
      exact ⟨[], depth, rfl, hdepth, by simpa using hleft⟩
  | succ steps ih =>
      rcases stops_or joins ts with hstops | ⟨op, more, rfl, hjoins⟩
      · rw [chain_of_stops hstops] at h
        obtain ⟨rfl, rfl⟩ := Prod.mk.inj (Except.ok.inj h)
        exact ⟨[], depth, rfl, hdepth, by simpa using hleft⟩
      · rw [chain_cons hjoins] at h
        obtain ⟨⟨right, behind⟩, hright, hbehind⟩ := bind_eq_ok_iff.1 h
        obtain ⟨used, depth', rfl, hdepth', hused⟩ := hoperand _ _ _ hright
        obtain ⟨more, depth'', rfl, hdepth'', hmore⟩ :=
          ih (max_lt hdepth hdepth') (hjoin _ _ _ _ _ _ _ hjoins hleft hused) hbehind
        exact ⟨.operator op :: (used ++ more), depth'', by simp, hdepth'', by simpa using hmore⟩

theorem reads_primary (h : Reads .sum bound inner.expression) : Reads .primary (bound + 1) (primary inner) := by
  intro ts e rest hok
  cases ts with
  | nil => simp [Calculation.primary] at hok
  | cons t ts =>
      cases t with
      | number value =>
          obtain ⟨rfl, rfl⟩ := Prod.mk.inj (Except.ok.inj hok)
          exact ⟨[.number value], 0, rfl, Nat.succ_pos _, .number value⟩
      | «variable» name =>
          obtain ⟨rfl, rfl⟩ := Prod.mk.inj (Except.ok.inj hok)
          exact ⟨[.variable name], 0, rfl, Nat.succ_pos _, .variable name⟩
      | opening =>
          obtain ⟨⟨inside, behind⟩, hinside, hclosing⟩ := bind_eq_ok_iff.1 hok
          obtain ⟨used, depth, rfl, hdepth, hused⟩ := h _ _ _ hinside
          dsimp only at hclosing
          split at hclosing
          · obtain ⟨rfl, rfl⟩ := Prod.mk.inj (pure_eq_ok_iff.1 hclosing)
            exact ⟨.opening :: (used ++ [.closing]), depth + 1, by simp, Nat.succ_lt_succ hdepth, .nested hused⟩
          · simp at hclosing
          · simp at hclosing
      | operator op => simp [Calculation.primary] at hok
      | closing => simp [Calculation.primary] at hok

theorem unary_of_ne (h : ts.head? ≠ some (.operator .subtract)) : Calculation.unary inner ts = primary inner ts := by
  unfold Calculation.unary
  split
  · simp at h
  · rfl

theorem reads_unary (h : Reads .sum bound inner.expression) (h' : Reads .unary bound inner.unary) :
    Reads .unary (bound + 1) (Calculation.unary inner) := by
  intro ts e rest hok
  by_cases hminus : ts.head? = some (.operator .subtract)
  · obtain ⟨ts, rfl⟩ := List.head?_eq_some_iff.1 hminus
    obtain ⟨⟨inside, behind⟩, hinside, hnegated⟩ := bind_eq_ok_iff.1 hok
    obtain ⟨used, depth, rfl, hdepth, hused⟩ := h' _ _ _ hinside
    obtain ⟨rfl, rfl⟩ := Prod.mk.inj (pure_eq_ok_iff.1 hnegated)
    exact ⟨.operator .subtract :: used, depth + 1, rfl, Nat.succ_lt_succ hdepth, .negated hused⟩
  · rw [unary_of_ne hminus] at hok
    obtain ⟨used, depth, rfl, hdepth, hused⟩ := reads_primary h _ _ _ hok
    exact ⟨used, depth, rfl, hdepth, .primary hused⟩

theorem reads_term (h : Reads .unary bound (Calculation.unary inner)) : Reads .product bound (term inner) := by
  intro ts e rest hok
  obtain ⟨⟨left, behind⟩, hleft, hchain⟩ := bind_eq_ok_iff.1 hok
  obtain ⟨first, depth, rfl, hdepth, hfirst⟩ := h _ _ _ hleft
  obtain ⟨more, depth', rfl, hdepth', hmore⟩ := reads_chain h
    (fun op _ _ _ _ _ _ hop hleft hright => .multiplied (isAdditive_eq_false_iff.1 hop) hleft hright)
    hdepth (.unary hfirst) hchain
  exact ⟨first ++ more, depth', by simp, hdepth', hmore⟩

theorem reads_sum (h : Reads .product bound (term inner)) : Reads .sum bound (Calculation.sum inner) := by
  intro ts e rest hok
  obtain ⟨⟨left, behind⟩, hleft, hchain⟩ := bind_eq_ok_iff.1 hok
  obtain ⟨first, depth, rfl, hdepth, hfirst⟩ := h _ _ _ hleft
  obtain ⟨more, depth', rfl, hdepth', hmore⟩ := reads_chain h
    (fun op _ _ _ _ _ _ hop hleft hright => .added (isAdditive_iff.1 hop) hleft hright)
    hdepth (.product hfirst) hchain
  exact ⟨first ++ more, depth', by simp, hdepth', hmore⟩

/-- Readers with levels left to nest read what is nested at most as deep. -/
theorem reads_ofDepth (bound : Nat) : Reads .unary (bound + 1) (Calculation.unary (.ofDepth bound)) ∧
    Reads .product (bound + 1) (term (.ofDepth bound)) ∧ Reads .sum (bound + 1) (Calculation.sum (.ofDepth bound)) := by
  have hinner : Reads .sum bound (Inner.ofDepth bound).expression ∧ Reads .unary bound (Inner.ofDepth bound).unary := by
    induction bound with
    | zero =>
        constructor
        · intro ts e rest hok
          simp [Inner.ofDepth] at hok
        · intro ts e rest hok
          simp [Inner.ofDepth] at hok
    | succ bound ih =>
        have hunary := reads_unary ih.1 ih.2
        exact ⟨reads_sum (reads_term hunary), hunary⟩
  have hunary := reads_unary hinner.1 hinner.2
  exact ⟨hunary, reads_term hunary, reads_sum (reads_term hunary)⟩

/-! ## What has a derivation is read -/

/-- A chain ends by itself: every operand takes tokens away. -/
theorem chain_steps {steps' : Nat} (hoperand : Reads level bound operand) (h : ts.length ≤ steps)
    (h' : ts.length ≤ steps') :
    chain operand joins steps left ts = chain operand joins steps' left ts := by
  induction steps generalizing steps' left ts with
  | zero =>
      obtain rfl := List.length_eq_zero_iff.1 (Nat.le_zero.1 h)
      cases steps' <;> rfl
  | succ steps ih =>
      rcases stops_or joins ts with hstops | ⟨op, more, rfl, hjoins⟩
      · rw [chain_of_stops hstops, chain_of_stops hstops]
      · cases steps' with
        | zero => simp at h'
        | succ steps' =>
            rw [chain_cons hjoins, chain_cons hjoins]
            cases hread : operand more with
            | error stop => rfl
            | ok result =>
                have hlength := hoperand.length_lt hread
                rw [List.length_cons] at h h'
                exact ih (by omega) (by omega)

/-- What the reader of a part makes of its tokens, whatever stands behind them. -/
def Level.Finds (inner : Inner) : Level → List Token → Expression → Prop
  | sum, ts, e => ∀ rest, Stops (fun op => !isAdditive op) rest →
      Calculation.sum inner (ts ++ rest) = chain (term inner) isAdditive rest.length e rest
  | product, ts, e => ∀ rest,
      term inner (ts ++ rest) = chain (Calculation.unary inner) (fun op => !isAdditive op) rest.length e rest
  | unary, ts, e => ∀ rest, Calculation.unary inner (ts ++ rest) = .ok (e, rest)
  | primary, ts, e => ∀ rest, Calculation.primary inner (ts ++ rest) = .ok (e, rest)

theorem Derives.head_ne (h : Derives .primary depth ts e) (rest : List Token) :
    (ts ++ rest).head? ≠ some (.operator .subtract) := by
  cases h <;> simp

theorem Derives.finds (h : Derives level depth ts e) (hdepth : depth ≤ bound) : level.Finds (.ofDepth bound) ts e := by
  -- only a sum asks what stands behind it: a term leaves the operators behind it to its chain
  induction h generalizing bound with
  | product h ih =>
      intro rest hstops
      rw [Calculation.sum, ih hdepth rest, chain_of_stops hstops]
      rfl
  | @added depth depth' ts us left right op hop hleft hright ihleft ihright =>
      intro rest hstops
      obtain ⟨hunary, hterm, -⟩ := reads_ofDepth bound
      have hopen : Stops (fun op => !isAdditive op) (.operator op :: (us ++ rest)) := by
        simp [Stops, Token.operator?, isAdditive_iff.2 hop]
      have hread : term (.ofDepth bound) (us ++ rest) = .ok (right, rest) := by
        rw [ihright (Nat.max_le.1 hdepth).2 rest, chain_of_stops hstops]
      rw [List.append_assoc, List.cons_append, ihleft (Nat.max_le.1 hdepth).1 _ hopen, List.length_cons,
        chain_cons (isAdditive_iff.2 hop), hread]
      exact chain_steps hterm (by simp) (Nat.le_refl _)
  | unary h ih =>
      intro rest
      rw [term, ih hdepth rest]
      rfl
  | @multiplied depth depth' ts us left right op hop hleft hright ihleft ihright =>
      intro rest
      obtain ⟨hunary, -, -⟩ := reads_ofDepth bound
      have hread := ihright (Nat.max_le.1 hdepth).2 rest
      rw [List.append_assoc, List.cons_append, ihleft (Nat.max_le.1 hdepth).1, List.length_cons,
        chain_cons (isAdditive_eq_false_iff.2 hop), hread]
      exact chain_steps hunary (by simp) (Nat.le_refl _)
  | primary h ih =>
      intro rest
      rw [unary_of_ne (h.head_ne rest)]
      exact ih hdepth rest
  | @negated depth ts e h ih =>
      intro rest
      cases bound with
      | zero => simp at hdepth
      | succ bound =>
          have hread := ih (Nat.le_of_succ_le_succ hdepth) rest
          change Calculation.unary (.ofDepth bound) (ts ++ rest) >>= _ = _
          rw [hread]
          rfl
  | number value => exact fun rest => rfl
  | «variable» name => exact fun rest => rfl
  | @nested depth ts e h ih =>
      intro rest
      cases bound with
      | zero => simp at hdepth
      | succ bound =>
          have hread := ih (Nat.le_of_succ_le_succ hdepth) (.closing :: rest) (by simp [Stops, Token.operator?])
          rw [chain_of_stops (by simp [Stops, Token.operator?])] at hread
          rw [List.cons_append, List.append_assoc]
          change Calculation.sum (.ofDepth bound) (ts ++ (.closing :: rest)) >>= _ = _
          rw [hread]
          rfl

theorem sum_eq_ok_iff : Calculation.sum (.ofDepth bound) ts = .ok (e, []) ↔
    ∃ depth ≤ bound, Derives .sum depth ts e := by
  constructor
  · intro hok
    obtain ⟨used, depth, rfl, hdepth, hused⟩ := (reads_ofDepth bound).2.2 _ _ _ hok
    exact ⟨depth, Nat.le_of_lt_succ hdepth, by simpa using hused⟩
  · rintro ⟨depth, hdepth, h⟩
    have hread := h.finds hdepth [] (by simp [Stops])
    rw [List.append_nil, chain_of_stops (by simp [Stops])] at hread
    exact hread

theorem Derives.unique {depth' : Nat} {e' : Expression} (h : Derives .sum depth ts e) (h' : Derives .sum depth' ts e') :
    e = e' := by
  have hread := sum_eq_ok_iff.2 ⟨depth, Nat.le_max_left depth depth', h⟩
  have hread' := sum_eq_ok_iff.2 ⟨depth', Nat.le_max_right depth depth', h'⟩
  exact (Prod.mk.inj (Except.ok.inj (hread.symm.trans hread'))).1

/-! ## Texts -/

theorem parse_eq_ok {text : String} : parse text = .ok e ↔
    ∃ ts, Spells text.toList ts ∧ Calculation.sum (.ofDepth maxDepth) ts = .ok (e, []) := by
  unfold parse
  rw [bind_eq_ok_iff]
  constructor
  · rintro ⟨ts, hts, h⟩
    have hspells : Spells text.toList ts := by
      cases htokens : tokens text.toList with
      | error failure => simp [htokens, Except.mapError] at hts
      | ok us =>
          rw [htokens] at hts
          obtain rfl := Except.ok.inj hts
          exact (tokens_eq_ok_iff.1 htokens).1
    refine ⟨ts, hspells, ?_⟩
    split at h
    · rename_i e' hread
      obtain rfl := pure_eq_ok_iff.1 h
      exact hread
    all_goals simp at h
  · rintro ⟨ts, hspells, hread⟩
    have hne : ts ≠ [] := by
      rintro rfl
      simp [Calculation.sum, term, Calculation.unary, Calculation.primary] at hread
    refine ⟨ts, ?_, ?_⟩
    · rw [tokens_eq_ok_iff.2 ⟨hspells, hne⟩]
      rfl
    · rw [hread]
      rfl

/-- A text is an expression exactly if its tokens have a derivation with at most 64 parentheses and minus signs around
any point. Text, tokens and tree belong together in one way only. The loops of the readers end by themselves, since
each round takes tokens away. -/
theorem parse_eq_ok_iff :
    (∀ (text : String) (e : Expression), parse text = .ok e ↔
      ∃ ts, Spells text.toList ts ∧ ∃ depth ≤ 64, Derives .sum depth ts e) ∧
      (∀ (s : List Char) (ts us : List Token), Spells s ts → Spells s us → ts = us) ∧
      (∀ (ts : List Token) (depth depth' : Nat) (e e' : Expression),
        Derives .sum depth ts e → Derives .sum depth' ts e' → e = e') ∧
      (∀ (bound : Nat) (ts : List Token) (e : Expression) (rest : List Token),
        term (.ofDepth bound) ts = .ok (e, rest) ∨ unary (.ofDepth bound) ts = .ok (e, rest) →
          rest.length < ts.length) ∧
      ∀ (bound steps : Nat) (left : Expression) (ts : List Token), ts.length ≤ steps →
        chain (term (.ofDepth bound)) isAdditive steps left ts =
          chain (term (.ofDepth bound)) isAdditive ts.length left ts ∧
        chain (unary (.ofDepth bound)) (fun op => !isAdditive op) steps left ts =
          chain (unary (.ofDepth bound)) (fun op => !isAdditive op) ts.length left ts := by
  refine ⟨fun text e => ?_, fun s ts us h h' => h.unique h', fun ts depth depth' e e' h h' => h.unique h', ?_, ?_⟩
  · rw [parse_eq_ok]
    simp only [sum_eq_ok_iff, maxDepth]
  · intro bound ts e rest hok
    obtain ⟨hunary, hterm, -⟩ := reads_ofDepth bound
    rcases hok with hok | hok
    · exact hterm.length_lt hok
    · exact hunary.length_lt hok
  · intro bound steps left ts hsteps
    obtain ⟨hunary, hterm, -⟩ := reads_ofDepth bound
    exact ⟨chain_steps hterm hsteps (Nat.le_refl _), chain_steps hunary hsteps (Nat.le_refl _)⟩

/-- Operators of one strength are taken from the left, and a minus sign belongs to the number behind it. -/
theorem parse_eq_ok_iff_differences :
    let tree : Expression :=
      .binary .subtract (.binary .subtract (.variable "a") (.negate (.variable "b"))) (.variable "c")
    let ts : List Token := [.variable "a", .operator .subtract, .operator .subtract, .variable "b",
      .operator .subtract, .variable "c"]
    Spells "\x7ba\x7d - -\x7b b \x7d-\x7bc\x7d".toList ts ∧ (∃ depth ≤ 64, Derives .sum depth ts tree) ∧
      (∀ depth e, Derives .sum depth ts e → e = tree) ∧
      chain (term (.ofDepth 64)) isAdditive 100 (.variable "a") ts.tail =
        chain (term (.ofDepth 64)) isAdditive 5 (.variable "a") ts.tail := by
  intro tree ts
  have hparse : parse "\x7ba\x7d - -\x7b b \x7d-\x7bc\x7d" = .ok tree := by rfl
  have hspells : Spells "\x7ba\x7d - -\x7b b \x7d-\x7bc\x7d".toList ts := tokensFrom_eq_ok_iff.1 (by rfl)
  obtain ⟨us, hus, depth, hdepth, htree⟩ := (parse_eq_ok_iff.1 _ _).1 hparse
  obtain rfl := parse_eq_ok_iff.2.1 _ _ _ hus hspells
  refine ⟨hspells, ⟨depth, hdepth, htree⟩, ?_, ?_⟩
  · intro depth' e h
    exact parse_eq_ok_iff.2.2.1 _ _ _ _ _ h htree
  · exact (parse_eq_ok_iff.2.2.2.2 64 100 (.variable "a") ts.tail (by decide)).1

end SemanticLayer.Calculation
