import SemanticLayer.Proofs.Sql.Quoting
import SemanticLayer.Proofs.Sql.Words
/-!
Words put into a T-SQL text where a token is open: they are taken along with it, and what stands behind them is
read as it would be without them.
-/
namespace SemanticLayer.Sql.LexicalRules

variable {rules : LexicalRules} {e : Ending} {stage : Stage} {previous t : Token} {c : Char}
  {tokens : List Token} {s u x : List Char}

/-! ## Text that closes nothing -/

/-- A character that closes neither a quote, a comment nor a line. -/
def isInert (c : Char) : Bool :=
  !(['\'', '"', ']', '$', '/', '\n', '\\'].contains c)

/-- A text of inert characters that does not end in the middle of a closing mark. -/
def Inert (s : List Char) : Prop :=
  s.all isInert = true ∧ s.getLast? ≠ some '*'

instance (s : List Char) : Decidable (Inert s) :=
  inferInstanceAs (Decidable (_ ∧ _))

theorem isInert_ne {d : Char} (hc : isInert c = true) (hd : isInert d = false) : c ≠ d := by
  rintro rfl
  rw [hc] at hd
  exact absurd hd (by decide)

theorem quoted?_inert {quote : Char} (hs : s.all isInert = true) (hquote : isInert quote = false)
    (x : List Char) : (quoted? quote (s ++ x)).map Prod.snd = (quoted? quote x).map Prod.snd := by
  induction s with
  | nil => rfl
  | cons c s ih =>
      rw [List.all_cons, Bool.and_eq_true] at hs
      rw [List.cons_append, quoted?_cons (isInert_ne hs.1 hquote), Option.map_map]
      exact ih hs.2

theorem quotedWithEscapes?_inert {keeps : Bool} {quote : Char} (hs : s.all isInert = true)
    (hquote : isInert quote = false) (x : List Char) :
    (quotedWithEscapes? keeps quote (s ++ x)).map Prod.snd =
      (quotedWithEscapes? keeps quote x).map Prod.snd := by
  induction s with
  | nil => rfl
  | cons c s ih =>
      rw [List.all_cons, Bool.and_eq_true] at hs
      rw [List.cons_append, quotedWithEscapes?_cons (isInert_ne hs.1 hquote)
        (isInert_ne hs.1 (by decide)), Option.map_map]
      exact ih hs.2

theorem dollarText?_inert (hs : s.all isInert = true) (x : List Char) :
    (dollarText? (s ++ x)).map Prod.snd = (dollarText? x).map Prod.snd := by
  induction s with
  | nil => rfl
  | cons c s ih =>
      rw [List.all_cons, Bool.and_eq_true] at hs
      rw [List.cons_append, dollarText?_cons fun h => absurd h (isInert_ne hs.1 (by decide)),
        Option.map_map]
      exact ih hs.2

theorem taggedText?_inert (tag : List Char) (hs : s.all isInert = true) (x : List Char) :
    (taggedText? ('$' :: tag) (s ++ x)).map Prod.snd = (taggedText? ('$' :: tag) x).map Prod.snd := by
  induction s with
  | nil => rfl
  | cons c s ih =>
      rw [List.all_cons, Bool.and_eq_true] at hs
      have hc : ('$' == c) = false := by simpa using (isInert_ne hs.1 (by decide)).symm
      rw [List.cons_append, taggedText?, List.isPrefixOf, hc, Bool.false_and, if_neg Bool.false_ne_true,
        Option.map_map]
      exact ih hs.2

theorem afterLine_inert (hreturn : rules.returnEndsComment = false) (hs : s.all isInert = true)
    (x : List Char) : afterLine rules (s ++ x) = afterLine rules x := by
  refine afterLine_of_nil ?_ x
  rw [List.dropWhile_eq_nil_iff]
  intro c hc
  simp [hreturn, isInert_ne (List.all_eq_true.1 hs c hc) (show isInert '\n' = false by decide)]

theorem afterComment?_cons {nests : Bool} {depth : Nat} (hslash : c ≠ '/')
    (hstar : c = '*' → x.head? ≠ some '/') :
    afterComment? nests depth (c :: x) = afterComment? nests depth x := by
  cases x with
  | nil => simp [afterComment?]
  | cons d x =>
      have hclose : ¬(c = '*' && d = '/') = true := by
        simpa using hstar
      simp [afterComment?, hslash, hclose]

theorem afterComment?_inert {nests : Bool} {depth : Nat} (hs : Inert s) (x : List Char) :
    afterComment? nests depth (s ++ x) = afterComment? nests depth x := by
  induction s with
  | nil => rfl
  | cons c s ih =>
      obtain ⟨hall, hlast⟩ := hs
      rw [List.all_cons, Bool.and_eq_true] at hall
      cases s with
      | nil =>
          have hstar : c ≠ '*' := by simpa using hlast
          exact afterComment?_cons (isInert_ne hall.1 (by decide)) fun h => absurd h hstar
      | cons d s =>
          have hd : d ≠ '/' := isInert_ne (List.all_eq_true.1 hall.2 d (by simp)) (by decide)
          rw [List.cons_append, afterComment?_cons (isInert_ne hall.1 (by decide)) fun _ => by simpa using hd]
          exact ih ⟨hall.2, by simpa using hlast⟩

/-! ## Inside a token -/

/-- An ending in the middle of a token, which something has to close. -/
def Ending.Deep : Ending → Prop
  | .quoted _ quote => isInert quote = false
  | .escaped _ quote taken => isInert quote = false ∧ taken ≤ 1
  | .dollar | .tagged _ | .comment _ | .line | .stuck => True
  | _ => False

/-- The ending behind a further character, which no escape is open at. -/
def Ending.settle : Ending → Ending
  | .escaped keeps quote _ => .escaped keeps quote 0
  | e => e

theorem Ending.Deep.settle (he : e.Deep) : e.settle.Deep := by
  cases e with
  | escaped keeps quote taken => exact ⟨he.1, Nat.zero_le 1⟩
  | _ => exact he

theorem Ending.Deep.after_nil (he : e.Deep) : e.after rules [] = e.settle.after rules [] := by
  cases e with
  | escaped keeps quote taken => simp [Ending.after, Ending.settle]
  | _ => rfl

/-- Inert characters are taken along. -/
theorem Ending.Deep.after_inert (he : e.Deep) (hs : Inert s) (hempty : s ≠ []) (x : List Char) :
    e.after mssql (s ++ x) = e.settle.after mssql x := by
  cases e with
  | closed token left => exact he.elim
  | carriage => exact he.elim
  | operator => exact he.elim
  | signed sign => exact he.elim
  | stuck => rfl
  | quoted token quote =>
      simp only [Ending.settle, Ending.after, quoted?_inert hs.1 he]
  | escaped keeps quote taken =>
      obtain ⟨c, s, rfl⟩ := List.exists_cons_of_ne_nil hempty
      obtain ⟨hquote, htaken⟩ := he
      have hall := hs.1
      rw [List.all_cons, Bool.and_eq_true] at hall
      simp only [Ending.settle, Ending.after, List.drop_zero]
      rcases Nat.le_one_iff_eq_zero_or_eq_one.1 htaken with rfl | rfl
      · rw [List.drop_zero, quotedWithEscapes?_inert hs.1 hquote]
      · rw [List.cons_append, List.drop_one, List.tail_cons, quotedWithEscapes?_inert hall.2 hquote]
  | dollar => simp only [Ending.settle, Ending.after, dollarText?_inert hs.1]
  | tagged tag =>
      simp only [Ending.settle, Ending.after, List.cons_append, taggedText?_inert _ hs.1]
  | comment depth => simp only [Ending.settle, Ending.after, afterComment?_inert hs]
  | line =>
      have hreturn : mssql.returnEndsComment = false := rfl
      simp only [Ending.settle, Ending.after, afterLine_inert hreturn hs.1]

/-- A text that is empty or begins with a space. -/
def Spaced (x : List Char) : Prop :=
  ∀ c ∈ x.head?, c = ' '

theorem Spaced.cases (hx : Spaced x) : x = [] ∨ ∃ v, x = ' ' :: v := by
  cases x with
  | nil => exact .inl rfl
  | cons c v => exact .inr ⟨v, by rw [hx c rfl]⟩

theorem Spaced.apart (hx : Spaced x) : Apart mssql x := by
  rcases hx.cases with rfl | ⟨v, rfl⟩
  · exact .nil
  · exact apart_space v

theorem Ending.Deep.after_spaced (he : e.Deep) (hx : Spaced x) :
    e.after mssql x = e.settle.after mssql x := by
  rcases hx.cases with rfl | ⟨v, rfl⟩
  · exact he.after_nil
  · have hspace : Inert [' '] := ⟨by decide, by decide⟩
    rw [← List.singleton_append, he.after_inert hspace (by simp),
      he.settle.after_inert hspace (by simp)]
    cases e <;> rfl

/-- Of the other endings a line feed, a name or nothing at all is the matter. -/
theorem Ending.Within.cases (he : e.Within mssql []) (hopen : ∀ token left, e ≠ .closed token left) :
    e.Deep ∨ e = .carriage ∨ ∃ sign ∈ nameSigns, e = .signed sign := by
  cases e with
  | closed token left => exact absurd rfl (hopen token left)
  | operator => exact absurd he (by simp [Ending.Within, mssql])
  | carriage => exact .inr (.inl rfl)
  | signed sign => exact .inr (.inr ⟨sign, he.1, rfl⟩)
  | quoted token quote =>
      have hquote : quote = '\'' ∨ quote = '"' ∨ quote = ']' := by
        simpa [Ending.Within, mssql, closingQuote, or_assoc] using he
      rcases hquote with rfl | rfl | rfl <;> exact .inl rfl
  | escaped keeps quote taken =>
      have hquote : quote = '\'' ∨ quote = '"' := by simpa using he.1
      rcases hquote with rfl | rfl <;> exact .inl ⟨rfl, he.2⟩
  | _ => exact .inl trivial

end SemanticLayer.Sql.LexicalRules
