import SemanticLayer.Proofs.Sql.LineFeeds
/-!
What the first token of a text says about the text: a word without quotes stands there as it is spelled, and a
gap begins with white space or with a sign that opens comments.
-/
namespace SemanticLayer.Sql.LexicalRules

variable {rules : LexicalRules} {previous t : Token} {c : Char} {name : String} {s rest left : List Char}

/-- The characters that gaps begin with. -/
def BeginsGap (c : Char) : Prop :=
  Text.isBlank c = true ∨ c ∈ ['-', '#', '/']

/-- A scan gives a gap only where the text begins as gaps do, and an unquoted word only where the word stands
in front of what is left. -/
structure Told (s : List Char) (t : Token) (left : List Char) : Prop where
  gap : t = .gap → ∃ c ∈ s.head?, BeginsGap c
  word : ∀ name, t = .word name none → s = name.toList ++ left

def Tells (s : List Char) (r : Scan) : Prop :=
  ∀ t left, r = .ok (t, left) → Told s t left

theorem tells_error (stop : LexicalStop) : Tells s (.error stop) := by
  intro t left h
  cases h

theorem tells_token (hgap : t ≠ .gap) (hword : ∀ name, t ≠ .word name none) (left : List Char) :
    Tells s (.ok (t, left)) := by
  intro t' left' h
  cases h
  exact ⟨fun ht => absurd ht hgap, fun name ht => absurd ht (hword name)⟩

theorem tells_gap (hc : BeginsGap c) (left : List Char) : Tells (c :: rest) (.ok (.gap, left)) := by
  intro t left' h
  cases h
  exact ⟨fun _ => ⟨c, rfl, hc⟩, by simp⟩

theorem tells_sign (sign : String) (left : List Char) : Tells s (.ok (.sign sign, left)) :=
  tells_token (by simp) (by simp) left

theorem tells_word (hs : s = rest ++ left) : Tells s (.ok (.word (String.ofList rest) none, left)) := by
  intro t left' h
  cases h
  refine ⟨by simp, fun name ht => ?_⟩
  obtain ⟨rfl, -⟩ := Token.word.inj ht
  rwa [String.toList_ofList]

theorem tells_readWord (start rest : List Char) : Tells (start ++ rest) (rules.readWord start rest) := by
  refine tells_word ?_
  rw [List.append_assoc, List.takeWhile_append_dropWhile]

theorem tells_readText (kind : TextKind) (escapes : Bool) (rest : List Char) :
    Tells s (rules.readText kind escapes rest) := by
  fun_cases readText rules kind escapes rest with
  | case2 => exact tells_token (by simp) (by simp) _
  | _ => exact tells_error _

theorem tells_readQuotedName (rest : List Char) : Tells s (readQuotedName rest) := by
  fun_cases readQuotedName rest with
  | case2 => exact tells_token (by simp) (by simp) _
  | _ => exact tells_error _

theorem tells_readDollar (rest : List Char) : Tells s (readDollar rest) := by
  fun_cases readDollar rest
  all_goals first
    | exact tells_token (by simp) (by simp) _
    | exact tells_error _

/-! ## Numbers -/

theorem tells_finishNumber (number rest : List Char) : Tells s (finishNumber number rest) := by
  fun_cases finishNumber number rest <;> exact tells_token (by simp) (by simp) _

theorem tells_finishDecimal (previous : Token) (number rest : List Char) :
    Tells (number ++ rest) (rules.finishDecimal previous number rest) := by
  have hexponent := List.prefix_iff_eq_append.1 (exponentPart_initial rest)
  fun_cases finishDecimal rules previous number rest with
  | case2 exponent whole rest' _ hempty name hname =>
      refine tells_word ?_
      have hsplit := List.prefix_iff_eq_append.1 (List.takeWhile_prefix rules.isNamePart (l := rest'))
      rw [List.append_assoc, hsplit, List.append_assoc, hexponent]
  | case3 => exact tells_word (by rw [List.append_assoc, hexponent])
  | _ => exact tells_finishNumber _ _

theorem tells_readNumber (previous : Token) (s : List Char) : Tells s (rules.readNumber previous s) := by
  have hdigits (s : List Char) : rules.digits Char.isDigit s ++ s.drop (rules.digits Char.isDigit s).length = s :=
    List.prefix_iff_eq_append.1 (digits_initial Char.isDigit s)
  unfold readNumber
  split
  · split
    · exact tells_sign _ _
    · exact tells_error _
  · dsimp only
    split
    · exact tells_token (by simp) (by simp) _
    · rename_i _ rest hrest
      split
      · exact tells_sign _ _
      · split
        · exact tells_sign _ _
        · have hdecimal := @tells_finishDecimal rules previous
            (rules.digits Char.isDigit s ++ '.' :: rules.digits Char.isDigit rest)
            (rest.drop (rules.digits Char.isDigit rest).length)
          rwa [List.append_assoc, List.cons_append, hdigits rest, ← hrest, hdigits] at hdecimal
    · have hdecimal := @tells_finishDecimal rules previous (rules.digits Char.isDigit s)
        (s.drop (rules.digits Char.isDigit s).length)
      rwa [hdigits] at hdecimal

/-! ## Signs -/

theorem tells_extend (spelled known : String) (rest : List Char) :
    Tells s (rules.extend spelled known rest) := by
  fun_cases extend rules spelled known rest <;> exact tells_sign _ _

theorem tells_extendOrStop (spelled : String) (rest : List Char) :
    Tells s (rules.extendOrStop spelled rest) := by
  fun_cases extendOrStop rules spelled rest
  · exact tells_error _
  · exact tells_sign _ _

theorem tells_signedName (start : Char) (signs rest : List Char) {k : Scan} (hk : Tells (signs ++ rest) k) :
    Tells (signs ++ rest) ((rules.signedName? start signs rest).getD k) := by
  cases rest with
  | nil => exact hk
  | cons c rest =>
      rw [signedName?]
      split
      · have hword := @tells_readWord rules (signs ++ [c]) rest
        rwa [List.append_assoc] at hword
      · exact hk

theorem tells_readHash (rest : List Char) : Tells ('#' :: rest) (rules.readHash rest) := by
  fun_cases readHash rules rest with
  | case4 => exact tells_sign _ _
  | case5 => exact tells_signedName _ ['#'] _ (tells_extend _ _ _)
  | _ => exact tells_extend _ _ _

theorem tells_readAt (rest : List Char) : Tells ('@' :: rest) (rules.readAt rest) := by
  fun_cases readAt rules rest with
  | case4 rest => exact tells_signedName _ ['@', '@'] _ (tells_sign _ _)
  | case7 c rest => exact tells_signedName _ ['@'] _ (tells_sign _ _)
  | _ => exact tells_sign _ _

theorem tells_geometric (s : List Char) {r : Scan} (h : geometric? rules s = some r) : Tells s r := by
  revert h
  fun_cases geometric? rules s
  all_goals
    intro h
    cases h
  all_goals first
    | exact tells_sign _ _
    | exact tells_extend _ _ _
    | exact tells_extendOrStop _ _

theorem tells_readSign (s : List Char) {r : Scan} (h : readSign? rules s = some r) : Tells s r := by
  revert h
  fun_cases readSign? rules s
  all_goals
    intro h
    cases h
  all_goals first
    | exact tells_sign _ _
    | exact tells_extend _ _ _
    | exact tells_readHash _
    | exact tells_readAt _
    | exact tells_token (by simp) (by simp) _

/-! ## Tokens -/

theorem tells_markedText (s : List Char) {r : Scan} (h : markedText? rules s = some r) : Tells s r := by
  have hunicode (rest : List Char) : Tells s (unicodeText rest.length rest >>= fun p =>
      pure (.text .unicode (String.ofList p.1), p.2)) := by
    cases unicodeText rest.length rest with
    | error stop => exact tells_error stop
    | ok p => exact tells_token (by simp) (by simp) _
  revert h
  fun_cases markedText? rules s
  all_goals
    intro h
    cases h
  all_goals first
    | exact tells_readText _ _ _
    | exact hunicode _
    | split
  · exact tells_token (by simp) (by simp) _
  · exact tells_error _

theorem beginsGap_of_lineComment? (h : rules.lineComment? (c :: rest) = some left) : BeginsGap c := by
  right
  revert h
  rw [lineComment?.eq_def]
  split
  · rename_i heq
    obtain ⟨rfl, -⟩ := List.cons.inj heq
    simp
  · rename_i heq
    obtain ⟨rfl, -⟩ := List.cons.inj heq
    simp
  · simp

theorem isBlank_of_isPlainGap (h : isPlainGap c = true) : Text.isBlank c = true := by
  have hc : c = ' ' ∨ c = '\t' ∨ c = '\n' := by simpa [isPlainGap, or_assoc] using h
  rcases hc with rfl | rfl | rfl <;> rfl

/-- Every scan keeps to this. -/
theorem tells_scan (rules : LexicalRules) (previous : Token) (c : Char) (rest : List Char) :
    Tells (c :: rest) (rules.scan previous c rest) := by
  unfold scan
  dsimp only
  -- One case for each branch, in the order in which the scan tries them.
  split
  · rename_i hgap
    exact tells_gap (.inl (isBlank_of_isPlainGap hgap)) _
  split
  · rename_i hreturn
    exact tells_gap (.inl (by rw [hreturn]; decide)) _
  split
  · cases hmark : markedText? rules (c :: rest) with
    | some r => exact tells_markedText _ hmark
    | none => exact tells_readWord [c] rest
  split
  · exact tells_readText _ _ _
  split
  · exact tells_readQuotedName _
  split
  · exact tells_readText _ _ _
  split
  · exact tells_readNumber _ _
  split
  · rename_i hline
    exact tells_gap (beginsGap_of_lineComment? hline) _
  split
  · rename_i hcomment
    have hc : c = '/' := by
      rw [Bool.and_eq_true, decide_eq_true_eq] at hcomment
      exact hcomment.1
    split
    · exact tells_gap (.inr (by simp [hc])) _
    · exact tells_error _
  split
  · rename_i hgeometric
    split at hgeometric
    · exact tells_geometric _ hgeometric
    · simp at hgeometric
  split
  · exact tells_readSign _ ‹_›
  split
  · exact tells_readWord [c] rest
  split
  · exact tells_readDollar _
  split
  · exact tells_gap (.inl ‹_›) _
  · exact tells_sign _ _

end SemanticLayer.Sql.LexicalRules
