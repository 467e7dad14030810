import SemanticLayer.Proofs.Sql.Readers
/-!
What the last token of a text makes of a text behind it. Most tokens end where they end; a quoted one may be
open, and takes from the text behind up to its quote.
-/
namespace SemanticLayer.Sql

/-- The token without its inside, where a text behind may become part of that: literals, quoted names and
names that begin with a sign. -/
def Token.shape : Token → Token
  | .word name none =>
      if name.toList.head? = some '@' ∨ name.toList.head? = some '#' then .word "" none
      else .word name none
  | .word _ (some _) => .word "" (some '"')
  | .text _ _ => .text .plain ""
  | token => token

namespace LexicalRules

variable {rules : LexicalRules} {s u rest left x : List Char}

/-- What is left of the shape and the rest that a scan gives. -/
def outline (r : Scan) : Option (Token × List Char) :=
  r.toOption.map fun p => (p.1.shape, p.2)

/-- A text that is empty or begins with a character that no token goes on with. -/
structure Apart (rules : LexicalRules) (x : List Char) : Prop where
  head : ∀ d ∈ x.head?, d ∈ [' ', ')', '\n']
  part : ∀ d ∈ x.head?, rules.isNamePart d = false
  operator : ∀ d ∈ x.head?, rules.isOperatorPart d = false
  quote : ∀ q ∈ rules.nameQuotes, x.head? ≠ some (closingQuote q)
  line : rules.markedTexts = true ∨ rules.spacedComments = true → ∀ d ∈ x.head?, d = '\n'

theorem Apart.ne (hx : Apart rules x) {c : Char} (hc : c ∉ [' ', ')', '\n']) : x.head? ≠ some c :=
  fun h => hc (hx.head c h)

theorem Apart.lacks (hx : Apart rules x) {p : Char → Bool}
    (hp : [' ', ')', '\n'].any p = false) : ∀ d ∈ x.head?, p d = false :=
  fun d hd => by simpa using List.any_eq_false.1 hp d (hx.head d hd)

theorem Apart.nil : Apart rules [] where
  head := by simp
  part := by simp
  operator := by simp
  quote := by simp
  line := by simp

/-! ## Endings -/

/-- The signs that a name may begin with. -/
def nameSigns : List String :=
  ["#", "@", "@@"]

/-- A sign that makes a name of what is behind. -/
def BeginsName (rules : LexicalRules) (sign : String) : Prop :=
  sign ∈ nameSigns ∧ sign.toList.head?.any rules.isNameStart = true

instance (rules : LexicalRules) (sign : String) : Decidable (rules.BeginsName sign) :=
  inferInstanceAs (Decidable (_ ∧ _))

/-- How the first token of a text ends, where the text may go on. -/
inductive Ending where
  /-- Inside the text. -/
  | closed (token : Token) (left : List Char)
  /-- Nowhere: the text is at fault. -/
  | stuck
  | quoted (token : Token) (quote : Char)
  /-- In a text with escapes, the last of which may be open. -/
  | escaped (keepsWildcards : Bool) (quote : Char) (taken : Nat)
  | dollar
  | tagged (tag : List Char)
  | comment (depth : Nat)
  | line
  /-- With a carriage return, which a line feed behind belongs to. -/
  | carriage
  /-- With an operator, which the character behind it belongs to. -/
  | operator
  /-- With a sign that makes a name of what is behind, unless a space is. -/
  | signed (sign : String)

/-- The token and the rest, where `x` stands behind the text. -/
def Ending.after (rules : LexicalRules) : Ending → List Char → Option (Token × List Char)
  | closed token left, x => some (token, left ++ x)
  | stuck, _ => none
  | quoted token quote, x => ((quoted? quote x).map Prod.snd).map (Prod.mk token)
  | escaped keeps quote taken, x =>
      ((quotedWithEscapes? keeps quote (x.drop taken)).map Prod.snd).map (Prod.mk (.text .plain ""))
  | dollar, x => ((dollarText? x).map Prod.snd).map (Prod.mk (.text .plain ""))
  | tagged tag, x =>
      ((taggedText? ('$' :: tag ++ ['$']) x).map Prod.snd).map (Prod.mk (.text .plain ""))
  | comment depth, x => (afterComment? rules.nestedComments depth x).map (Prod.mk .gap)
  | line, x => some (.gap, afterLine rules x)
  | carriage, x => some (.gap, if x.head? = some '\n' then x.drop 1 else x)
  | operator, x => some (.sign "&>", x.drop 1)
  | signed sign, x =>
      match x with
      | [] => some (.sign sign, [])
      | c :: rest =>
          if c = ' ' then some (.sign sign, c :: rest)
          else some (.word "" none, rest.dropWhile rules.isNamePart)

/-- An ending that a text with `u` behind its first character can have. -/
def Ending.Within (rules : LexicalRules) (u : List Char) : Ending → Prop
  | closed _ left => left.length ≤ u.length
  | quoted _ quote => quote ∈ ['\'', '"'] ∨ quote ∈ rules.nameQuotes.map closingQuote
  | escaped _ quote taken => quote ∈ ['\'', '"'] ∧ taken ≤ 1
  | operator => rules.geometricOperators = true
  | signed sign => rules.BeginsName sign
  | _ => True

/-- No token is open at the end of a text that it ends in. -/
def Ending.Open (e : Ending) : Prop :=
  ∀ token left, e ≠ .closed token left

/-- A reader that takes the same from the front of `s`, whatever stands behind. -/
def Steady (rules : LexicalRules) (s : List Char) (f : List Char → Scan) : Prop :=
  ∃ token left, left.length ≤ s.length ∧ ∀ x, Apart rules x → f x = .ok (token, left ++ x)

theorem Steady.ok (token : Token) (left : List Char) (hleft : left.length ≤ s.length) :
    Steady rules s fun x => .ok (token, left ++ x) :=
  ⟨token, left, hleft, fun _ _ => rfl⟩

theorem Steady.congr {f g : List Char → Scan} (hg : Steady rules s g)
    (hf : ∀ x, Apart rules x → f x = g x) : Steady rules s f := by
  obtain ⟨token, left, hleft, hg⟩ := hg
  exact ⟨token, left, hleft, fun x hx => (hf x hx).trans (hg x hx)⟩

theorem Steady.mono {f : List Char → Scan} {t : List Char} (hf : Steady rules s f)
    (hs : s.length ≤ t.length) : Steady rules t f := by
  obtain ⟨token, left, hleft, hf⟩ := hf
  exact ⟨token, left, by omega, hf⟩

/-- A reader of the texts that begin with the same token and go on with any other: it takes the same
from all of them, or the token is open where they part. -/
def Ends (rules : LexicalRules) (u : List Char) (f : List Char → Scan) : Prop :=
  Steady rules u f ∨
    ∃ e : Ending, e.Within rules u ∧ e.Open ∧ ∀ x, Apart rules x → outline (f x) = e.after rules x

theorem Steady.ends {f : List Char → Scan} (hf : Steady rules s f) (hu : s.length ≤ u.length) :
    Ends rules u f :=
  .inl (hf.mono hu)

theorem Ends.steady {f : List Char → Scan} (token : Token) (left : List Char)
    (hleft : left.length ≤ u.length) (hf : ∀ x, Apart rules x → f x = .ok (token, left ++ x)) :
    Ends rules u f :=
  .inl ⟨token, left, hleft, hf⟩

theorem Ends.opens {f : List Char → Scan} (e : Ending) (hwithin : e.Within rules u) (hopen : e.Open)
    (hf : ∀ x, Apart rules x → outline (f x) = e.after rules x) : Ends rules u f :=
  .inr ⟨e, hwithin, hopen, hf⟩

theorem Ends.ok (token : Token) (left : List Char) (hleft : left.length ≤ u.length) :
    Ends rules u fun x => .ok (token, left ++ x) :=
  .inl (.ok token left hleft)

theorem Ends.mono {f : List Char → Scan} (hf : Ends rules s f) (hs : s.length ≤ u.length) :
    Ends rules u f := by
  rcases hf with hf | ⟨e, hwithin, hopen, hf⟩
  · exact hf.ends hs
  · refine .inr ⟨e, ?_, hopen, hf⟩
    cases e with
    | closed token left => exact absurd rfl (hopen token left)
    | _ => exact hwithin

theorem Ends.congr {f g : List Char → Scan} (hg : Ends rules u g)
    (hf : ∀ x, Apart rules x → f x = g x) : Ends rules u f := by
  rcases hg with hg | ⟨e, hwithin, hopen, hg⟩
  · exact .inl (hg.congr hf)
  · exact .inr ⟨e, hwithin, hopen, fun x hx => by rw [hf x hx, hg x hx]⟩

/-- How the token ends, insides aside. -/
theorem Ends.exists_ending {f : List Char → Scan} (hf : Ends rules u f) :
    ∃ e : Ending, e.Within rules u ∧ ∀ x, Apart rules x → outline (f x) = e.after rules x := by
  rcases hf with ⟨token, left, hleft, hf⟩ | ⟨e, hwithin, -, hf⟩
  · refine ⟨.closed token.shape left, hleft, fun x hx => ?_⟩
    rw [hf x hx]
    rfl
  · exact ⟨e, hwithin, hf⟩

/-- A reader that may have nothing to give, and then leaves the text to another. -/
def Offers (rules : LexicalRules) (u : List Char) (g : List Char → Option Scan) : Prop :=
  (∀ x, Apart rules x → g x = none) ∨
    ∃ f : List Char → Scan, (∀ x, Apart rules x → g x = some (f x)) ∧ Ends rules u f

theorem drop_append_initial {p : List Char} (hp : p <+: s) (x : List Char) :
    (s ++ x).drop p.length = s.drop p.length ++ x :=
  List.drop_append_of_le_length hp.length_le

/-! ## Quotes and dollar signs -/

theorem readText_ends {kind : TextKind} {escapes : Bool} {quote : Char}
    (hquote : quote ∈ ['\'', '"']) (u : List Char) :
    Ends rules u fun x => rules.readText kind escapes (quote :: (u ++ x)) := by
  have hne : quote ∉ [' ', ')', '\n'] := by
    simp only [List.mem_cons, List.not_mem_nil, or_false] at hquote
    rcases hquote with rfl | rfl <;> decide
  cases escapes with
  | true =>
      cases h : quotedWithEscapes? rules.backslashEscapes quote u with
      | none =>
          obtain ⟨taken, htaken, hopen⟩ := quotedWithEscapes?_open h
          refine .opens (.escaped rules.backslashEscapes quote taken) ⟨hquote, htaken⟩
            (by simp [Ending.Open]) fun x _ => ?_
          rw [Ending.after, ← hopen x, readText, if_pos rfl]
          cases quotedWithEscapes? rules.backslashEscapes quote (u ++ x) <;> rfl
      | some p =>
          have hleft := (quotedWithEscapes?_grows (x := []) (by simp) u p.1 p.2 h).1.length_le
          refine .steady (.text kind (String.ofList p.1)) p.2 hleft fun x hx => ?_
          rw [readText, if_pos rfl, (quotedWithEscapes?_grows (hx.ne hne) u p.1 p.2 h).2]
  | false =>
      cases h : quoted? quote u with
      | none =>
          refine .opens (.quoted (.text .plain "") quote) (.inl hquote) (by simp [Ending.Open])
            fun x _ => ?_
          rw [Ending.after, ← quoted?_open h x, readText, if_neg Bool.false_ne_true]
          cases quoted? quote (u ++ x) <;> rfl
      | some p =>
          have hleft := (quoted?_grows (x := []) (by simp) u p.1 p.2 h).1.length_le
          refine .steady (.text kind (String.ofList p.1)) p.2 hleft fun x hx => ?_
          rw [readText, if_neg Bool.false_ne_true, (quoted?_grows (hx.ne hne) u p.1 p.2 h).2]

theorem readQuotedName_ends {c : Char} (hc : c ∈ rules.nameQuotes) (u : List Char) :
    Ends rules u fun x => readQuotedName (c :: (u ++ x)) := by
  cases h : quoted? (closingQuote c) u with
  | none =>
      refine .opens (.quoted (.word "" (some '"')) (closingQuote c)) (.inr (List.mem_map_of_mem hc))
        (by simp [Ending.Open]) fun x _ => ?_
      rw [Ending.after, ← quoted?_open h x, readQuotedName]
      cases quoted? (closingQuote c) (u ++ x) <;> rfl
  | some p =>
      have hleft := (quoted?_grows (x := []) (by simp) u p.1 p.2 h).1.length_le
      refine .steady (.word (String.ofList p.1) (some c)) p.2 hleft fun x hx => ?_
      rw [readQuotedName, (quoted?_grows (hx.quote c hc) u p.1 p.2 h).2]

theorem readDollar_tagged (hs : s.head? ≠ some '$') (hrest : s.dropWhile isTagPart = '$' :: rest) :
    readDollar s =
      match taggedText? ('$' :: s.takeWhile isTagPart ++ ['$']) rest with
      | some (value, rest) =>
        .ok (.text (.dollar (String.ofList (s.takeWhile isTagPart))) (String.ofList value), rest)
      | none => .error ⟨.openTaggedText, []⟩ := by
  have hne : ∀ v, s = '$' :: v → False := by
    rintro v rfl
    exact hs rfl
  rw [readDollar]
  · rw [hrest]
    rfl
  · exact hne

theorem readDollar_placeholder (hs : s.head? ≠ some '$')
    (hrest : (s.dropWhile isTagPart).head? ≠ some '$') :
    readDollar s =
      .ok (.placeholder (String.ofList ('$' :: s.takeWhile isTagPart)), s.dropWhile isTagPart) := by
  have hne : ∀ v, s = '$' :: v → False := by
    rintro v rfl
    exact hs rfl
  rw [readDollar]
  · split
    · rename_i hv
      exact absurd (by rw [hv]; rfl) hrest
    · rfl
  · exact hne

theorem head?_append_ne {c : Char} (hs : s.head? ≠ some c) (hx : x.head? ≠ some c) :
    (s ++ x).head? ≠ some c := by
  cases s with
  | nil => exact hx
  | cons d s => exact hs

theorem readDollar_doubled_ends (v : List Char) : Ends rules ('$' :: v) fun x => readDollar ('$' :: v ++ x) := by
  have hdollar : '$' ∉ [' ', ')', '\n'] := by decide
  cases h : dollarText? v with
  | none =>
      refine .opens .dollar trivial (by simp [Ending.Open]) fun x hx => ?_
      rw [Ending.after, ← dollarText?_open h (hx.ne hdollar), List.cons_append, readDollar]
      cases dollarText? (v ++ x) <;> rfl
  | some p =>
      have hleft := (dollarText?_grows (x := []) (by simp) v p.1 p.2 h).1.length_le
      refine .steady (.text (.dollar "") (String.ofList p.1)) p.2 (by simp; omega) fun x hx => ?_
      rw [List.cons_append, readDollar, (dollarText?_grows (hx.ne hdollar) v p.1 p.2 h).2]

theorem Apart.tagPart (hx : Apart rules x) : ∀ d ∈ x.head?, isTagPart d = false :=
  hx.lacks (by decide)

/-- The mark that closes a text with a tag has no character that a token can follow with. -/
theorem Apart.closingMark (hx : Apart rules x) (s : List Char) :
    ∀ d ∈ x.head?, d ∉ '$' :: s.takeWhile isTagPart ++ ['$'] := by
  intro d hd hmem
  have htag : d ∉ s.takeWhile isTagPart := by
    intro hmem
    have htrue := List.all_eq_true.1 List.all_takeWhile d hmem
    rw [hx.tagPart d hd] at htrue
    exact absurd htrue (by simp)
  have hd' : d ≠ '$' := fun h => hx.ne (c := '$') (by decide) (h ▸ hd)
  simp [hd', htag] at hmem

theorem readDollar_tagged_ends (hs : s.head? ≠ some '$') (hrest : s.dropWhile isTagPart = '$' :: rest) :
    Ends rules s fun x => readDollar (s ++ x) := by
  have hlength : ('$' :: rest).length ≤ s.length := hrest ▸ (List.dropWhile_suffix _).length_le
  have hbehind (x : List Char) (hx : Apart rules x) : (s ++ x).dropWhile isTagPart = '$' :: (rest ++ x) := by
    rw [dropWhile_append_apart hx.tagPart, hrest]
    rfl
  have hread (x : List Char) (hx : Apart rules x) :=
    readDollar_tagged (head?_append_ne hs (hx.ne (by decide))) (hbehind x hx)
  cases h : taggedText? ('$' :: s.takeWhile isTagPart ++ ['$']) rest with
  | none =>
      refine .opens (.tagged (s.takeWhile isTagPart)) trivial (by simp [Ending.Open]) fun x hx => ?_
      rw [Ending.after, ← taggedText?_open h (hx.closingMark s), hread x hx, takeWhile_append_apart hx.tagPart]
      cases taggedText? ('$' :: s.takeWhile isTagPart ++ ['$']) (rest ++ x) <;> rfl
  | some p =>
      have hgrows (x : List Char) (hx : Apart rules x) :=
        taggedText?_grows (by simp) (hx.closingMark s) rest p.1 p.2 h
      have hleft := (hgrows [] .nil).1.length_le
      rw [List.length_cons] at hlength
      refine .steady (.text (.dollar (String.ofList (s.takeWhile isTagPart))) (String.ofList p.1)) p.2
        (by omega) fun x hx => ?_
      rw [hread x hx, takeWhile_append_apart hx.tagPart, (hgrows x hx).2]

theorem readDollar_placeholder_ends (hs : s.head? ≠ some '$') (hrest : (s.dropWhile isTagPart).head? ≠ some '$') :
    Ends rules s fun x => readDollar (s ++ x) := by
  refine .steady (.placeholder (String.ofList ('$' :: s.takeWhile isTagPart)))
    (s.dropWhile isTagPart) (List.dropWhile_suffix _).length_le fun x hx => ?_
  have hrest' : ((s ++ x).dropWhile isTagPart).head? ≠ some '$' := by
    rw [dropWhile_append_apart hx.tagPart]
    exact head?_append_ne hrest (hx.ne (by decide))
  rw [readDollar_placeholder (head?_append_ne hs (hx.ne (by decide))) hrest',
    takeWhile_append_apart hx.tagPart, dropWhile_append_apart hx.tagPart]

theorem readDollar_ends (u : List Char) : Ends rules u fun x => readDollar (u ++ x) := by
  by_cases hu : u.head? = some '$'
  · obtain ⟨v, rfl⟩ := List.head?_eq_some_iff.1 hu
    exact readDollar_doubled_ends v
  · by_cases hrest : (u.dropWhile isTagPart).head? = some '$'
    · obtain ⟨v, hv⟩ := List.head?_eq_some_iff.1 hrest
      exact readDollar_tagged_ends hu hv
    · exact readDollar_placeholder_ends hu hrest

/-! ## Comments -/

theorem afterLine_of_some {d : Char} (h : (u.dropWhile fun c =>
    !(c == '\n' || (rules.returnEndsComment && c == '\r'))) = d :: rest) (x : List Char) :
    afterLine rules (u ++ x) = rest ++ x := by
  unfold afterLine
  rw [List.dropWhile_append, h]
  rfl

theorem afterLine_of_nil (h : (u.dropWhile fun c =>
    !(c == '\n' || (rules.returnEndsComment && c == '\r'))) = []) (x : List Char) :
    afterLine rules (u ++ x) = afterLine rules x := by
  unfold afterLine
  rw [List.dropWhile_append, h]
  rfl

theorem afterLine_ends (hu : s.length ≤ u.length) :
    Ends rules u fun x => .ok (.gap, afterLine rules (s ++ x)) := by
  cases h : s.dropWhile fun c => !(c == '\n' || (rules.returnEndsComment && c == '\r')) with
  | nil =>
      refine .opens .line trivial (by simp [Ending.Open]) fun x _ => ?_
      rw [Ending.after, afterLine_of_nil h]
      rfl
  | cons d rest =>
      have hlength := (List.dropWhile_suffix (l := s) fun c =>
        !(c == '\n' || (rules.returnEndsComment && c == '\r'))).length_le
      rw [h, List.length_cons] at hlength
      exact .steady .gap rest (by omega) fun x _ => by rw [afterLine_of_some h]

theorem afterComment?_ends (depth : Nat) (hu : s.length ≤ u.length) :
    Ends rules u fun x =>
      match afterComment? rules.nestedComments depth (s ++ x) with
      | some rest => .ok (.gap, rest)
      | none => .error ⟨.openComment, []⟩ := by
  cases h : afterComment? rules.nestedComments depth s with
  | none =>
      obtain ⟨depth', hopen⟩ := afterComment?_open h
      refine .opens (.comment depth') trivial (by simp [Ending.Open]) fun x hx => ?_
      rw [Ending.after, ← hopen x (hx.ne (by decide)) (hx.ne (by decide))]
      cases afterComment? rules.nestedComments depth (s ++ x) <;> rfl
  | some left =>
      have hgrows (x : List Char) :=
        afterComment?_grows rules.nestedComments depth s x () left (by simp [h])
      have hleft := (hgrows []).1.length_le
      refine .steady .gap left (by omega) fun x _ => ?_
      obtain ⟨left', hleft', heq⟩ := Option.map_eq_some_iff.1 (hgrows x).2
      rw [hleft', (Prod.mk.inj heq).2]

/-! ## Names -/

theorem readWord_append (hx : ∀ d ∈ x.head?, rules.isNamePart d = false) (start s : List Char) :
    rules.readWord start (s ++ x) =
      .ok (.word (String.ofList (start ++ s.takeWhile rules.isNamePart)) none,
        s.dropWhile rules.isNamePart ++ x) := by
  rw [readWord, takeWhile_append_apart hx, dropWhile_append_apart hx]

theorem readWord_steady (start s : List Char) :
    Steady rules s fun x => rules.readWord start (s ++ x) := by
  have hlength := (List.dropWhile_suffix (l := s) rules.isNamePart).length_le
  exact (Steady.ok _ _ hlength).congr fun x hx => readWord_append hx.part start s

end LexicalRules

end SemanticLayer.Sql
