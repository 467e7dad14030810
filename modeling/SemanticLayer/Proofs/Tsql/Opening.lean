import SemanticLayer.Proofs.Checks
import SemanticLayer.Proofs.Sql.Inert
import SemanticLayer.Sandbox
import SemanticLayer.Tsql.RowLimit
/-!
How a query that is read begins where it is written: with its common table expressions, or with the word that
its leftmost body opens with.
-/
namespace SemanticLayer

namespace Text

theorem capital_of_toLower {c d : Char} (hd : d ∈ ['S', 'E', 'L', 'C', 'T', 'W', 'I', 'H'])
    (h : c.toLower = d.toLower) : capital c = [d] := by
  by_cases hupper : c.isUpper = true
  · have hupper' : ∀ n < 26, ['S', 'E', 'L', 'C', 'T', 'W', 'I', 'H'].all (fun d =>
        (Char.ofNat (65 + n)).toLower = d.toLower → capital (Char.ofNat (65 + n)) = [d]) = true := by decide
    simp only [Char.isUpper, Bool.decide_and, Bool.and_eq_true, decide_eq_true_eq, ge_iff_le,
      UInt32.le_iff_toNat_le] at hupper
    obtain ⟨hlow, hhigh⟩ : 65 ≤ c.toNat ∧ c.toNat ≤ 90 := hupper
    have hc : Char.ofNat (65 + (c.toNat - 65)) = c := by
      rw [Nat.add_sub_cancel' hlow, Char.ofNat_toNat]
    rw [← hc] at h ⊢
    exact of_decide_eq_true (List.all_eq_true.1 (hupper' (c.toNat - 65) (by omega)) d hd) h
  · rw [Char.toLower, dif_neg (by simpa [Char.isUpper] using hupper)] at h
    subst h
    simp only [List.mem_cons, List.not_mem_nil, or_false] at hd
    rcases hd with rfl | rfl | rfl | rfl | rfl | rfl | rfl | rfl <;> rfl

theorem capitals_of_sameLetters {w s : List Char}
    (hw : ∀ d ∈ w, d ∈ ['S', 'E', 'L', 'C', 'T', 'W', 'I', 'H']) (h : sameLetters w s = true) :
    capitals s = w := by
  have hmap : s.map Char.toLower = w.map Char.toLower := by
    rw [sameLetters, beq_iff_eq] at h
    exact h.symm
  clear h
  induction w generalizing s with
  | nil => rw [List.map_eq_nil_iff.1 hmap, capitals, List.flatMap_nil]
  | cons d w ih =>
      obtain ⟨c, s, rfl, hc, hs⟩ := List.map_eq_cons_iff.1 hmap
      rw [capitals, List.flatMap_cons, capital_of_toLower (hw d List.mem_cons_self) hc, ← capitals,
        ih (fun d hd => hw d (List.mem_cons_of_mem _ hd)) hs]
      rfl

end Text

namespace Tsql

open Sql (Token Lexeme)
open Sql.LexicalRules (Spaced isPlain)

variable {α β : Type} {inner : Inner} {ts rest : List Lexeme}

/-! ## Texts behind a word -/

/-- Parts of a text, each with a space in front. -/
def behindSpaces (parts : List String) : List Char :=
  parts.flatMap fun part => ' ' :: part.toList

theorem intercalate_cons (first : String) (parts : List String) :
    (String.intercalate " " (first :: parts)).toList = first.toList ++ behindSpaces parts := by
  induction parts generalizing first with
  | nil => simp [behindSpaces]
  | cons second parts ih =>
      rw [String.intercalate_cons_of_ne_nil (by simp), String.toList_append, String.toList_append, ih]
      simp [behindSpaces]

/-- A text that begins with a plain word and a space. -/
def Worded (text : String) : Prop :=
  ∃ (w : String) (x : List Char), w.toList ≠ [] ∧ w.toList.all isPlain = true ∧
    text.toList = w.toList ++ ' ' :: x

theorem Worded.append {text : String} (h : Worded text) (more : String) : Worded (text ++ more) := by
  obtain ⟨w, x, hw, hplain, htext⟩ := h
  exact ⟨w, x ++ more.toList, hw, hplain, by simp [htext]⟩

theorem worded_intercalate (w : String) {parts : List String} (hw : w.toList ≠ [])
    (hplain : w.toList.all isPlain = true) (hparts : parts ≠ []) :
    Worded (String.intercalate " " (w :: parts)) := by
  obtain ⟨part, parts, rfl⟩ := List.exists_cons_of_ne_nil hparts
  exact ⟨w, _, hw, hplain, by rw [intercalate_cons, behindSpaces, List.flatMap_cons, List.cons_append]⟩

/-- A word, or a text that begins with it and a space. -/
def Behind (w text : String) : Prop :=
  ∃ x, text.toList = w.toList ++ x ∧ Spaced x

theorem Behind.self (w : String) : Behind w w :=
  ⟨[], by simp, by simp [Spaced]⟩

theorem Behind.spaced {w text : String} (h : Behind w text) (part : Option String) :
    Behind w (text ++ spaced part) := by
  obtain ⟨x, htext, hx⟩ := h
  refine ⟨x ++ (Tsql.spaced part).toList, by simp [htext], ?_⟩
  rcases hx.cases with rfl | ⟨v, rfl⟩
  · cases part <;> simp [Spaced, Tsql.spaced]
  · simp [Spaced]

theorem Behind.append {w text more : String} (h : Behind w text) (hmore : more.toList.head? = some ' ') :
    ∃ x, (text ++ more).toList = w.toList ++ ' ' :: x := by
  obtain ⟨x, htext, hx⟩ := h
  obtain ⟨y, hy⟩ := List.head?_eq_some_iff.1 hmore
  rcases hx.cases with rfl | ⟨v, rfl⟩
  · exact ⟨y, by simp [htext, hy]⟩
  · exact ⟨v ++ more.toList, by simp [htext]⟩

theorem Behind.worded {w text more : String} (h : Behind w text) (hw : w.toList ≠ [])
    (hplain : w.toList.all isPlain = true) (hmore : more.toList.head? = some ' ') :
    Worded (text ++ more) := by
  obtain ⟨x, hx⟩ := h.append hmore
  exact ⟨w, x, hw, hplain, hx⟩

/-! ## Results -/

namespace Reader

theorem bind_ok {x : Reader α} {f : α → Reader β} {b : β} (h : (x >>= f) ts = .ok (b, rest)) :
    ∃ a left, x ts = .ok (a, left) ∧ f a left = .ok (b, rest) := by
  obtain ⟨⟨a, left⟩, hx, hf⟩ := SemanticLayer.bind_eq_ok_iff.1 h
  exact ⟨a, left, hx, hf⟩

theorem bind_of_ok {x : Reader α} {a : α} {left : List Lexeme} (hx : x ts = .ok (a, left))
    (f : α → Reader β) : (x >>= f) ts = f a left := by
  change x ts >>= _ = _
  rw [hx]
  rfl

/-- Whatever a reader gives has a property. -/
def Gives (r : Reader α) (P : α → Prop) : Prop :=
  ∀ ⦃ts a rest⦄, r ts = .ok (a, rest) → P a

theorem Gives.pure {P : α → Prop} {a : α} (h : P a) : Gives (Pure.pure a) P := by
  rintro ts a rest ⟨⟩
  exact h

theorem Gives.bind {x : Reader α} {f : α → Reader β} {P : β → Prop} (h : ∀ a, Gives (f a) P) :
    Gives (x >>= f) P := by
  intro ts b rest hbind
  obtain ⟨a, left, -, hf⟩ := bind_ok hbind
  exact h a hf

theorem Gives.bind_of {x : Reader α} {f : α → Reader β} {Q : α → Prop} {P : β → Prop} (hx : Gives x Q)
    (h : ∀ a, Q a → Gives (f a) P) : Gives (x >>= f) P := by
  intro ts b rest hbind
  obtain ⟨a, left, ha, hf⟩ := bind_ok hbind
  exact h a (hx ha) hf

theorem Gives.ite {c : Prop} [Decidable c] {r r' : Reader α} {P : α → Prop} (h : Gives r P)
    (h' : Gives r' P) : Gives (if c then r else r') P := by
  split
  · exact h
  · exact h'

theorem Gives.stop {fault : Fault} {P : α → Prop} : Gives (Reader.stop fault) P := by
  rintro ts a rest ⟨⟩

/-! ## Changes -/

theorem directoryBody_gives {start : String} (hstart : Behind "INSERT" start) :
    Gives (directoryBody inner start) Worded := by
  refine .bind fun path => .bind fun format => .bind fun q => .pure ?_
  exact ((((hstart.worded (by decide) (by decide) (by decide)).append _).append _).append _).append _ |>.append _

theorem insertion_gives : Gives (insertion inner) Worded := by
  refine .bind fun rule => .bind fun overwrite => .bind fun into => .bind fun isLocal =>
    .bind fun directory => .ite (directoryBody_gives ?_) (.bind fun table => .bind fun name =>
      .bind fun rows => .bind fun conflict => .bind fun returned => .pure ?_)
  · exact ((Behind.self "INSERT").spaced _).spaced _
  · refine Worded.append (.append (.append (.append (.append ?_ _) _) _) _) _
    cases rule with
    | some rule => exact ⟨"INSERT", _, by decide, by decide, by simp; rfl⟩
    | none =>
        exact ((((Behind.self "INSERT").spaced _).spaced _).spaced _).worded (by decide) (by decide) (by decide)

theorem update_gives : Gives (update inner) Worded := by
  refine .bind fun rule => .bind fun table => .bind fun before => .bind fun _ => .bind fun values =>
    .ite (.bind fun behind => ?_) (.bind fun behind => ?_)
  all_goals
    refine .bind fun condition => .bind fun returned => .bind fun limit => .pure ?_
    exact worded_intercalate "UPDATE" (by decide) (by decide) (by simp)

theorem deletion_gives : Gives (deletion inner) Worded := by
  refine .bind fun fromFirst => .ite (.bind fun targets => ?_) (.bind fun targets => ?_)
  all_goals
    refine .bind fun tables => .bind fun others => .bind fun condition => .bind fun returned =>
      .bind fun order => .bind fun unlimited => .ite (.bind fun limit => .pure ?_) (.bind fun limit => .pure ?_)
  all_goals exact worded_intercalate "DELETE" (by decide) (by decide) (by simp)

theorem merge_gives : Gives (merge inner) Worded := by
  refine .bind fun into => .bind fun table => .bind fun _ => .bind fun source => .bind fun _ =>
    .bind fun condition => .bind fun cases => .bind fun output => .pure ?_
  refine Worded.append (.append (.append (.append (.append (.append (.append (.append ?_ _) _) _) _) _) _) _) _
  exact ((Behind.self "MERGE").spaced _).worded (by decide) (by decide) (by decide)

theorem change?_gives : Gives (change? inner) fun text => ∀ s ∈ text, Worded s := by
  refine .bind fun keyword => ?_
  split
  · exact .bind_of insertion_gives fun s hs => .pure (by simpa using hs)
  · exact .bind_of update_gives fun s hs => .pure (by simpa using hs)
  · exact .bind_of deletion_gives fun s hs => .pure (by simpa using hs)
  · exact .bind_of merge_gives fun s hs => .pure (by simpa using hs)
  · exact .pure (by simp)

theorem valueRows_gives {keyword : String} (hkeyword : keyword.toList ≠ [])
    (hplain : keyword.toList.all isPlain = true) : Gives (valueRows inner keyword) Worded := by
  refine .bind fun rows => .pure (.append ?_ _)
  exact (Behind.self keyword).worded hkeyword hplain (by decide)

theorem wholeTable_gives : Gives wholeTable Worded := by
  have htable (more : String) : Worded ("TABLE " ++ more) :=
    ⟨"TABLE", more.toList, by decide, by decide, by simp⟩
  refine .bind fun first => .bind fun second => .bind fun third => .ite (.bind fun schema =>
    .bind fun table => .pure ?_) (.bind fun table => .pure (htable _))
  exact ((htable _).append _).append _

/-! ## The next keyword -/

/-- The keyword that comes next. -/
def keyword (ts : List Lexeme) : String :=
  ((skipGaps ts).head?.map fun l => keywordOf l.token).getD ""

theorem peekKeyword_eq (ts : List Lexeme) : peekKeyword ts = .ok (keyword ts, ts) :=
  rfl

theorem atKeyword_eq {k : String} (hk : k ≠ "") (ts : List Lexeme) :
    atKeyword k ts = .ok (keyword ts == k, ts) := by
  have hpeek : peek ts = .ok ((skipGaps ts).head?, ts) := rfl
  unfold atKeyword keyword
  rw [bind_of_ok hpeek]
  cases (skipGaps ts).head? with
  | none =>
      rw [Option.map_none, Option.getD_none, beq_eq_false_iff_ne.2 hk.symm]
      rfl
  | some l => rfl

theorem takeKeyword_ok {k : String} {taken : Bool} (hk : k ≠ "")
    (h : takeKeyword k ts = .ok (taken, rest)) :
    taken = true ∧ keyword ts = k ∨ taken = false ∧ rest = ts ∧ keyword ts ≠ k := by
  unfold takeKeyword at h
  rw [bind_of_ok (atKeyword_eq hk ts)] at h
  split at h
  · obtain ⟨_, left, -, h⟩ := bind_ok h
    obtain ⟨rfl, -⟩ := Prod.mk.inj (Except.ok.inj h)
    exact .inl ⟨rfl, by simpa using ‹(keyword ts == k) = true›⟩
  · obtain ⟨rfl, rfl⟩ := Prod.mk.inj (Except.ok.inj h)
    exact .inr ⟨rfl, rfl, by simpa using ‹¬(keyword ts == k) = true›⟩

theorem takeOneOf_ok {ks : List String} {k : Option String} (h : takeOneOf ks ts = .ok (k, rest)) :
    (∃ found ∈ ks, k = some found ∧ keyword ts = found) ∨ k = none ∧ rest = ts := by
  have hpeek : peek ts = .ok ((skipGaps ts).head?, ts) := rfl
  unfold takeOneOf at h
  rw [bind_of_ok hpeek] at h
  cases hhead : (skipGaps ts).head? with
  | none =>
      rw [hhead] at h
      obtain ⟨rfl, rfl⟩ := Prod.mk.inj (Except.ok.inj h)
      exact .inr ⟨rfl, rfl⟩
  | some l =>
      rw [hhead] at h
      dsimp only at h
      split at h
      · rename_i hmem
        obtain ⟨_, left, -, h⟩ := bind_ok h
        obtain ⟨rfl, -⟩ := Prod.mk.inj (Except.ok.inj h)
        exact .inl ⟨_, by simpa using hmem, rfl, by rw [keyword, hhead]; rfl⟩
      · obtain ⟨rfl, rfl⟩ := Prod.mk.inj (Except.ok.inj h)
        exact .inr ⟨rfl, rfl⟩

theorem takeOneOf_gives (ks : List String) : Gives (takeOneOf ks) fun k => ∀ found ∈ k, found ∈ ks := by
  intro ts k rest h
  rcases takeOneOf_ok h with ⟨found, hfound, rfl, -⟩ | ⟨rfl, -⟩
  · simpa using hfound
  · simp

end Reader

/-! ## Bodies -/

/-- The clause in front of the columns of a SELECT whose rows are distinct. -/
def Distinctive (distinct : Option String) : Prop :=
  distinct = none ∨ distinct = some "DISTINCT" ∨ ∃ keys, distinct = some ("DISTINCT ON (" ++ keys ++ ")")

/-- A body without set operations, as a text opens with it. -/
def Body.Opens : Body → Prop
  | .select s => Distinctive s.distinct
  | .setOperation _ _ _ => False
  | .parenthesised _ => True
  | .other text => Worded text

def Body.leftmost : Body → Body
  | .setOperation _ left _ => left.leftmost
  | body => body

theorem Body.Opens.leftmost {b : Body} (h : b.Opens) : b.leftmost = b := by
  cases b with
  | setOperation operator left right => exact h.elim
  | _ => rfl

namespace Reader

theorem distinct?_gives : Gives (distinct? inner) Distinctive := by
  refine .bind fun here => .bind fun all => .bind fun distinct => .ite (.ite .stop (.bind fun keyed =>
    .ite (.bind fun keys => .pure ?_) (.pure ?_))) (.pure (.inl rfl))
  · exact .inr (.inr ⟨_, rfl⟩)
  · exact .inr (.inl rfl)

theorem selection_gives : Gives (selection inner) fun s => Distinctive s.distinct := by
  refine .bind fun _ => .bind_of distinct?_gives fun distinct hdistinct => ?_
  exact .bind fun top => .bind fun items => .bind fun into => .bind fun sources => .bind fun views =>
    .bind fun filter => .bind fun groups => .bind fun clusters => .bind fun distribution =>
    .bind fun sorting => .bind fun having => .bind fun windows => .bind fun levels => .pure hdistinct

theorem simpleBody_ok {b : Body} (h : simpleBody inner ts = .ok (b, rest)) :
    b.Opens ∧ (keyword ts = "SELECT" → ∃ s, b = .select s) := by
  unfold simpleBody at h
  rw [bind_of_ok (atKeyword_eq (by decide) ts)] at h
  split at h
  · obtain ⟨s, left, hs, h⟩ := bind_ok h
    obtain ⟨rfl, -⟩ := Prod.mk.inj (Except.ok.inj h)
    exact ⟨selection_gives hs, fun _ => ⟨s, rfl⟩⟩
  · rename_i hkeyword
    refine ⟨(?_ : Gives _ Body.Opens) h, fun hselect => absurd (by simpa using hselect) hkeyword⟩
    refine .bind fun parenthesised => .ite (.bind fun query => .pure trivial) ?_
    refine .bind_of (takeOneOf_gives _) fun k hk => ?_
    split
    · exact .bind_of wholeTable_gives fun text htext => .pure htext
    · rename_i word hword
      have hvalues : ∀ word ∈ ["VALUES", "VALUE", "TABLE"],
          word.toList ≠ [] ∧ word.toList.all isPlain = true := by decide
      obtain ⟨hempty, hplain⟩ := hvalues word (hk word rfl)
      exact .bind_of (valueRows_gives hempty hplain) fun text htext => .pure htext
    · exact .bind fun found => .stop

/-- A set operation stands behind the body that is read already. -/
theorem setOperations_leftmost {steps strength : Nat} {left b : Body}
    (h : setOperations inner steps strength left ts = .ok (b, rest)) : b.leftmost = left.leftmost := by
  induction steps generalizing strength left ts b rest with
  | zero =>
      obtain ⟨rfl, -⟩ := Prod.mk.inj (Except.ok.inj h)
      rfl
  | succ steps ih =>
      unfold setOperations at h
      rw [bind_of_ok (peekKeyword_eq ts)] at h
      split at h
      · obtain ⟨_, _, -, h⟩ := bind_ok h
        obtain ⟨quantifier, _, -, h⟩ := bind_ok h
        obtain ⟨first, _, -, h⟩ := bind_ok h
        obtain ⟨right, _, -, h⟩ := bind_ok h
        exact (ih h).trans rfl
      · obtain ⟨rfl, -⟩ := Prod.mk.inj (Except.ok.inj h)
        rfl

theorem queryBody_ok {b : Body} (h : queryBody inner ts = .ok (b, rest)) :
    b.leftmost.Opens ∧ (keyword ts = "SELECT" → ∃ s, b.leftmost = .select s) := by
  obtain ⟨first, left, hfirst, h⟩ := bind_ok h
  obtain ⟨ts', left', -, h⟩ := bind_ok h
  obtain ⟨hopens, hselect⟩ := simpleBody_ok hfirst
  rw [setOperations_leftmost h, hopens.leftmost]
  exact ⟨hopens, hselect⟩

end Reader

/-! ## Queries -/

/-- What is known of the front of a query that is read behind an opening word. -/
structure Query.Opens (q : Query) : Prop where
  ctes : ∀ c ∈ q.ctes, ∃ x, c.toList = "WITH".toList ++ ' ' :: x
  body : q.body.leftmost.Opens
  /-- Without common table expressions it is the word of a SELECT. -/
  selects : q.ctes = none → ∃ s, q.body.leftmost = .select s

namespace Reader

theorem ctes?_ok {c : Option String} (h : ctes? inner ts = .ok (c, rest)) :
    (∀ text ∈ c, ∃ x, text.toList = "WITH".toList ++ ' ' :: x) ∧
      (c = none → rest = ts ∧ keyword ts ≠ "WITH") := by
  obtain ⟨taken, left, htaken, hrest⟩ := bind_ok h
  rcases takeKeyword_ok (by decide) htaken with ⟨rfl, -⟩ | ⟨rfl, rfl, hkeyword⟩
  · rw [if_pos rfl] at hrest
    obtain ⟨recursive, _, -, hrest⟩ := bind_ok hrest
    obtain ⟨tables, _, -, hrest⟩ := bind_ok hrest
    obtain ⟨rfl, -⟩ := Prod.mk.inj (Except.ok.inj hrest)
    obtain ⟨x, hx⟩ := ((Behind.self "WITH").spaced recursive).append (show " ".toList.head? = _ from rfl)
    have hwith : ("WITH" ++ spaced recursive ++ " " ++ commas tables).toList =
        "WITH".toList ++ ' ' :: (x ++ (commas tables).toList) := by
      rw [String.toList_append, hx, List.append_assoc, List.cons_append]
    refine ⟨?_, by simp⟩
    rintro text ⟨⟩
    exact ⟨_, hwith⟩
  · obtain ⟨rfl, rfl⟩ := Prod.mk.inj (Except.ok.inj hrest)
    exact ⟨by simp, fun _ => ⟨rfl, hkeyword⟩⟩

theorem change?_ok {c : Option String} (hkeyword : keyword ts = "SELECT")
    (h : change? inner ts = .ok (c, rest)) : c = none ∧ rest = ts := by
  obtain ⟨k, left, hk, hrest⟩ := bind_ok h
  rcases takeOneOf_ok hk with ⟨found, hfound, rfl, heq⟩ | ⟨rfl, rfl⟩
  · rw [heq] at hkeyword
    subst hkeyword
    exact absurd hfound (by decide)
  · obtain ⟨rfl, rfl⟩ := Prod.mk.inj (Except.ok.inj hrest)
    exact ⟨rfl, rfl⟩

theorem query_opens {q : Query} (hkeyword : keyword ts ∈ Sandbox.openingWords)
    (h : query inner ts = .ok (q, rest)) : q.Opens := by
  obtain ⟨c, left, hctes, hrest⟩ := bind_ok h
  obtain ⟨change, left', hchange, hrest⟩ := bind_ok hrest
  obtain ⟨hwith, hnone⟩ := ctes?_ok hctes
  have hselect (hc : c = none) : left = ts ∧ keyword ts = "SELECT" := by
    obtain ⟨hleft, hne⟩ := hnone hc
    refine ⟨hleft, ?_⟩
    simpa [Sandbox.openingWords, hne] using hkeyword
  cases change with
  | some text =>
      obtain ⟨rfl, -⟩ := Prod.mk.inj (Except.ok.inj hrest)
      refine ⟨hwith, change?_gives hchange text rfl, fun hc => ?_⟩
      obtain ⟨rfl, hts⟩ := hselect hc
      exact absurd (change?_ok hts hchange).1 (by simp)
  | none =>
      obtain ⟨b, _, hb, hrest⟩ := bind_ok hrest
      obtain ⟨hopens, hbody⟩ := queryBody_ok hb
      obtain ⟨order, _, -, hrest⟩ := bind_ok hrest
      obtain ⟨limit, _, -, hrest⟩ := bind_ok hrest
      obtain ⟨fetch, _, -, hrest⟩ := bind_ok hrest
      obtain ⟨_, _, -, hrest⟩ := bind_ok hrest
      obtain ⟨⟨locks, forClause⟩, _, -, hrest⟩ := bind_ok hrest
      obtain ⟨rfl, -⟩ := Prod.mk.inj (Except.ok.inj hrest)
      refine ⟨hwith, hopens, fun hc => hbody ?_⟩
      obtain ⟨rfl, hts⟩ := hselect hc
      rw [(change?_ok hts hchange).2, hts]

/-! ## Statements -/

theorem keywordOf_opening {t : Token} (ht : (Sandbox.listed? Sandbox.openingWords t).isSome) :
    keywordOf t ∈ Sandbox.openingWords := by
  have hletters : ∀ w ∈ Sandbox.openingWords,
      w.toList.all (fun d => d ∈ ['S', 'E', 'L', 'C', 'T', 'W', 'I', 'H']) = true := by decide
  cases t with
  | word name quote =>
      cases quote with
      | none =>
          obtain ⟨w, hw⟩ := Option.isSome_iff_exists.1 ht
          rw [Sandbox.listed?] at hw
          have hmem := List.mem_of_find?_eq_some hw
          have hsame : Text.sameLetters w.toList name.toList = true := by
            simpa using List.find?_some hw
          have hword (d : Char) (hd : d ∈ w.toList) : d ∈ ['S', 'E', 'L', 'C', 'T', 'W', 'I', 'H'] :=
            of_decide_eq_true (List.all_eq_true.1 (hletters w hmem) d hd)
          rwa [keywordOf, Text.capitals_of_sameLetters hword hsame, String.ofList_toList]
      | some quote => exact absurd ht (by simp [Sandbox.listed?])
  | _ => exact absurd ht (by simp [Sandbox.listed?])

theorem head_of_keyword (hkeyword : keyword ts ∈ Sandbox.openingWords) :
    ∃ l, (skipGaps ts).head? = some l ∧ keywordOf l.token = keyword ts := by
  unfold keyword at hkeyword ⊢
  cases hhead : (skipGaps ts).head? with
  | none =>
      rw [hhead] at hkeyword
      exact absurd hkeyword (by decide)
  | some l => exact ⟨l, rfl, rfl⟩

theorem semicolons_eq (hkeyword : keyword ts ∈ Sandbox.openingWords) :
    semicolons ts = .ok (false, ts) := by
  obtain ⟨l, hhead, hl⟩ := head_of_keyword hkeyword
  have hsign : l.token ≠ .sign ";" := by
    intro heq
    rw [← hl, heq] at hkeyword
    exact absurd hkeyword (by decide)
  have hpeek : peek ts = .ok (some l, ts) := by
    rw [peek, hhead]
  have hat : atSign ";" ts = .ok (false, ts) := by
    rw [atSign, bind_of_ok hpeek]
    dsimp only
    rw [decide_eq_false hsign]
    rfl
  have htake : takeSign ";" ts = .ok (false, ts) := by
    rw [takeSign, bind_of_ok hat]
    rfl
  have hall : all (do if ← takeSign ";" then pure (some ()) else pure none) ts = .ok ([], ts) := by
    change repeated _ ts.length [] ts = _
    cases ts.length with
    | zero => rfl
    | succ steps =>
        have hnone : (do if ← takeSign ";" then pure (some ()) else pure none : Reader (Option Unit)) ts =
            .ok (none, ts) := by
          rw [bind_of_ok htake]
          rfl
        unfold repeated
        rw [bind_of_ok hnone]
        rfl
  unfold semicolons
  rw [bind_of_ok hall]
  rfl

theorem statement_opens {q : Query} (hkeyword : keyword ts ∈ Sandbox.openingWords)
    (hinner : ∀ mode, ∃ below, inner.queryIn mode = query below)
    (h : statement inner ts = .ok (.query q, rest)) : q.Opens := by
  obtain ⟨below, hbelow⟩ := hinner inner.mode
  have hquery : ∀ k ∈ Sandbox.openingWords, ["SELECT", "WITH", "VALUES", "FROM"].contains k = true := by
    decide
  unfold statement at h
  rw [bind_of_ok (peekKeyword_eq ts), if_pos (hquery _ hkeyword)] at h
  obtain ⟨q', left, hq, h⟩ := bind_ok h
  obtain ⟨heq, -⟩ := Prod.mk.inj (Except.ok.inj h)
  obtain rfl := Statement.query.inj heq
  rw [Inner.query, hbelow] at hq
  exact query_opens hkeyword hq

theorem statements_ok {steps : Nat} {read all : List Statement}
    (h : statements inner steps read ts = .ok (all, rest)) : ∃ more, all = read ++ more := by
  induction steps generalizing read ts with
  | zero =>
      obtain ⟨rfl, -⟩ := Prod.mk.inj (Except.ok.inj h)
      exact ⟨[], by simp⟩
  | succ steps ih =>
      unfold statements at h
      obtain ⟨separated, left, -, h⟩ := bind_ok h
      obtain ⟨found, left', -, h⟩ := bind_ok h
      cases found with
      | none =>
          obtain ⟨rfl, -⟩ := Prod.mk.inj (Except.ok.inj h)
          exact ⟨[], by simp⟩
      | some l =>
          dsimp only at h
          split at h
          · obtain ⟨next, _, -, h⟩ := bind_ok h
            obtain ⟨more, rfl⟩ := ih h
            exact ⟨next :: more, by simp⟩
          · split at h
            · obtain ⟨rfl, -⟩ := Prod.mk.inj (Except.ok.inj h)
              exact ⟨[], by simp⟩
            · obtain ⟨_, _, -, h⟩ := bind_ok h
              exact absurd h (by simp [stop])

theorem statements_opens {steps : Nat} {q : Query} (hkeyword : keyword ts ∈ Sandbox.openingWords)
    (hinner : ∀ mode, ∃ below, inner.queryIn mode = query below)
    (h : statements inner (steps + 1) [] ts = .ok ([.query q], rest)) : q.Opens := by
  obtain ⟨l, hhead, -⟩ := head_of_keyword hkeyword
  have hpeek : peek ts = .ok (some l, ts) := by
    rw [peek, hhead]
  unfold statements at h
  rw [bind_of_ok (semicolons_eq hkeyword), bind_of_ok hpeek] at h
  dsimp only at h
  rw [if_pos (by simp)] at h
  obtain ⟨first, left, hfirst, h⟩ := bind_ok h
  obtain ⟨more, hmore⟩ := statements_ok h
  obtain ⟨rfl, -⟩ := List.cons.inj hmore
  exact statement_opens hkeyword hinner hfirst

end Reader

theorem keyword_of_significant {ts : List Lexeme} {t : Token} {tokens : List Token}
    (h : (ts.map Lexeme.token).filter (· ≠ .gap) = t :: tokens) :
    Reader.keyword ts = Reader.keywordOf t := by
  unfold Reader.keyword Reader.skipGaps
  induction ts with
  | nil => simp at h
  | cons l ts ih =>
      by_cases hgap : l.token = .gap
      · rw [List.dropWhile_cons_of_pos (by simpa using hgap)]
        rw [List.map_cons, List.filter_cons_of_neg (by simpa using hgap)] at h
        exact ih h
      · rw [List.dropWhile_cons_of_neg (by simpa using hgap)]
        rw [List.map_cons, List.filter_cons_of_pos (by simpa using hgap)] at h
        rw [List.head?_cons, Option.map_some, Option.getD_some, (List.cons.inj h).1]

/-- A query behind an opening word, as the gate sees it. -/
theorem parse_opens {s : List Char} {q : Query} {t : Token} {tokens : List Token}
    (hs : Sandbox.significant .mssql s = .ok (t :: tokens))
    (ht : (Sandbox.listed? Sandbox.openingWords t).isSome) (h : parse s = .ok [.query q]) : q.Opens := by
  unfold parse at h
  unfold Sandbox.significant at hs
  cases hlexemes : Sql.LexicalRules.mssql.lexemes s with
  | error fault => simp [hlexemes] at h
  | ok ts =>
      rw [hlexemes] at h
      rw [show (Sql.LexicalRules.ofDatabase .mssql).lexemes s = .ok ts from hlexemes] at hs
      dsimp only at h hs
      have hkeyword : Reader.keyword ts ∈ Sandbox.openingWords := by
        rw [keyword_of_significant (Except.ok.inj hs)]
        exact Reader.keywordOf_opening ht
      split at h
      · rename_i read rest hread
        obtain rfl := Except.ok.inj h
        exact Reader.statements_opens hkeyword (fun mode => ⟨_, rfl⟩) hread
      · simp at h

end Tsql

end SemanticLayer
