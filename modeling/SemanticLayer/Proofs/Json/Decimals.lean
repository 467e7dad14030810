import SemanticLayer.Proofs.Decimal.Spelled
import SemanticLayer.Value
/-!
Decimal numbers of a database as JSON numbers. A number keeps its value as long as a floating-point number, or for a
whole number an integer, is written so; any other number is rounded, and only what is out of all range stays text.
-/
namespace SemanticLayer.Json

open Decimal

/-! ## Decimal texts -/

/-- Decimal text: an optional minus, digits, and an optional point with digits behind it. -/
structure DecimalText where
  negative : Bool
  whole : List Char
  /-- The digits behind the point; without a point there are none. -/
  fraction : List Char
  isDigit : ∀ c ∈ whole ++ fraction, c.isDigit = true
  whole_ne_nil : whole ≠ []

namespace DecimalText

def body (t : DecimalText) : List Char :=
  t.whole ++ if t.fraction = [] then [] else '.' :: t.fraction

def chars (t : DecimalText) : List Char :=
  signed t.negative t.body

def text (t : DecimalText) : String :=
  String.ofList t.chars

def size (t : DecimalText) : ℚ :=
  digitsValue 0 (t.whole ++ t.fraction) * 10 ^ (-(t.fraction.length : Int))

def value (t : DecimalText) : ℚ :=
  signedValue t.negative t.size

/-- Whether the text is a whole number of 64 bits. -/
def IsInt64 (t : DecimalText) : Prop :=
  t.fraction = [] ∧ -2 ^ 63 ≤ t.value ∧ t.value < 2 ^ 63

/-- Whether the text becomes a number that is written with the same value, or else stays as it is. -/
def KeepsValue (t : DecimalText) : Prop :=
  ((∃ n : Int, ofDecimal t.text = .int n) ∨ ∃ x : Float, ofDecimal t.text = .float x) ∧
      Denotes (ofDecimal t.text).compact t.value ∨
    ofDecimal t.text = .str t.text

variable {t : DecimalText} {c : Char} {s : List Char} {x y : Float}

theorem isDigit_of_mem_whole (h : c ∈ t.whole) : c.isDigit = true :=
  t.isDigit c (List.mem_append_left _ h)

theorem isDigit_of_mem_fraction (h : c ∈ t.fraction) : c.isDigit = true :=
  t.isDigit c (List.mem_append_right _ h)

theorem writes_body (t : DecimalText) : Writes t.body t.size := by
  rw [body]
  split
  · rename_i hnone
    refine ⟨isDigit_head_append t.whole_ne_nil (fun c hc => isDigit_of_mem_whole hc) _, _,
      read?_whole [] t.whole_ne_nil (fun c hc => isDigit_of_mem_whole hc) (by simp), ?_⟩
    simp [Literal.value, size, hnone]
  · exact writes_pointed t.whole_ne_nil (fun c hc => isDigit_of_mem_whole hc) fun c hc => isDigit_of_mem_fraction hc

theorem body_ne_nil (t : DecimalText) : t.body ≠ [] :=
  List.append_ne_nil_of_left_ne_nil t.whole_ne_nil _

theorem denotes_text (t : DecimalText) : Denotes t.text t.value :=
  t.writes_body.denotes_iff String.toList_ofList |>.2 rfl

/-! ## Reading -/

/-- Digits and the two signs that may stand among them. -/
def IsNumeral (c : Char) : Prop :=
  c.isDigit = true ∨ c = '-' ∨ c = '.'

theorem IsNumeral.isBlank (h : IsNumeral c) : Text.isBlank c = false := by
  rcases h with hdigit | rfl | rfl
  · exact Text.isBlank_of_isDigit hdigit
  · rfl
  · rfl

theorem isNumeral_signed (negative : Bool) (h : ∀ c ∈ s, IsNumeral c) : ∀ c ∈ signed negative s, IsNumeral c := by
  cases negative with
  | false => exact h
  | true => exact List.forall_mem_cons.2 ⟨.inr (.inl rfl), h⟩

theorem isNumeral_chars (t : DecimalText) : ∀ c ∈ t.chars, IsNumeral c := by
  refine isNumeral_signed t.negative fun c hc => ?_
  rw [body, List.mem_append] at hc
  rcases hc with hc | hc
  · exact .inl (isDigit_of_mem_whole hc)
  · split at hc
    · simp at hc
    · exact (List.mem_cons.1 hc).elim (fun h => .inr (.inr h)) fun h => .inl (isDigit_of_mem_fraction h)

theorem dropWhile_of_forall {p : Char → Bool} (h : ∀ c ∈ s, p c = false) : s.dropWhile p = s := by
  cases s with
  | nil => rfl
  | cons c s => simp [h c]

theorem trim_of_isNumeral (h : ∀ c ∈ s, IsNumeral c) : Text.trim s = s := by
  have hleft : Text.trimLeft s = s := dropWhile_of_forall fun c hc => (h c hc).isBlank
  have hright : s.reverse.dropWhile Text.isBlank = s.reverse :=
    dropWhile_of_forall fun c hc => (h c (List.mem_reverse.1 hc)).isBlank
  rw [Text.trim, hleft, Text.trimRight, hright, List.reverse_reverse]

theorem readInt64?_signed (negative : Bool) (hhead : ∀ c ∈ s.head?, c.isDigit = true)
    (hpoint : s.all Char.isDigit = false) : readInt64? (signed negative s) = none := by
  rw [readInt64?, readInt?, splitSign_signed negative hhead]
  simp only [readNat?, hpoint, Bool.not_false, Bool.or_true, if_true]
  rfl

theorem readInt64?_chars_of_fraction (h : t.fraction ≠ []) : readInt64? t.chars = none := by
  refine readInt64?_signed t.negative t.writes_body.isDigit_head ?_
  rw [body, if_neg h]
  simp

theorem readInt64?_chars_of_whole (h : t.fraction = []) : ∃ n : Int, (n : ℚ) = t.value ∧
    readInt64? t.chars = int64? n := by
  have hbody : t.body = t.whole := by rw [body, if_pos h, List.append_nil]
  refine ⟨if t.negative then -(digitsValue 0 t.whole : Int) else digitsValue 0 t.whole, ?_, ?_⟩
  · rw [value, size, h, signedValue]
    split <;> simp
  · rw [readInt64?, chars, readInt?_of_splitSign (splitSign_signed t.negative t.writes_body.isDigit_head) t.body_ne_nil
      (fun c hc => isDigit_of_mem_whole (hbody ▸ hc)), hbody]
    rfl

theorem readWord?_of_isDigit (hne : s ≠ []) (h : ∀ c ∈ s.head?, c.isDigit = true) : readWord? s = none := by
  obtain ⟨d, rest, rfl⟩ := List.exists_cons_of_ne_nil hne
  exact readWord?_of_head (.inl (h d rfl))

theorem readFloat?_chars (t : DecimalText) : ∃ l : Literal, l.value = t.size ∧
    readFloat? t.chars = some (if t.negative then -l.toFloat else l.toFloat) := by
  obtain ⟨l, hread, hvalue⟩ := t.writes_body.reads
  refine ⟨l, hvalue, ?_⟩
  rw [readFloat?, chars, splitSign_signed t.negative t.writes_body.isDigit_head]
  simp only [readWord?_of_isDigit t.body_ne_nil t.writes_body.isDigit_head, hread, Option.map_some]

theorem int64?_eq (n : Int) :
    int64? n = if -2 ^ 63 ≤ (n : ℚ) ∧ (n : ℚ) < 2 ^ 63 then some n else none := by
  have hlow : -2 ^ 63 ≤ (n : ℚ) ↔ -2 ^ 63 ≤ n := by exact_mod_cast Iff.rfl
  have hhigh : (n : ℚ) < 2 ^ 63 ↔ n < 2 ^ 63 := by exact_mod_cast Iff.rfl
  rw [int64?]
  simp only [Bool.and_eq_true, decide_eq_true_eq, hlow, hhigh]
  rfl

/-- A text is read as an integer if it is one of 64 bits, and as a floating-point number else. -/
theorem ofDecimal_text (t : DecimalText) :
    (t.IsInt64 → ∃ n : Int, (n : ℚ) = t.value ∧ ofDecimal t.text = .int n) ∧
      (¬ t.IsInt64 → ∃ l : Literal, l.value = t.size ∧
        ofDecimal t.text = if (if t.negative then -l.toFloat else l.toFloat).isFinite
          then .float (if t.negative then -l.toFloat else l.toFloat) else .str t.text) := by
  have hint : readInt64? t.chars = none ∧ ¬ t.IsInt64 ∨
      ∃ n : Int, (n : ℚ) = t.value ∧ readInt64? t.chars = some n ∧ t.IsInt64 := by
    by_cases hfraction : t.fraction = []
    · obtain ⟨n, hn, hread⟩ := readInt64?_chars_of_whole hfraction
      rw [int64?_eq, hn] at hread
      split at hread
      · rename_i hrange
        exact .inr ⟨n, hn, hread, hfraction, hrange⟩
      · rename_i hrange
        exact .inl ⟨hread, fun h => hrange h.2⟩
    · exact .inl ⟨readInt64?_chars_of_fraction hfraction, fun h => hfraction h.1⟩
  obtain ⟨l, hvalue, hfloat⟩ := t.readFloat?_chars
  have hchars : Text.trim t.text.toList = t.chars := by rw [text, String.toList_ofList, trim_of_isNumeral t.isNumeral_chars]
  rw [ofDecimal, hchars, hfloat]
  rcases hint with ⟨hread, hnot⟩ | ⟨n, hn, hread, his⟩ <;> rw [hread]
  · exact ⟨fun h => absurd h hnot, fun _ => ⟨l, hvalue, rfl⟩⟩
  · exact ⟨fun _ => ⟨n, hn, rfl⟩, fun h => absurd his h⟩

/-! ## Values -/

theorem size_nonneg (t : DecimalText) : 0 ≤ t.size :=
  mul_nonneg (Nat.cast_nonneg _) (zpow_pos (by norm_num) _).le

theorem abs_value (t : DecimalText) : |t.value| = t.size :=
  abs_signedValue t.size_nonneg

/-- Within the range the text is read as a floating-point number with the parts to which its number is rounded. -/
theorem rounded_signed {l : Literal} (hvalue : l.value = t.size) (hlt : t.size < limit) :
    ∃ n d, RoundsTo t.size n d ∧ Binary.Canonical ⟨t.negative, n, d⟩ ∧
      (if t.negative then -l.toFloat else l.toFloat) = Binary.packed ⟨t.negative, n, d⟩ := by
  rw [← hvalue] at hlt ⊢
  exact Literal.exists_parts t.negative hlt

theorem not_isFinite_signed {l : Literal} (hvalue : l.value = t.size) (hge : limit ≤ t.size) :
    (if t.negative then -l.toFloat else l.toFloat).isFinite = false :=
  Literal.not_isFinite t.negative (hvalue ▸ hge)

/-- If any floating-point number is written as the number of the text, so is the one that the text is read as. -/
theorem denotes_write_of_denotes {n : Nat} {d : Int} (hx : x.isFinite = true) (hy : y.isFinite = true)
    (hparts : Binary.ofFloat x = ⟨t.negative, n, d⟩) (hrounds : RoundsTo t.size n d)
    (h : Denotes (write y) t.value) : Denotes (write x) t.value :=
  denotes_write_of_roundsTo hx hy t.size_nonneg hparts hrounds h

/-- No floating-point number lies nearer to the number of the text than the one it is read as. -/
theorem abs_sub_le {n : Nat} {d : Int} (hparts : Binary.ofFloat x = ⟨t.negative, n, d⟩)
    (hrounds : RoundsTo t.size n d) (hy : y.isFinite = true) :
    |(Binary.ofFloat x).value - t.value| ≤ |(Binary.ofFloat y).value - t.value| :=
  Binary.abs_sub_le hparts hrounds t.size_nonneg hy

/-- The text of a number within the range that is no integer of 64 bits becomes the number that it is rounded to. -/
theorem exists_rounded (hint : ¬ t.IsInt64) (hlt : |t.value| < limit) (hsign : t.negative = decide (t.value < 0)) :
    ∃ x : Float, ofDecimal t.text = .float x ∧ RoundedTo t.value x := by
  obtain ⟨l, hvalue, hread⟩ := t.ofDecimal_text.2 hint
  obtain ⟨n, d, hrounds, hcanonical, hpacked⟩ := rounded_signed hvalue (t.abs_value ▸ hlt)
  obtain ⟨hfinite, hparts⟩ := Binary.packed_spec hcanonical
  rw [hpacked, if_pos hfinite] at hread
  rw [← t.abs_value] at hrounds
  exact ⟨_, hread, roundedTo_of_parts hfinite (by rw [hparts, ← hsign]) hrounds⟩

end DecimalText

theorem denotes_toString (n : Int) : Denotes (toString n) n := by
  have htext : (toString n).toList = signed (decide (n < 0)) (Text.digits n.natAbs) := by
    cases n with
    | ofNat k => rfl
    | negSucc k =>
        change ("-" ++ toString (k + 1)).toList = _
        rw [String.toList_append, decide_eq_true (Int.negSucc_lt_zero k)]
        rfl
  have hdigits : ∀ c ∈ Text.digits n.natAbs, c.isDigit = true := fun c hc => Text.isDigit_of_mem_digits hc
  have hwrites : Writes (Text.digits n.natAbs) n.natAbs := by
    have hhead := isDigit_head_append (Text.digits_ne_nil n.natAbs) hdigits []
    have hread := read?_whole [] (Text.digits_ne_nil n.natAbs) hdigits (by simp)
    rw [List.append_nil] at hhead hread
    exact ⟨hhead, _, hread, by simp [Literal.value, Text.digitsValue_digits]⟩
  refine (hwrites.denotes_iff htext).2 ?_
  rw [signedValue, Nat.cast_natAbs]
  by_cases hneg : n < 0
  · simp [hneg, abs_of_neg hneg]
  · simp [hneg, abs_of_nonneg (not_lt.1 hneg)]

/-- A whole number of 64 bits keeps its value. Any other number within the range becomes the nearest floating-point
number, which is written as that number if any floating-point number is. Beyond the range a number stays text. -/
theorem ofDecimal_value (t : DecimalText) :
    (t.IsInt64 → ∃ n : Int, ofDecimal t.text = .int n ∧ Denotes (Json.int n).compact t.value) ∧
      (¬ t.IsInt64 → |t.value| < limit → ∃ x : Float, ofDecimal t.text = .float x ∧ x.isFinite = true ∧
        (∀ y : Float, y.isFinite = true →
          |(Binary.ofFloat x).value - t.value| ≤ |(Binary.ofFloat y).value - t.value|) ∧
        (Denotes (Json.float x).compact t.value ↔
          ∃ y : Float, y.isFinite = true ∧ Denotes (Json.float y).compact t.value)) ∧
      (¬ t.IsInt64 → limit ≤ |t.value| → ofDecimal t.text = .str t.text) := by
  have hcompact {x : Float} (hx : x.isFinite = true) : (Json.float x).compact = write x := by
    rw [compact, if_pos hx]
  obtain ⟨hint, hfloat⟩ := t.ofDecimal_text
  refine ⟨fun h => ?_, fun h hlt => ?_, fun h hge => ?_⟩
  · obtain ⟨n, hn, hread⟩ := hint h
    refine ⟨n, hread, ?_⟩
    rw [← hn, compact]
    exact denotes_toString n
  · obtain ⟨l, hvalue, hread⟩ := hfloat h
    rw [t.abs_value] at hlt
    obtain ⟨n, d, hrounds, hcanonical, hpacked⟩ := DecimalText.rounded_signed hvalue hlt
    obtain ⟨hfinite, hparts⟩ := Binary.packed_spec hcanonical
    rw [hpacked, if_pos hfinite] at hread
    refine ⟨_, hread, hfinite, fun y hy => DecimalText.abs_sub_le hparts hrounds hy, ?_⟩
    constructor
    · exact fun hdenotes => ⟨_, hfinite, hdenotes⟩
    · rintro ⟨y, hy, hdenotes⟩
      rw [hcompact hy] at hdenotes
      rw [hcompact hfinite]
      exact DecimalText.denotes_write_of_denotes hfinite hy hparts hrounds hdenotes
  · obtain ⟨l, hvalue, hread⟩ := hfloat h
    rw [t.abs_value] at hge
    rw [hread, DecimalText.not_isFinite_signed hvalue hge]
    rfl

def longAmount : DecimalText :=
  ⟨false, ['9', '0', '0', '7', '1', '9', '9', '2', '5', '4', '7', '4', '0', '9', '9', '3'], ['5'],
    List.all_eq_true.1 rfl, List.cons_ne_nil _ _⟩

theorem not_keepsValue_longAmount : ¬ longAmount.KeepsValue := by
  have hcompact : (ofDecimal longAmount.text).compact = "9007199254740994.0" := by decide +kernel
  rintro (⟨-, hdenotes⟩ | hkept)
  · rw [hcompact] at hdenotes
    obtain ⟨l, hread, hvalue⟩ := hdenotes
    have hsign : splitSign "9007199254740994.0".toList = (false, "9007199254740994.0".toList) := by decide
    have hread' : Literal.read? "9007199254740994.0".toList = some ⟨90071992547409940, -1⟩ := by decide +kernel
    rw [hsign] at hread hvalue
    obtain rfl := Option.some.inj (hread'.symm.trans hread)
    have hdigits : digitsValue 0 (longAmount.whole ++ longAmount.fraction) = 90071992547409935 := by decide +kernel
    rw [DecimalText.value, DecimalText.size, hdigits] at hvalue
    norm_num [signedValue, longAmount, Literal.value] at hvalue
  · rw [hkept] at hcompact
    revert hcompact
    decide +kernel

end SemanticLayer.Json
