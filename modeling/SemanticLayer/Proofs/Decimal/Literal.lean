import Mathlib.Algebra.Order.Field.Rat
import Mathlib.Data.List.TakeWhile
import Mathlib.Tactic.Linarith
import SemanticLayer.Proofs.Decimal.Digits
/-!
Decimal numbers in texts: digits with or without a point and an exponent.
-/
namespace SemanticLayer.Decimal

variable {ds fs behind : List Char} {c : Char} {n : Nat}

/-! ## Whole numbers -/

theorem readNat?_digits (hne : ds ≠ []) (hds : ∀ c ∈ ds, c.isDigit = true) :
    readNat? ds = some (digitsValue 0 ds) := by
  have hempty : ds.isEmpty = false := by simpa using hne
  have hall : ds.all Char.isDigit = true := List.all_eq_true.2 hds
  simp [readNat?, hempty, hall]

theorem splitSign_digits (hds : ∀ c ∈ ds.head?, c.isDigit = true) : splitSign ds = (false, ds) := by
  match ds, hds with
  | [], _ => rfl
  | c :: rest, hds =>
      have hdigit := hds c rfl
      unfold splitSign
      split
      · rename_i heq
        obtain ⟨rfl, -⟩ := List.cons.inj heq
        exact absurd hdigit (by decide)
      · rename_i heq
        obtain ⟨rfl, -⟩ := List.cons.inj heq
        exact absurd hdigit (by decide)
      · rfl

theorem readInt?_of_splitSign {s : List Char} {negative : Bool} (hsign : splitSign s = (negative, ds)) (hne : ds ≠ [])
    (hds : ∀ c ∈ ds, c.isDigit = true) :
    readInt? s = some (if negative then -(digitsValue 0 ds : Int) else digitsValue 0 ds) := by
  rw [readInt?, hsign]
  simp only [readNat?_digits hne hds]
  rfl

theorem readInt?_signed (n : Int) :
    readInt? ((if n < 0 then '-' else '+') :: Text.digits n.natAbs) = some n := by
  have hsign : splitSign ((if n < 0 then '-' else '+') :: Text.digits n.natAbs) =
      (decide (n < 0), Text.digits n.natAbs) := by
    split
    · rename_i hneg
      rw [decide_eq_true hneg]
      rfl
    · rename_i hnonneg
      rw [decide_eq_false hnonneg]
      rfl
  rw [readInt?_of_splitSign hsign (Text.digits_ne_nil _) fun c hc => Text.isDigit_of_mem_digits hc,
    Text.digitsValue_digits]
  simp only [decide_eq_true_eq]
  split <;> congr 1 <;> omega

/-! ## Numbers with a point or an exponent -/

def Literal.value (l : Literal) : ℚ :=
  l.mantissa * 10 ^ l.exponent

theorem span_append {p : Char → Bool} {front : List Char} (behind : List Char) (hfront : ∀ c ∈ front, p c = true)
    (hbehind : ∀ c ∈ behind.head?, p c = false) :
    (front ++ behind).takeWhile p = front ∧ (front ++ behind).dropWhile p = behind := by
  rw [List.takeWhile_append_of_pos hfront, List.dropWhile_append_of_pos hfront]
  cases behind with
  | nil => simp
  | cons c behind => simp [hbehind c rfl]

/-- A number with the exponent that may stand behind its digits. -/
def Literal.scaled? (l : Literal) : List Char → Option Literal
  | [] => some l
  | c :: rest =>
    if c == 'e' || c == 'E' then (readInt? rest).map fun e => ⟨l.mantissa, l.exponent + e⟩ else none

theorem read?_whole (behind : List Char) (hne : ds ≠ []) (hds : ∀ c ∈ ds, c.isDigit = true)
    (hbehind : ∀ c ∈ behind.head?, c.isDigit = false ∧ c ≠ '.') :
    Literal.read? (ds ++ behind) = Literal.scaled? ⟨digitsValue 0 ds, 0⟩ behind := by
  obtain ⟨htake, hdrop⟩ := span_append behind hds fun c hc => (hbehind c hc).1
  have hempty : ds.isEmpty = false := by simpa using hne
  cases behind with
  | nil =>
      simp only [Literal.read?, htake, hdrop, hempty, Bool.false_and, Bool.false_eq_true, if_false]
      rfl
  | cons c rest =>
      have hpoint : c ≠ '.' := (hbehind c rfl).2
      simp [Literal.read?, htake, hdrop, hempty, hpoint, Literal.scaled?, digitsValue]

theorem read?_pointed (behind : List Char) (hne : ds ++ fs ≠ []) (hds : ∀ c ∈ ds, c.isDigit = true)
    (hfs : ∀ c ∈ fs, c.isDigit = true) (hbehind : ∀ c ∈ behind.head?, c.isDigit = false) :
    Literal.read? (ds ++ '.' :: (fs ++ behind)) =
      Literal.scaled? ⟨digitsValue 0 (ds ++ fs), -(fs.length : Int)⟩ behind := by
  obtain ⟨htake, hdrop⟩ := span_append ('.' :: (fs ++ behind)) hds (by simp)
  obtain ⟨htake', hdrop'⟩ := span_append behind hfs hbehind
  have hempty : (ds.isEmpty && fs.isEmpty) = false := by
    cases ds <;> simp at hne ⊢
    exact hne
  simp only [Literal.read?, htake, hdrop, htake', hdrop', hempty, Bool.false_eq_true, if_false, digitsValue_append]
  rfl

/-! ## Texts that stand for a number -/

def signed (negative : Bool) (s : List Char) : List Char :=
  if negative then '-' :: s else s

def signedValue (negative : Bool) (v : ℚ) : ℚ :=
  if negative then -v else v

theorem signedValue_zero (negative : Bool) : signedValue negative 0 = 0 := by
  cases negative <;> simp [signedValue]

theorem signedValue_inj {a b : Bool} {v w : ℚ} (hv : 0 < v) (hw : 0 ≤ w) (h : signedValue a v = signedValue b w) :
    a = b ∧ v = w := by
  cases a <;> cases b <;> simp only [signedValue, Bool.false_eq_true, if_true, if_false] at h
  · exact ⟨rfl, h⟩
  · linarith
  · linarith
  · exact ⟨rfl, neg_injective h⟩

/-- Whether a decimal text stands for a number. -/
def Denotes (text : String) (v : ℚ) : Prop :=
  ∃ l, Literal.read? (splitSign text.toList).2 = some l ∧ v = signedValue (splitSign text.toList).1 l.value

/-- Whether a text without a sign is read as a number. -/
structure Writes (text : List Char) (v : ℚ) : Prop where
  isDigit_head : ∀ c ∈ text.head?, c.isDigit = true
  reads : ∃ l, Literal.read? text = some l ∧ l.value = v

theorem splitSign_signed (negative : Bool) {s : List Char} (hs : ∀ c ∈ s.head?, c.isDigit = true) :
    splitSign (signed negative s) = (negative, s) := by
  cases negative with
  | true => rfl
  | false => exact splitSign_digits hs

theorem Writes.denotes_iff {s : List Char} {w : ℚ} {text : String} {negative : Bool} (h : Writes s w)
    (htext : text.toList = signed negative s) {v : ℚ} : Denotes text v ↔ v = signedValue negative w := by
  obtain ⟨l, hread, rfl⟩ := h.reads
  rw [Denotes, htext, splitSign_signed negative h.isDigit_head, hread]
  simp

theorem isDigit_head_append (hne : ds ≠ []) (hds : ∀ c ∈ ds, c.isDigit = true) (behind : List Char) :
    ∀ c ∈ (ds ++ behind).head?, c.isDigit = true := by
  obtain ⟨d, rest, rfl⟩ := List.exists_cons_of_ne_nil hne
  intro c hc
  obtain rfl := Option.some.inj hc
  exact hds _ List.mem_cons_self

theorem writes_pointed (hne : ds ≠ []) (hds : ∀ c ∈ ds, c.isDigit = true) (hfs : ∀ c ∈ fs, c.isDigit = true) :
    Writes (ds ++ '.' :: fs) (digitsValue 0 (ds ++ fs) * 10 ^ (-(fs.length : Int))) := by
  have hread := read?_pointed [] (List.append_ne_nil_of_left_ne_nil hne fs) hds hfs (by simp)
  rw [List.append_nil] at hread
  exact ⟨isDigit_head_append hne hds _, _, hread, rfl⟩

end SemanticLayer.Decimal
