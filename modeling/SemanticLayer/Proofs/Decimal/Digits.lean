import Mathlib.Algebra.Order.Ring.Nat
import Mathlib.Data.List.Induction
import SemanticLayer.Decimal.Reading
import SemanticLayer.Text.Blank
import SemanticLayer.Text.Number
/-!
Decimal digits and the numbers they stand for.
-/
namespace SemanticLayer

namespace Decimal

variable {ds : List Char}

theorem digitsValue_append (start : Nat) (ds fs : List Char) :
    digitsValue start (ds ++ fs) = digitsValue (digitsValue start ds) fs := by
  rw [digitsValue, List.foldl_append]
  rfl

theorem digitsValue_eq_ofDigitChars (start : Nat) (ds : List Char) :
    digitsValue start ds = Nat.ofDigitChars 10 ds start := by
  rw [digitsValue, Nat.ofDigitChars_eq_foldl]
  simp only [Nat.mul_comm]

theorem digitsValue_concat (ds fs : List Char) :
    digitsValue 0 (ds ++ fs) = digitsValue 0 ds * 10 ^ fs.length + digitsValue 0 fs := by
  simp only [digitsValue_eq_ofDigitChars, Nat.ofDigitChars_append]
  rw [Nat.ofDigitChars_eq_ofDigitChars_zero, Nat.mul_comm]

theorem digit_lt {c : Char} (h : c.isDigit = true) : c.toNat - '0'.toNat < 10 := by
  simp only [Char.isDigit, Bool.and_eq_true, decide_eq_true_eq, UInt32.le_iff_toNat_le] at h
  have hle : c.val.toNat ≤ 57 := h.2
  change c.val.toNat - 48 < 10
  omega

theorem digitsValue_lt (h : ∀ c ∈ ds, c.isDigit = true) : digitsValue 0 ds < 10 ^ ds.length := by
  induction ds using List.reverseRecOn with
  | nil => decide
  | append_singleton ds c ih =>
      have hds := ih fun d hd => h d (by simp [hd])
      have hc := digit_lt (h c (by simp))
      have hvalue : digitsValue 0 (ds ++ [c]) = digitsValue 0 ds * 10 + (c.toNat - '0'.toNat) := by
        simp [digitsValue]
      rw [hvalue, List.length_append, List.length_singleton, pow_succ]
      omega

/-- The first digits of a number are its quotient by a power of ten. -/
theorem digitsValue_take (h : ∀ c ∈ ds, c.isDigit = true) (k : Nat) :
    digitsValue 0 (ds.take k) = digitsValue 0 ds / 10 ^ (ds.length - k) := by
  have hlast : digitsValue 0 (ds.drop k) < 10 ^ (ds.drop k).length :=
    digitsValue_lt fun c hc => h c (List.mem_of_mem_drop hc)
  have hsplit : digitsValue 0 ds =
      digitsValue 0 (ds.take k) * 10 ^ (ds.drop k).length + digitsValue 0 (ds.drop k) := by
    rw [← digitsValue_concat, List.take_append_drop]
  rw [← List.length_drop, hsplit, Nat.mul_comm, Nat.mul_add_div (Nat.pow_pos (by decide)),
    Nat.div_eq_of_lt hlast, Nat.add_zero]

theorem digitsValue_replicate (k : Nat) (ds : List Char) :
    digitsValue 0 (List.replicate k '0' ++ ds) = digitsValue 0 ds := by
  rw [digitsValue_append, digitsValue_eq_ofDigitChars 0, Nat.ofDigitChars_replicate_zero, Nat.mul_zero]

end Decimal

namespace Text

open Decimal

variable {c : Char} {n width : Nat}

theorem isBlank_of_isDigit (h : c.isDigit = true) : isBlank c = false := by
  obtain ⟨hlow, hhigh⟩ := Char.isDigit_iff_toNat.1 h
  have hzero : '0'.toNat = 48 := rfl
  have hnine : '9'.toNat = 57 := rfl
  simp only [isBlank, Bool.or_eq_false_iff, Bool.and_eq_false_iff, decide_eq_false_iff_not, beq_eq_false_iff_ne]
  omega

theorem digits_eq (n : Nat) : digits n = Nat.toDigits 10 n := by
  rw [digits, Nat.toString_eq_ofList_toDigits, String.toList_ofList]

theorem digitsValue_digits (n : Nat) : digitsValue 0 (digits n) = n := by
  rw [digits_eq, digitsValue_eq_ofDigitChars, Nat.ofDigitChars_ten_toDigits]

theorem isDigit_of_mem_digits (h : c ∈ digits n) : c.isDigit = true := by
  rw [digits_eq] at h
  exact Nat.isDigit_of_mem_toDigits (by decide) (by decide) h

theorem digits_ne_nil (n : Nat) : digits n ≠ [] := by
  rw [digits_eq]
  exact Nat.toDigits_ne_nil

/-- Only the number zero begins with a zero. -/
theorem head?_digits (h : 0 < n) : (digits n).head? ≠ some '0' := by
  rw [digits_eq]
  induction n using Nat.strongRecOn with
  | ind n ih =>
      rcases Nat.lt_or_ge n 10 with hn | hn
      · rw [Nat.toDigits_of_lt_base hn]
        simp only [List.head?_cons, ne_eq, Option.some.injEq, Nat.digitChar_eq_zero]
        omega
      · have hfront := ih (n / 10) (by omega) (by omega)
        obtain ⟨d, more, hdigits⟩ := List.exists_cons_of_ne_nil (Nat.toDigits_ne_nil (n := n / 10) (b := 10))
        rw [Nat.toDigits_of_base_le (by decide) hn, hdigits]
        rwa [hdigits] at hfront

theorem length_digits_le (h : n < 10 ^ width) (hwidth : 0 < width) : (digits n).length ≤ width := by
  rw [digits_eq]
  exact (Nat.length_toDigits_le_iff (by decide) hwidth).2 h

theorem isDigit_of_mem_padded (h : c ∈ padded width n) : c.isDigit = true := by
  rcases List.mem_append.1 h with h | h
  · rw [List.eq_of_mem_replicate h]
    decide
  · exact isDigit_of_mem_digits h

theorem le_length_padded (width n : Nat) : width ≤ (padded width n).length := by
  rw [padded, List.length_append, List.length_replicate]
  omega

theorem length_padded (h : n < 10 ^ width) (hwidth : 0 < width) : (padded width n).length = width := by
  have hle := length_digits_le h hwidth
  rw [padded, List.length_append, List.length_replicate]
  omega

theorem digitsValue_padded (width n : Nat) : digitsValue 0 (padded width n) = n := by
  rw [padded, digitsValue_replicate, digitsValue_digits]

end Text

end SemanticLayer
