import SemanticLayer.Proofs.Json.Decimals
import SemanticLayer.Wire.MySql.Cell
/-!
Whole numbers of a MySQL result in both protocols. Sent as text, they are read through the reader of decimal numbers,
which keeps those of 64 bits with sign; what is beyond, as an unsigned number can be, is rounded.
-/
namespace SemanticLayer

namespace Text

def asciiBytes (cs : List Char) : List UInt8 :=
  cs.map fun c => UInt8.ofNat c.toNat

variable {c : Char} {cs : List Char}

theorem front_ascii (h : c.toNat < 128) (rest : List UInt8) : front (UInt8.ofNat c.toNat) rest = .character c 1 := by
  have hbyte : (UInt8.ofNat c.toNat).toNat = c.toNat := by
    rw [UInt8.toNat_ofNat']
    omega
  have hlow : UInt8.ofNat c.toNat < 0x80 := by
    rw [UInt8.lt_iff_toNat_lt, hbyte]
    exact h
  rw [front, if_pos hlow, hbyte, Char.ofNat_toNat]

theorem decode?_asciiBytes (h : ∀ c ∈ cs, c.toNat < 128) : decode? (asciiBytes cs) = some cs := by
  rw [decode?, asciiBytes, List.length_map]
  induction cs with
  | nil => rfl
  | cons c cs ih =>
      obtain ⟨hc, hcs⟩ := List.forall_mem_cons.1 h
      simp only [List.map_cons, List.length_cons, decodeWith, front_ascii hc, Nat.sub_self, List.drop_zero, ih hcs]
      rfl

end Text

namespace Decimal

theorem dvd_of_size_eq {m : Nat} {e n : Int} (hm : m < 2 ^ 53) (hn : 2 ^ 63 ≤ n) (h : (m * 2 ^ e : ℚ) = n) :
    (2048 : Int) ∣ n := by
  have he : 11 ≤ e := by
    by_contra hless
    have hpow : (2 : ℚ) ^ e ≤ 2 ^ (10 : Int) := zpow_le_zpow_right₀ (by norm_num) (by omega)
    have hm' : (m : ℚ) < 2 ^ 53 := by exact_mod_cast hm
    have hn' : (2 : ℚ) ^ 63 ≤ n := by exact_mod_cast hn
    have hbound : (m * 2 ^ e : ℚ) < 2 ^ 53 * 2 ^ (10 : Int) :=
      mul_lt_mul hm' hpow (zpow_pos (by norm_num) e) (by norm_num)
    rw [h] at hbound
    norm_num at hbound hn'
    linarith
  obtain ⟨k, rfl⟩ : ∃ k : Nat, e = 11 + k := ⟨(e - 11).toNat, by omega⟩
  refine ⟨m * 2 ^ k, ?_⟩
  rw [zpow_add₀ (by norm_num), zpow_natCast] at h
  have hproduct : (n : ℚ) = (2048 * (m * 2 ^ k) : Int) := by
    rw [← h]
    push_cast
    ring
  exact_mod_cast hproduct

theorem exists_canonical_of_dvd {n : Int} (hlow : 2 ^ 63 ≤ n) (hhigh : n < 2 ^ 64) (h : (2048 : Int) ∣ n) :
    ∃ b : Binary, b.Canonical ∧ b.value = n := by
  obtain ⟨k, rfl⟩ := h
  refine ⟨⟨false, k.toNat, 11⟩, ⟨by dsimp only; omega, (by decide : Binary.leastExponent ≤ 11),
    (by decide : (11 : Int) ≤ 971), .inr (by dsimp only; omega)⟩, ?_⟩
  have hk : ((k.toNat : Int) : ℚ) = k := by rw [Int.toNat_of_nonneg (by omega)]
  rw [Binary.value, Binary.size, signedValue, if_neg Bool.false_ne_true, ← Int.cast_natCast, hk]
  push_cast
  norm_num [mul_comm]

/-- Of the numbers from 2 ^ 63 up to 2 ^ 64 just the multiples of 2048 are kept. -/
theorem RoundedTo.value_eq_iff {n : Int} {x : Float} (h : RoundedTo n x) (hlow : 2 ^ 63 ≤ n) (hhigh : n < 2 ^ 64) :
    (Binary.ofFloat x).value = n ↔ (2048 : Int) ∣ n := by
  constructor
  · intro hvalue
    have hnonneg : ¬ (n : ℚ) < 0 := not_lt.2 (by exact_mod_cast (by omega : 0 ≤ n))
    rw [Binary.value, h.negative, decide_eq_false hnonneg] at hvalue
    exact dvd_of_size_eq (Binary.canonical_ofFloat h.isFinite).mantissa_lt hlow hvalue
  · intro hdvd
    obtain ⟨b, hcanonical, hvalue⟩ := exists_canonical_of_dvd hlow hhigh hdvd
    rw [← hvalue] at h ⊢
    exact h.value_eq hcanonical

end Decimal

namespace Wire.MySql

open Decimal
open Json (DecimalText)

/-- The values with which the binary protocol sends a whole number of 64 bits: with sign or without. -/
inductive Value.IsInteger : Value → Int → Prop
  | signed {n : Int} (hlow : -2 ^ 63 ≤ n) (hhigh : n < 2 ^ 63) : IsInteger (.int n) n
  | unsigned {n : Nat} (h : n < 2 ^ 64) : IsInteger (.uint n) n

/-- The text of a whole number. A column may ask for zeros in front of its digits. -/
def integerText (zeros : Nat) (n : Int) : DecimalText where
  negative := decide (n < 0)
  whole := List.replicate zeros '0' ++ Text.digits n.natAbs
  fraction := []
  isDigit := by
    intro c hc
    rw [List.append_nil] at hc
    exact (List.mem_append.1 hc).elim isDigit_of_mem_zeros Text.isDigit_of_mem_digits
  whole_ne_nil := List.append_ne_nil_of_right_ne_nil _ (Text.digits_ne_nil _)

/-- The bytes with which the text protocol sends a whole number. -/
def integerBytes (zeros : Nat) (n : Int) : List UInt8 :=
  Text.asciiBytes (integerText zeros n).chars

variable {column : Column} {v : Value} {n : Int} {zeros : Nat}

theorem value_integerText (zeros : Nat) (n : Int) : (integerText zeros n).value = n := by
  have hsize : (integerText zeros n).size = |(n : ℚ)| := by
    rw [DecimalText.size, integerText, List.append_nil, digitsValue_replicate, Text.digitsValue_digits]
    simp [Nat.cast_natAbs]
  rw [DecimalText.value, hsize]
  have hsign := signedValue_abs (n : ℚ)
  rwa [decide_eq_decide.2 Int.cast_lt_zero] at hsign

theorem isInt64_integerText : (integerText zeros n).IsInt64 ↔ -2 ^ 63 ≤ n ∧ n < 2 ^ 63 := by
  have hlow : -2 ^ 63 ≤ (n : ℚ) ↔ -2 ^ 63 ≤ n := by exact_mod_cast Iff.rfl
  have hhigh : (n : ℚ) < 2 ^ 63 ↔ n < 2 ^ 63 := by exact_mod_cast Iff.rfl
  rw [DecimalText.IsInt64, value_integerText, hlow, hhigh]
  exact and_iff_right rfl

theorem ofDecimal_integerText (zeros : Nat) (hlow : -2 ^ 63 ≤ n) (hhigh : n < 2 ^ 63) :
    Json.ofDecimal (integerText zeros n).text = .int n := by
  obtain ⟨m, hm, hread⟩ := (integerText zeros n).ofDecimal_text.1 (isInt64_integerText.2 ⟨hlow, hhigh⟩)
  rw [value_integerText] at hm
  rw [hread, Int.cast_injective hm]

theorem exists_rounded_integerText (zeros : Nat) (hlow : 2 ^ 63 ≤ n) (hhigh : n < 2 ^ 64) :
    ∃ x : Float, Json.ofDecimal (integerText zeros n).text = .float x ∧ RoundedTo n x := by
  have hnonneg : (0 : ℚ) ≤ n := by exact_mod_cast (by omega : 0 ≤ n)
  have hlt : |(integerText zeros n).value| < limit := by
    rw [value_integerText, abs_of_nonneg hnonneg]
    have hhigh' : (n : ℚ) < 2 ^ (64 : Int) := by exact_mod_cast hhigh
    exact (hhigh'.trans_le (zpow_le_zpow_right₀ (by norm_num) (by decide))).trans lt_limit
  have hsign : (integerText zeros n).negative = decide ((integerText zeros n).value < 0) := by
    rw [value_integerText]
    exact decide_eq_decide.2 Int.cast_lt_zero.symm
  obtain ⟨x, hread, hrounded⟩ := DecimalText.exists_rounded
    (fun h => absurd (isInt64_integerText.1 h).2 (not_lt.2 hlow)) hlt hsign
  rw [value_integerText] at hrounded
  exact ⟨x, hread, hrounded⟩

theorem toNat_lt_of_isNumeral {c : Char} (h : DecimalText.IsNumeral c) : c.toNat < 128 := by
  rcases h with hdigit | rfl | rfl
  · have hnine : c.toNat ≤ '9'.toNat := (Char.isDigit_iff_toNat.1 hdigit).2
    exact hnine.trans_lt (by decide)
  · decide
  · decide

/-- A column of numbers reads the text of a whole number as a decimal one. -/
theorem cell_integerBytes (hcolumn : column.type.isNumber = true) (zeros : Nat) (n : Int) :
    cell column (.bytes (integerBytes zeros n)) = .ofDecimal (integerText zeros n).text := by
  have hascii : ∀ c ∈ (integerText zeros n).chars, c.toNat < 128 :=
    fun c hc => toNat_lt_of_isNumeral ((integerText zeros n).isNumeral_chars c hc)
  rw [cell, ofBytes, if_pos hcolumn, integerBytes, Text.decode?_asciiBytes hascii]
  rfl

theorem cell_of_isInteger (h : v.IsInteger n) : cell column v = .int n := by
  cases h <;> rfl

/-- In both protocols a whole number of 64 bits with sign is read as itself. An unsigned number beyond is read as itself
in the binary protocol, but in the text protocol as the floating-point number that it is rounded to, which has another
value unless the last eleven bits of the number are zero. -/
theorem cell_integer (hcolumn : column.type.isNumber = true) (hv : v.IsInteger n) (zeros : Nat) :
    cell column v = .int n ∧ (cell column (.bytes (integerBytes zeros n)) = cell column v ↔ n < 2 ^ 63) ∧
      (2 ^ 63 ≤ n → ∃ x : Float, cell column (.bytes (integerBytes zeros n)) = .float x ∧ RoundedTo n x ∧
        ((Binary.ofFloat x).value = n ↔ (2048 : Int) ∣ n)) := by
  have hlow : -2 ^ 63 ≤ n := by cases hv <;> omega
  have hhigh : n < 2 ^ 64 := by cases hv <;> omega
  rw [cell_integerBytes hcolumn, cell_of_isInteger hv]
  refine ⟨rfl, ⟨fun heq => ?_, ofDecimal_integerText zeros hlow⟩, fun hlarge => ?_⟩
  · by_contra hlarge
    obtain ⟨x, hread, -⟩ := exists_rounded_integerText zeros (not_lt.1 hlarge) hhigh
    cases heq.symm.trans hread
  · obtain ⟨x, hread, hrounded⟩ := exists_rounded_integerText zeros hlarge hhigh
    exact ⟨x, hread, hrounded, hrounded.value_eq_iff hlarge hhigh⟩

def longColumn : Column :=
  ⟨.longlong, binaryCollation⟩

theorem cell_integer_odd : longColumn.type.isNumber = true ∧
    Value.IsInteger (.uint 9223372036854775809) 9223372036854775809 ∧
    cell longColumn (.uint 9223372036854775809) = .int 9223372036854775809 ∧
    ∃ x : Float, cell longColumn (.bytes (integerBytes 0 9223372036854775809)) = .float x ∧
      (Binary.ofFloat x).value ≠ (9223372036854775809 : Int) := by
  have hcolumn : longColumn.type.isNumber = true := rfl
  have hv : Value.IsInteger (.uint 9223372036854775809) 9223372036854775809 := .unsigned (by decide)
  obtain ⟨hint, -, hfloat⟩ := cell_integer hcolumn hv 0
  obtain ⟨x, hread, -, hvalue⟩ := hfloat (by decide)
  exact ⟨hcolumn, hv, hint, x, hread, fun heq => absurd (hvalue.1 heq) (by decide)⟩

/-- The greatest unsigned number of 64 bits is not the same in both protocols. -/
theorem cell_greatest_ne : cell longColumn (.bytes (integerBytes 0 18446744073709551615)) ≠
    cell longColumn (.uint 18446744073709551615) := by
  have hbytes : (cell longColumn (.bytes (integerBytes 0 18446744073709551615))).compact =
      "1.8446744073709552e+19" := by decide +kernel
  intro heq
  rw [heq] at hbytes
  revert hbytes
  decide +kernel

end Wire.MySql

end SemanticLayer
