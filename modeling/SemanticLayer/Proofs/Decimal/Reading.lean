import SemanticLayer.Proofs.Decimal.Literal
import SemanticLayer.Proofs.Decimal.Packing
/-!
Decimal numbers are read as the nearest floating-point numbers, whichever way their size lets them be computed.
-/
namespace SemanticLayer.Decimal

open Float.Model

variable {m k : Nat}

/-! ## Short numbers -/

def tenPower (k : Nat) : Binary :=
  ⟨false, 10 ^ k * 2 ^ 52 / 2 ^ (10 ^ k).log2, ((10 ^ k).log2 : Int) - 52⟩

theorem exactlyRepresentablePowersOfTen_eq (hk : k < Float.exactlyRepresentablePowersOfTen.size) :
    Float.exactlyRepresentablePowersOfTen[k] = (tenPower k).packed := by
  have hall : ∀ k : Fin 23, Float.exactlyRepresentablePowersOfTen[Fin.val k] = (tenPower k).packed := by
    decide +kernel
  exact hall ⟨k, hk⟩

theorem tenPower_spec (hk : k ≤ 22) :
    (tenPower k).Canonical ∧ 2 ^ 52 ≤ (tenPower k).mantissa ∧ (tenPower k).size = 10 ^ k := by
  have hdvd : ∀ k < 23, 2 ^ (10 ^ k).log2 * (10 ^ k * 2 ^ 52 / 2 ^ (10 ^ k).log2) = 10 ^ k * 2 ^ 52 := by decide
  have hcanonical : ∀ k < 23, (tenPower k).mantissa < 2 ^ 53 ∧ Binary.leastExponent ≤ (tenPower k).exponent ∧
      (tenPower k).exponent ≤ 971 ∧ 2 ^ 52 ≤ (tenPower k).mantissa := by decide
  obtain ⟨hlt, hleast, hgreatest, hlong⟩ := hcanonical k (Nat.lt_succ_of_le hk)
  refine ⟨⟨hlt, hleast, hgreatest, .inr hlong⟩, hlong, ?_⟩
  have hvalue : (2 : ℚ) ^ (10 ^ k).log2 * (tenPower k).mantissa = 10 ^ k * 2 ^ 52 := by
    exact_mod_cast hdvd k (Nat.lt_succ_of_le hk)
  have hexponent : (tenPower k).exponent = ((10 ^ k).log2 : Int) - 52 := rfl
  rw [Binary.size, hexponent, zpow_sub₀ (by norm_num), zpow_natCast, mul_div_assoc', mul_comm, hvalue,
    div_eq_iff (by positivity)]
  norm_num

def wholeParts (m : Nat) : Binary :=
  ⟨false, m * 2 ^ (52 - m.log2), -(52 - m.log2 : Nat)⟩

theorem toFloat_eq (hpos : 0 < m) (hlt : m < 2 ^ 53) : m.toUInt64.toFloat = (wholeParts m).packed := by
  have htoNat : m.toUInt64.toNat = m := UInt64.toNat_ofNat_of_lt' (by rw [UInt64.size]; omega)
  change Float.ofModel (.pack (UnpackedFloat.ofNat _ m.toUInt64.toNat)) = _
  rw [htoNat, ofNat_eq hpos hlt]
  rfl

theorem wholeParts_spec (hpos : 0 < m) (hlt : m < 2 ^ 53) : (wholeParts m).Canonical ∧
    2 ^ 52 ≤ (wholeParts m).mantissa ∧ (wholeParts m).size = m := by
  have hlog := log2_le_of_lt hlt
  have hlong : 2 ^ 52 ≤ m * 2 ^ (52 - m.log2) := by
    calc 2 ^ 52 = 2 ^ m.log2 * 2 ^ (52 - m.log2) := by rw [← pow_add]; congr 1; omega
      _ ≤ m * 2 ^ (52 - m.log2) := Nat.mul_le_mul_right _ (Nat.log2_self_le hpos.ne')
  refine ⟨⟨shifted_lt hlog, ?_, ?_, .inr hlong⟩, hlong, ?_⟩
  · change (-1074 : Int) ≤ -(52 - m.log2 : Nat)
    omega
  · change -((52 - m.log2 : Nat) : Int) ≤ 971
    omega
  · change ((m * 2 ^ (52 - m.log2) : Nat) : ℚ) * 2 ^ (-((52 - m.log2 : Nat) : Int)) = m
    push_cast
    rw [zpow_neg, zpow_natCast, mul_assoc, mul_inv_cancel₀ (by positivity), mul_one]

/-! ## All numbers -/

/-- The power of ten that a number is multiplied with. -/
def scientificExponent (negative : Bool) (k : Nat) : Int :=
  bif negative then -(k : Int) else k

theorem rounded_ofScientific (hpos : 0 < m) (negative : Bool) (k : Nat) :
    Binary.Rounded (m * 10 ^ scientificExponent negative k) (Float.ofScientific m negative k) := by
  rw [Float.ofScientific]
  split
  · rename_i hshort
    obtain ⟨hlt, hk⟩ := hshort
    obtain ⟨hm, hmlong, hmvalue⟩ := wholeParts_spec hpos hlt
    obtain ⟨hten, htenlong, htenvalue⟩ := tenPower_spec hk
    have hmpos : 0 < (wholeParts m).mantissa := by omega
    have htenpos : 0 < (tenPower k).mantissa := lt_of_lt_of_le (by decide) htenlong
    have hlong : 2 ^ 52 ≤ (wholeParts m).mantissa * (tenPower k).mantissa :=
      hmlong.trans (Nat.le_mul_of_pos_right _ htenpos)
    have hindex : k < Float.exactlyRepresentablePowersOfTen.size := Nat.lt_succ_of_le hk
    change Binary.Rounded _ (if negative = true then m.toUInt64.toFloat / Float.exactlyRepresentablePowersOfTen[k]
      else m.toUInt64.toFloat * Float.exactlyRepresentablePowersOfTen[k])
    rw [toFloat_eq hpos hlt, exactlyRepresentablePowersOfTen_eq]
    cases negative with
    | true =>
        have hrounded := Binary.rounded_div hm hten rfl rfl hmpos htenpos
        rwa [hmvalue, htenvalue, div_eq_mul_inv, ← zpow_natCast, ← zpow_neg] at hrounded
    | false =>
        have hrounded := Binary.rounded_mul hm hten rfl rfl hmpos htenpos hlong
        rwa [hmvalue, htenvalue, ← zpow_natCast] at hrounded
  · have hexponent : (if negative = true then Int.negOfNat k else Int.ofNat k) = scientificExponent negative k := by
      cases negative
      · rfl
      · exact Int.negOfNat_eq
    simp only [hexponent]
    change Binary.Rounded _ (.ofModel (.pack (UnpackedFloat.ofScientific _ m _)))
    rcases ofScientific_eq hpos (scientificExponent negative k) with ⟨n, d, hrounds, hresult⟩ | ⟨hlarge, hresult⟩
    · rw [hresult]
      exact Binary.rounded_of_roundsTo hrounds
    · rw [hresult]
      exact .infinite (limit_lt.le.trans hlarge)

namespace Literal

theorem toFloat_of_zero {l : Literal} (h : l.mantissa = 0) :
    l.toFloat = Binary.packed ⟨false, 0, Binary.leastExponent⟩ := by
  rw [toFloat, if_pos h]
  decide

theorem rounded_toFloat {l : Literal} (h : l.mantissa ≠ 0) : Binary.Rounded l.value l.toFloat := by
  have hexponent : scientificExponent (decide (l.exponent < 0)) l.exponent.natAbs = l.exponent := by
    rw [scientificExponent]
    rcases lt_or_ge l.exponent 0 with hneg | hnonneg
    · simp only [hneg, decide_true, cond_true]
      omega
    · simp only [not_lt.2 hnonneg, decide_false, cond_false]
      omega
  have hrounded := rounded_ofScientific (Nat.pos_of_ne_zero h) (l.exponent < 0) l.exponent.natAbs
  rw [hexponent] at hrounded
  rw [toFloat, if_neg h]
  exact hrounded

end Literal

end SemanticLayer.Decimal
