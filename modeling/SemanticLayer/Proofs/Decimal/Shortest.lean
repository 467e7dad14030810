import SemanticLayer.Decimal.Shortest
import SemanticLayer.Proofs.Decimal.Packing
/-!
The digits with which a floating-point number is written are rounded to that number.
-/
namespace SemanticLayer.Decimal

variable {b : Binary} {r : Rounding} {x : ℚ} {e : Int}

def Scaled.value (s : Scaled) : ℚ :=
  s.digits * 10 ^ s.exponent

namespace Rounding

/-- Whether a number lies in an interval. -/
structure Holds (r : Rounding) (x : ℚ) : Prop where
  low_le : r.low ≤ x * r.denominator
  le_high : x * r.denominator ≤ r.high
  inside : r.closed = false → r.low < x * r.denominator ∧ x * r.denominator < r.high

/-! ## Points of a grid -/

theorem ten_zpow_mul (e : Int) : (10 : ℚ) ^ e * (10 ^ (-e).toNat : Nat) = (10 ^ e.toNat : Nat) := by
  push_cast
  rw [← zpow_natCast, ← zpow_natCast, ← zpow_add₀ (by norm_num)]
  congr 1
  omega

/-- A point of a grid is compared with both ends over a common denominator. -/
theorem holds_of_admits {point : Nat}
    (h : admits { r with
      value := r.value * Nat.pow 10 (-e).toNat
      low := r.low * Nat.pow 10 (-e).toNat
      high := r.high * Nat.pow 10 (-e).toNat } (point * (r.denominator * Nat.pow 10 e.toNat)) = true) :
    r.Holds (point * 10 ^ e) := by
  have hup : (0 : ℚ) < (10 ^ (-e).toNat : Nat) := by positivity
  have hpoint : ((point * (r.denominator * 10 ^ e.toNat) : Nat) : ℚ) =
      point * 10 ^ e * r.denominator * (10 ^ (-e).toNat : Nat) := by
    rw [Nat.cast_mul, Nat.cast_mul, ← ten_zpow_mul]
    ring
  have hle (n : Nat) : n * 10 ^ (-e).toNat ≤ point * (r.denominator * 10 ^ e.toNat) ↔
      (n : ℚ) ≤ point * 10 ^ e * r.denominator := by
    rw [← Nat.cast_le (α := ℚ), hpoint, Nat.cast_mul, mul_le_mul_iff_left₀ hup]
  have hge (n : Nat) : point * (r.denominator * 10 ^ e.toNat) ≤ n * 10 ^ (-e).toNat ↔
      point * 10 ^ e * r.denominator ≤ (n : ℚ) := by
    rw [← Nat.cast_le (α := ℚ), hpoint, Nat.cast_mul, mul_le_mul_iff_left₀ hup]
  simp only [admits, Nat.pow_eq] at h
  split at h
  · rename_i hclosed
    simp only [Bool.and_eq_true, decide_eq_true_eq, hle, hge] at h
    exact ⟨h.1, h.2, fun hopen => by rw [hclosed] at hopen; cases hopen⟩
  · simp only [Bool.and_eq_true, decide_eq_true_eq, ← not_le, hle, hge] at h
    simp only [not_le] at h
    exact ⟨h.1.le, h.2.le, fun _ => h⟩

theorem holds_of_onGrid {point : Nat} (h : r.onGrid e = some point) : r.Holds (point * 10 ^ e) := by
  rw [onGrid] at h
  simp only [Bool.and_eq_true, decide_eq_true_eq] at h
  split at h
  · rename_i hboth
    have hbelow := holds_of_admits hboth.1.2
    have habove := holds_of_admits hboth.2
    split at h
    · obtain rfl := Option.some.inj h
      exact hbelow
    · split at h
      · obtain rfl := Option.some.inj h
        exact habove
      · split at h <;> obtain rfl := Option.some.inj h
        · exact hbelow
        · exact habove
  · split at h
    · rename_i hbelow
      obtain rfl := Option.some.inj h
      exact holds_of_admits hbelow.2
    · split at h
      · rename_i habove
        obtain rfl := Option.some.inj h
        exact holds_of_admits habove
      · cases h

theorem value_ofPoint (point : Nat) (e : Int) : (Scaled.ofPoint point e).value = point * 10 ^ e := by
  rw [Scaled.ofPoint]
  split
  · rename_i hten
    rw [Scaled.value, hten, zpow_add_one₀ (by norm_num)]
    push_cast
    ring
  · rfl

theorem holds_search {lead : Int} {steps : Nat} (h : (r.search lead steps).digits ≠ 0) :
    r.Holds (r.search lead steps).value := by
  induction steps with
  | zero => exact absurd rfl h
  | succ steps ih =>
      rw [search] at h ⊢
      cases hpoint : r.onGrid (lead - (16 - steps : Nat)) with
      | some point =>
          simp only [value_ofPoint]
          exact holds_of_onGrid hpoint
      | none =>
          simp only [hpoint] at h ⊢
          exact ih h

/-! ## The interval that is rounded to a number -/

/-- In quarters of the last place of the mantissa, how far an interval reaches below its number. -/
def reach (b : Binary) : Nat :=
  if b.mantissa = 2 ^ 52 ∧ Binary.leastExponent < b.exponent then 1 else 2

theorem Holds.bounds (h : (ofBinary b).Holds x) (hpos : 0 < b.mantissa) :
    4 * (b.mantissa : ℚ) - reach b ≤ 4 * (x / 2 ^ b.exponent) ∧
      4 * (x / 2 ^ b.exponent) ≤ 4 * b.mantissa + 2 ∧
      (b.mantissa % 2 = 1 → 4 * (b.mantissa : ℚ) - reach b < 4 * (x / 2 ^ b.exponent) ∧
        4 * (x / 2 ^ b.exponent) < 4 * b.mantissa + 2) := by
  obtain ⟨scale, hscale⟩ : ∃ scale : ℚ, scale = (2 ^ (b.exponent - 2).toNat : Nat) := ⟨_, rfl⟩
  have hscalepos : 0 < scale := by
    rw [hscale]
    positivity
  have hx : x * (2 ^ (2 - b.exponent).toNat : Nat) = 4 * (x / 2 ^ b.exponent) * scale := by
    have hpow : (2 : ℚ) ^ b.exponent * (2 ^ (2 - b.exponent).toNat : Nat) = 4 * scale := by
      rw [hscale]
      push_cast
      rw [← zpow_natCast, ← zpow_natCast, ← zpow_add₀ (by norm_num), show (4 : ℚ) = 2 ^ (2 : Int) by norm_num,
        ← zpow_add₀ (by norm_num)]
      congr 1
      omega
    have hexp : (2 : ℚ) ^ b.exponent ≠ 0 := (zpow_pos (by norm_num) _).ne'
    rw [mul_comm 4, mul_assoc, ← hpow, ← mul_assoc, div_mul_cancel₀ _ hexp]
  have hlow : ((ofBinary b).low : ℚ) = (4 * b.mantissa - reach b) * scale := by
    have hreach : reach b ≤ 4 * b.mantissa := by
      rw [reach]
      split <;> omega
    rw [hscale]
    exact_mod_cast congrArg (fun n : Nat => (n : ℚ)) (show (ofBinary b).low = _ from rfl)
  have hhigh : ((ofBinary b).high : ℚ) = (4 * b.mantissa + 2) * scale := by
    rw [hscale]
    exact_mod_cast congrArg (fun n : Nat => (n : ℚ)) (show (ofBinary b).high = _ from rfl)
  have hdenominator : (ofBinary b).denominator = 2 ^ (2 - b.exponent).toNat := rfl
  obtain ⟨hlow', hhigh', hinside⟩ := h
  rw [hdenominator, hx, hlow, hhigh] at *
  refine ⟨le_of_mul_le_mul_right hlow' hscalepos, le_of_mul_le_mul_right hhigh' hscalepos, fun hodd => ?_⟩
  obtain ⟨hlow'', hhigh''⟩ := hinside (by simp [ofBinary, hodd])
  exact ⟨lt_of_mul_lt_mul_right hlow'' hscalepos.le, lt_of_mul_lt_mul_right hhigh'' hscalepos.le⟩

theorem reach_le (b : Binary) : reach b ≤ 2 := by
  rw [reach]
  split <;> omega

theorem Holds.nearest (h : (ofBinary b).Holds x) (hpos : 0 < b.mantissa) :
    Nearest (x / 2 ^ b.exponent) b.mantissa := by
  obtain ⟨hlow, hhigh, hodd⟩ := h.bounds hpos
  have hreach : (reach b : ℚ) ≤ 2 := by exact_mod_cast reach_le b
  refine ⟨abs_le.2 ⟨by linarith, by linarith⟩, fun htie => ?_⟩
  rcases Nat.mod_two_eq_zero_or_one b.mantissa with heven | hone
  · exact heven
  · obtain ⟨hlow', hhigh'⟩ := hodd hone
    have hinside : |x / 2 ^ b.exponent - b.mantissa| < 1 / 2 := abs_lt.2 ⟨by linarith, by linarith⟩
    exact absurd htie hinside.ne

/-- Only the least mantissa of a binade has numbers of the binade below in its interval. -/
theorem Holds.mantissa_of_lt (h : (ofBinary b).Holds x) (hb : b.Canonical) (hpos : 0 < b.mantissa)
    (hleast : b.exponent ≠ Binary.leastExponent) (hless : x / 2 ^ b.exponent < 2 ^ 52) :
    b.mantissa = 2 ^ 52 ∧ 2 ^ 52 - 1 / 4 ≤ x / 2 ^ b.exponent := by
  obtain ⟨hlow, -, -⟩ := h.bounds hpos
  have hlong : 2 ^ 52 ≤ b.mantissa := hb.normal.resolve_left hleast
  have hreach : (reach b : ℚ) ≤ 2 := by exact_mod_cast reach_le b
  have hmantissa : b.mantissa = 2 ^ 52 := by
    by_contra hne
    have hmore : ((2 ^ 52 + 1 : Nat) : ℚ) ≤ b.mantissa := by exact_mod_cast (by omega : 2 ^ 52 + 1 ≤ b.mantissa)
    push_cast at hmore
    linarith
  have hone : reach b = 1 := if_pos ⟨hmantissa, lt_of_le_of_ne hb.least (Ne.symm hleast)⟩
  refine ⟨hmantissa, ?_⟩
  rw [hone, hmantissa] at hlow
  push_cast at hlow
  linarith

/-- A number right below the least one of a binade is rounded up to that one. -/
theorem roundsTo_carried (hleast : Binary.leastExponent < e) (hlow : 2 ^ 52 - 1 / 4 ≤ x / 2 ^ e)
    (hless : x / 2 ^ e < 2 ^ 52) : RoundsTo x (2 ^ 52) e := by
  have hpow : (0 : ℚ) < 2 ^ (e - 1) := zpow_pos (by norm_num) _
  have hscaled : x / 2 ^ (e - 1) = 2 * (x / 2 ^ e) := by
    have hdouble : (2 : ℚ) ^ e = 2 * 2 ^ (e - 1) := by
      rw [zpow_sub_one₀ (by norm_num)]
      ring
    rw [hdouble]
    field_simp
  have hbinade : Binade x (e - 1) := by
    refine ⟨by omega, ?_, .inr ?_⟩
    · rw [zpow_add₀ (by norm_num), ← div_lt_iff₀' hpow, hscaled]
      norm_num
      linarith
    · rw [zpow_add₀ (by norm_num), ← le_div_iff₀' hpow, hscaled]
      norm_num
      linarith
  have hnear : Nearest (x / 2 ^ (e - 1)) (2 ^ 53) := by
    refine ⟨?_, fun _ => by decide⟩
    rw [hscaled, abs_le]
    push_cast
    constructor <;> linarith
  have hcarried := RoundsTo.carried hbinade hnear
  rwa [sub_add_cancel] at hcarried

/-- What lies in the interval of a number is rounded to that number. -/
theorem Holds.roundsTo (h : (ofBinary b).Holds x) (hb : b.Canonical) (hpos : 0 < b.mantissa) :
    RoundsTo x b.mantissa b.exponent := by
  by_cases hbelow : b.exponent ≠ Binary.leastExponent ∧ x / 2 ^ b.exponent < 2 ^ 52
  · obtain ⟨hleast, hless⟩ := hbelow
    obtain ⟨hmantissa, hlow⟩ := h.mantissa_of_lt hb hpos hleast hless
    rw [hmantissa]
    exact roundsTo_carried (lt_of_le_of_ne hb.least (Ne.symm hleast)) hlow hless
  · have hpow : (0 : ℚ) < 2 ^ b.exponent := zpow_pos (by norm_num) _
    have hbinade : Binade x b.exponent := by
      refine ⟨hb.least, ?_, ?_⟩
      · obtain ⟨-, hhigh, -⟩ := h.bounds hpos
        have hle : (b.mantissa : ℚ) + 1 ≤ 2 ^ 53 := by exact_mod_cast hb.mantissa_lt
        rw [zpow_add₀ (by norm_num), ← div_lt_iff₀' hpow]
        norm_num
        linarith
      · by_cases hleast : b.exponent = Binary.leastExponent
        · exact .inl hleast
        · right
          rw [zpow_add₀ (by norm_num), ← le_div_iff₀' hpow]
          norm_num
          by_contra hless
          exact hbelow ⟨hleast, by linarith⟩
    exact .within hbinade (h.nearest hpos) hb.mantissa_lt

end Rounding

/-- The digits that are written for a number are rounded to it. -/
theorem roundsTo_shortest (hb : b.Canonical) (hpos : 0 < b.mantissa) (h : (shortest b).digits ≠ 0) :
    RoundsTo (shortest b).value b.mantissa b.exponent :=
  (Rounding.holds_search h).roundsTo hb hpos

end SemanticLayer.Decimal
