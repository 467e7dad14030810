import Mathlib
import SemanticLayer.Decimal.Binary
/-!
Rounding a positive number to the nearest floating-point number: what it means for rational numbers, and that products
and quotients of whole numbers are rounded so.
-/
namespace SemanticLayer.Decimal

open Float.Model Float.Model.UnpackedFloat

/-! ## The nearest floating-point number -/

/-- The whole number nearest to a rational one, of two such numbers the even one. -/
structure Nearest (x : ℚ) (n : Nat) : Prop where
  near : |x - n| ≤ 1 / 2
  even : |x - n| = 1 / 2 → n % 2 = 0

/-- The power of two by which the floating-point numbers around a positive number lie apart. -/
structure Binade (v : ℚ) (e : Int) : Prop where
  least : Binary.leastExponent ≤ e
  lt : v < 2 ^ (e + 53)
  normal : e = Binary.leastExponent ∨ 2 ^ (e + 52) ≤ v

/-- The mantissa and the exponent to which a positive number is rounded, without a bound for the exponent. -/
inductive RoundsTo (v : ℚ) : Nat → Int → Prop
  | within {n : Nat} {e : Int} (hbinade : Binade v e) (hnear : Nearest (v / 2 ^ e) n) (hlt : n < 2 ^ 53) :
      RoundsTo v n e
  | carried {e : Int} (hbinade : Binade v e) (hnear : Nearest (v / 2 ^ e) (2 ^ 53)) : RoundsTo v (2 ^ 52) (e + 1)

variable {v x : ℚ} {m n : Nat} {d e : Int} {a : Accuracy} {s : Sign}

theorem Nearest.unique (hm : Nearest x m) (hn : Nearest x n) : m = n := by
  obtain ⟨hmlow, hmhigh⟩ := abs_le.1 hm.near
  obtain ⟨hnlow, hnhigh⟩ := abs_le.1 hn.near
  rcases Nat.lt_trichotomy m n with hlt | heq | hgt
  · have hnext : (m : ℚ) + 1 ≤ n := by exact_mod_cast hlt
    have hmtie := hm.even (by rw [abs_of_nonneg] <;> linarith)
    have hntie := hn.even (by rw [abs_of_nonpos] <;> linarith)
    have hsame : (n : ℚ) = (m + 1 : Nat) := by
      push_cast
      linarith
    have hsame' := Nat.cast_injective hsame
    omega
  · exact heq
  · have hnext : (n : ℚ) + 1 ≤ m := by exact_mod_cast hgt
    have hmtie := hm.even (by rw [abs_of_nonpos] <;> linarith)
    have hntie := hn.even (by rw [abs_of_nonneg] <;> linarith)
    have hsame : (m : ℚ) = (n + 1 : Nat) := by
      push_cast
      linarith
    have hsame' := Nat.cast_injective hsame
    omega

theorem Binade.le_of_pow_le (h : Binade v e) (hv : 2 ^ (d + 52) ≤ v) : d ≤ e := by
  have hlt := (zpow_lt_zpow_iff_right₀ (by norm_num : (1 : ℚ) < 2)).1 (hv.trans_lt h.lt)
  omega

theorem Binade.unique (hd : Binade v d) (he : Binade v e) : d = e := by
  rcases hd.normal with hdleast | hdnormal
  · rcases he.normal with heleast | henormal
    · rw [hdleast, heleast]
    · have hle := hd.le_of_pow_le henormal
      have hleast := he.least
      omega
  · have hle := he.le_of_pow_le hdnormal
    rcases he.normal with heleast | henormal
    · have hleast := hd.least
      omega
    · have hge := hd.le_of_pow_le henormal
      omega

theorem RoundsTo.unique (hm : RoundsTo v m d) (hn : RoundsTo v n e) : m = n ∧ d = e := by
  cases hm with
  | within hbinade hnear hlt =>
      cases hn with
      | within hbinade' hnear' hlt' =>
          obtain rfl := hbinade.unique hbinade'
          exact ⟨hnear.unique hnear', rfl⟩
      | carried hbinade' hnear' =>
          obtain rfl := hbinade.unique hbinade'
          exact absurd (hnear.unique hnear') (Nat.ne_of_lt hlt)
  | carried hbinade hnear =>
      cases hn with
      | within hbinade' hnear' hlt' =>
          obtain rfl := hbinade.unique hbinade'
          exact absurd (hnear'.unique hnear) (Nat.ne_of_lt hlt')
      | carried hbinade' hnear' =>
          obtain rfl := hbinade.unique hbinade'
          exact ⟨rfl, rfl⟩

theorem Binade.scaled_lt (h : Binade v e) : v / 2 ^ e < 2 ^ 53 := by
  rw [div_lt_iff₀ (zpow_pos (by norm_num) e), mul_comm]
  exact_mod_cast (zpow_add₀ (two_ne_zero' ℚ) e 53) ▸ h.lt

theorem Binade.le_scaled (h : Binade v e) (hnormal : e ≠ Binary.leastExponent) : 2 ^ 52 ≤ v / 2 ^ e := by
  rw [le_div_iff₀ (zpow_pos (by norm_num) e), mul_comm]
  exact_mod_cast (zpow_add₀ (two_ne_zero' ℚ) e 52) ▸ h.normal.resolve_left hnormal

theorem RoundsTo.normal (h : RoundsTo v n d) :
    n < 2 ^ 53 ∧ Binary.leastExponent ≤ d ∧ (d = Binary.leastExponent ∨ 2 ^ 52 ≤ n) := by
  cases h with
  | within hbinade hnear hlt =>
      refine ⟨hlt, hbinade.least, ?_⟩
      by_cases hleast : d = Binary.leastExponent
      · exact .inl hleast
      · right
        have hle := hbinade.le_scaled hleast
        have hnear' := (abs_le.1 hnear.near).2
        have hbound : ((2 ^ 52 : Nat) : ℚ) < (n + 1 : Nat) := by
          push_cast
          linarith
        exact Nat.le_of_lt_succ (Nat.cast_lt.1 hbound)
  | carried hbinade _ =>
      have hleast := hbinade.least
      exact ⟨by decide, by omega, .inr le_rfl⟩

theorem Nearest.le (h : Nearest x n) (m : Nat) : |x - n| ≤ |x - m| := by
  obtain ⟨hlow, hhigh⟩ := abs_le.1 h.near
  rcases Nat.lt_trichotomy m n with hlt | rfl | hgt
  · have hnext : (m : ℚ) + 1 ≤ n := by exact_mod_cast hlt
    exact h.near.trans ((by linarith : (1 / 2 : ℚ) ≤ x - m).trans (le_abs_self _))
  · exact le_rfl
  · have hnext : (n : ℚ) + 1 ≤ m := by exact_mod_cast hgt
    exact h.near.trans ((by linarith : (1 / 2 : ℚ) ≤ -(x - m)).trans (neg_le_abs _))

theorem Nearest.even_of_tie (h : Nearest x n) (hne : m ≠ n) (htie : |x - m| = |x - n|) : n % 2 = 0 := by
  refine h.even (le_antisymm h.near ?_)
  have hone : (1 : ℚ) ≤ |(m : ℚ) - n| := by
    exact_mod_cast Int.one_le_abs (sub_ne_zero.2 (Int.ofNat_inj.not.2 hne))
  have htriangle := abs_sub_le (m : ℚ) x n
  rw [abs_sub_comm (m : ℚ) x, htie] at htriangle
  linarith

theorem abs_scaled_sub (j v : ℚ) (c : Int) : |j * 2 ^ c - v| = |v / 2 ^ c - j| * 2 ^ c := by
  have hpos : (0 : ℚ) < 2 ^ c := zpow_pos (by norm_num) c
  rw [abs_sub_comm, ← abs_of_pos hpos, ← abs_mul, abs_of_pos hpos, sub_mul, div_mul_cancel₀ _ hpos.ne']

/-- On the grid of its binade a number has a point at least as near as any floating-point number, and nearer unless it
is that number. -/
theorem Binade.exists_nearer {c : Int} (h : Binade v c) (hm : m < 2 ^ 53) (he : Binary.leastExponent ≤ e) :
    ∃ j : Nat, |j * 2 ^ c - v| ≤ |m * 2 ^ e - v| ∧
      (|j * 2 ^ c - v| = |m * 2 ^ e - v| → (j * 2 ^ c : ℚ) = m * 2 ^ e) := by
  rcases le_or_gt c e with hle | hlt
  · obtain ⟨i, hi⟩ : ∃ i : Nat, e = c + i := ⟨(e - c).toNat, by omega⟩
    have hpoint : ((m * 2 ^ i : Nat) * 2 ^ c : ℚ) = m * 2 ^ e := by
      rw [hi, zpow_add₀ (by norm_num), zpow_natCast]
      push_cast
      ring
    exact ⟨m * 2 ^ i, by rw [hpoint], fun _ => hpoint⟩
  · -- The number lies below the binade, whose least number is at least as near.
    have hleast : ((2 ^ 52 : Nat) * 2 ^ c : ℚ) ≤ v := by
      have hnormal := h.le_scaled (by omega)
      rw [le_div_iff₀ (zpow_pos (by norm_num) c)] at hnormal
      exact_mod_cast hnormal
    have hsmall : (m * 2 ^ e : ℚ) ≤ (2 ^ 52 : Nat) * 2 ^ c := by
      have hm' : (m : ℚ) ≤ 2 ^ 53 := by exact_mod_cast hm.le
      calc (m * 2 ^ e : ℚ) ≤ 2 ^ 53 * 2 ^ e := mul_le_mul_of_nonneg_right hm' (zpow_pos (by norm_num) e).le
        _ = (2 ^ 52 : Nat) * 2 ^ (e + 1) := by
            rw [zpow_add_one₀ (by norm_num)]
            push_cast
            ring
        _ ≤ (2 ^ 52 : Nat) * 2 ^ c :=
            mul_le_mul_of_nonneg_left (zpow_le_zpow_right₀ (by norm_num) (by omega)) (by norm_num)
    refine ⟨2 ^ 52, ?_⟩
    rw [abs_of_nonpos (sub_nonpos.2 hleast), abs_of_nonpos (sub_nonpos.2 (hsmall.trans hleast))]
    exact ⟨by linarith, fun heq => by linarith⟩

/-- The number that is rounded to is the nearest point on the grid of the binade. -/
theorem RoundsTo.exists_nearest (h : RoundsTo v n d) : ∃ (c : Int) (k : Nat), Binade v c ∧ Nearest (v / 2 ^ c) k ∧
    (n * 2 ^ d : ℚ) = k * 2 ^ c ∧ (k % 2 = 0 → n % 2 = 0) := by
  cases h with
  | within hbinade hnear _ => exact ⟨d, n, hbinade, hnear, rfl, id⟩
  | @carried c hbinade hnear =>
      refine ⟨c, 2 ^ 53, hbinade, hnear, ?_, fun _ => rfl⟩
      rw [zpow_add_one₀ (by norm_num)]
      push_cast
      ring

/-- No floating-point number lies nearer. -/
theorem RoundsTo.nearest (h : RoundsTo v n d) (hm : m < 2 ^ 53) (he : Binary.leastExponent ≤ e) :
    |n * 2 ^ d - v| ≤ |m * 2 ^ e - v| := by
  obtain ⟨c, k, hbinade, hnear, hvalue, -⟩ := h.exists_nearest
  obtain ⟨j, hle, -⟩ := hbinade.exists_nearer hm he
  refine le_trans ?_ hle
  rw [hvalue, abs_scaled_sub, abs_scaled_sub]
  exact mul_le_mul_of_nonneg_right (hnear.le j) (zpow_pos (by norm_num) c).le

/-- Of two floating-point numbers that lie equally near the one that is rounded to is even. -/
theorem RoundsTo.even_of_tie (h : RoundsTo v n d) (hm : m < 2 ^ 53) (he : Binary.leastExponent ≤ e)
    (hne : (m * 2 ^ e : ℚ) ≠ n * 2 ^ d) (htie : |m * 2 ^ e - v| = |n * 2 ^ d - v|) : n % 2 = 0 := by
  obtain ⟨c, k, hbinade, hnear, hvalue, heven⟩ := h.exists_nearest
  obtain ⟨j, hle, hsame⟩ := hbinade.exists_nearer hm he
  have hpos : (0 : ℚ) < 2 ^ c := zpow_pos (by norm_num) c
  rw [htie, hvalue, abs_scaled_sub, abs_scaled_sub] at hle
  have heq : |v / 2 ^ c - j| = |v / 2 ^ c - k| :=
    le_antisymm (le_of_mul_le_mul_right hle hpos) (hnear.le j)
  refine heven (hnear.even_of_tie (m := j) ?_ heq)
  rintro rfl
  exact hne ((hsame (by rw [htie, hvalue])).symm.trans hvalue.symm)

/-- From here on numbers are rounded to infinity: halfway behind the greatest floating-point number. -/
def limit : ℚ :=
  2 ^ (1024 : Int) - 2 ^ (970 : Int)

theorem limit_eq : limit = (2 ^ 53 - 1 / 2) * 2 ^ (971 : Int) := by
  rw [limit, show (1024 : Int) = 53 + 971 by rfl, show (970 : Int) = -1 + 971 by rfl, zpow_add₀ (by norm_num),
    zpow_add₀ (by norm_num), ← sub_mul]
  norm_num

theorem limit_lt : limit < 2 ^ (1024 : Int) :=
  sub_lt_self _ (zpow_pos (by norm_num) _)

theorem lt_limit : (2 : ℚ) ^ (1023 : Int) < limit := by
  have hpow : (2 : ℚ) ^ (970 : Int) < 2 ^ (1023 : Int) := (zpow_lt_zpow_iff_right₀ (by norm_num)).2 (by decide)
  have hdouble : (2 : ℚ) ^ (1024 : Int) = 2 * 2 ^ (1023 : Int) := by
    rw [show (1024 : Int) = 1 + 1023 by rfl, zpow_add₀ (by norm_num), zpow_one]
  rw [limit, hdouble, two_mul, lt_sub_iff_add_lt]
  exact (add_lt_add_iff_left _).2 hpow

theorem lt_limit_iff : v < limit ↔ v / 2 ^ (971 : Int) < 2 ^ 53 - 1 / 2 := by
  rw [limit_eq, div_lt_iff₀ (zpow_pos (by norm_num) _)]

theorem Binade.lt_limit_of_lt (h : Binade v e) (he : e < 971) : v < limit := by
  have hpow : (2 : ℚ) ^ (e + 53) ≤ 2 ^ (1023 : Int) := zpow_le_zpow_right₀ (by norm_num) (by omega)
  exact h.lt.trans_le (hpow.trans lt_limit.le)

theorem Binade.exponent_le (h : Binade v e) (hv : v < limit) : e ≤ 971 := by
  rcases h.normal with rfl | hpow
  · decide
  · have hlt := (zpow_lt_zpow_iff_right₀ (by norm_num : (1 : ℚ) < 2)).1 ((hpow.trans_lt hv).trans limit_lt)
    omega

/-- Halfway between two whole numbers the odd one is not taken. -/
theorem Nearest.lt_of_odd (h : Nearest x n) (hodd : n % 2 = 1) : x < n + 1 / 2 := by
  have hle := (abs_le.1 h.near).2
  refine lt_of_le_of_ne (by linarith) fun htie => ?_
  have heven := h.even (by rw [htie, add_sub_cancel_left, abs_of_pos (by norm_num)])
  omega

theorem Nearest.lt_of_lt (h : Nearest x n) (hn : n < 2 ^ 53) : x < 2 ^ 53 - 1 / 2 := by
  rcases Nat.lt_or_ge n (2 ^ 53 - 1) with hless | hge
  · have hn' : (n : ℚ) + 2 ≤ (2 ^ 53 : Nat) := by exact_mod_cast (by omega : n + 2 ≤ 2 ^ 53)
    have hle := (abs_le.1 h.near).2
    push_cast at hn'
    linarith
  · obtain rfl : n = 2 ^ 53 - 1 := by omega
    have hlt := h.lt_of_odd (by decide)
    norm_num at hlt ⊢
    exact hlt

theorem RoundsTo.exponent_le_iff (h : RoundsTo v n d) : d ≤ 971 ↔ v < limit := by
  cases h with
  | within hbinade hnear hlt =>
      refine ⟨fun hd => ?_, hbinade.exponent_le⟩
      rcases lt_or_eq_of_le hd with hless | rfl
      · exact hbinade.lt_limit_of_lt hless
      · exact lt_limit_iff.2 (hnear.lt_of_lt hlt)
  | carried hbinade hnear =>
      rename_i e
      refine ⟨fun hd => hbinade.lt_limit_of_lt (by omega), fun hv => ?_⟩
      rcases lt_or_eq_of_le (hbinade.exponent_le hv) with hless | rfl
      · omega
      · have hle := (abs_le.1 hnear.near).1
        have hlt := lt_limit_iff.1 hv
        generalize v / 2 ^ (971 : Int) = x at hle hlt
        push_cast at hle
        linarith

/-! ## Digits that are cut off -/

/-- Where a number lies behind a whole one, as far as rounding asks. -/
def Lies (x : ℚ) (m : Nat) : Accuracy → Prop
  | .exact => x = m
  | .inexact .lt => m < x ∧ x < m + 1 / 2
  | .inexact .eq => x = m + 1 / 2
  | .inexact .gt => m + 1 / 2 < x ∧ x < m + 1

theorem Lies.bounds (h : Lies x m a) : m ≤ x ∧ x < m + 1 := by
  match a, h with
  | .exact, h => constructor <;> linarith [show x = m from h]
  | .inexact .lt, h => constructor <;> linarith [h.1, h.2]
  | .inexact .eq, h => constructor <;> linarith [show x = m + 1 / 2 from h]
  | .inexact .gt, h => constructor <;> linarith [h.1, h.2]

theorem Lies.nearest (h : Lies x m a) : Nearest x (a.roundToNearestEven m) := by
  match a, h with
  | .exact, h =>
      have hx : x = m := h
      constructor <;> simp [Accuracy.roundToNearestEven, hx]
  | .inexact .lt, ⟨hlow, hhigh⟩ =>
      have hnear : |x - m| < 1 / 2 := abs_lt.2 ⟨by linarith, by linarith⟩
      exact ⟨hnear.le, fun htie => absurd htie hnear.ne⟩
  | .inexact .eq, h =>
      have hx : x = m + 1 / 2 := h
      rcases Nat.mod_two_eq_zero_or_one m with hm | hm
      · refine ⟨?_, fun _ => ?_⟩
        · simp only [Accuracy.roundToNearestEven, hm, hx, add_zero, add_sub_cancel_left]
          norm_num [abs_of_pos]
        · simp [Accuracy.roundToNearestEven, hm]
      · refine ⟨?_, fun _ => ?_⟩
        · simp only [Accuracy.roundToNearestEven, hm, hx]
          push_cast
          rw [abs_of_nonpos] <;> linarith
        · simp only [Accuracy.roundToNearestEven, hm]
          omega
  | .inexact .gt, ⟨hlow, hhigh⟩ =>
      have hnear : |x - (m + 1 : Nat)| < 1 / 2 := by
        push_cast
        exact abs_lt.2 ⟨by linarith, by linarith⟩
      exact ⟨hnear.le, fun htie => absurd htie hnear.ne⟩

theorem lies_ofMantissaAndAccuracy (m : Nat) (a : Accuracy) :
    (ExtendedMantissa.ofMantissaAndAccuracy m a).mantissa = m ∧
      (ExtendedMantissa.ofMantissaAndAccuracy m a).accuracy = a := by
  match a with
  | .exact | .inexact .lt | .inexact .eq | .inexact .gt => exact ⟨rfl, rfl⟩

/-- The last digit becomes the one behind the whole number, and what was behind it is kept as far as rounding asks. -/
theorem Lies.shiftRightOne {em : ExtendedMantissa} (h : Lies x em.mantissa em.accuracy) :
    Lies (x / 2) em.shiftRightOne.mantissa em.shiftRightOne.accuracy := by
  obtain ⟨m, roundBit, stickyBit⟩ := em
  have hm : (m : ℚ) = 2 * (m / 2 : Nat) + (m % 2 : Nat) := by exact_mod_cast (Nat.div_add_mod m 2).symm
  have hshift (last : Bool) (hlast : (m % 2 != 0) = last) :
      ExtendedMantissa.shiftRightOne ⟨m, roundBit, stickyBit⟩ = ⟨m / 2, last, roundBit || stickyBit⟩ := by
    rw [ExtendedMantissa.shiftRightOne, hlast]
  rcases Nat.mod_two_eq_zero_or_one m with hlast | hlast
  · rw [hshift false (by rw [hlast]; rfl)]
    rw [hlast, Nat.cast_zero, add_zero] at hm
    cases roundBit <;> cases stickyBit <;> simp only [ExtendedMantissa.accuracy, Lies, Bool.or_self, Bool.or_true,
      Bool.or_false] at h ⊢
    · linarith
    all_goals constructor <;> linarith
  · rw [hshift true (by rw [hlast]; rfl)]
    rw [hlast, Nat.cast_one] at hm
    cases roundBit <;> cases stickyBit <;> simp only [ExtendedMantissa.accuracy, Lies, Bool.or_self, Bool.or_true,
      Bool.or_false] at h ⊢
    · linarith
    all_goals constructor <;> linarith

theorem Lies.shiftRight {em : ExtendedMantissa} (h : Lies x em.mantissa em.accuracy) (k : Nat) :
    Lies (x / 2 ^ k) (em >>> k).mantissa (em >>> k).accuracy := by
  induction k with
  | zero => simpa [HShiftRight.hShiftRight, Nat.repeat] using h
  | succ k ih =>
      rw [pow_succ, ← div_div]
      exact ih.shiftRightOne

/-! ## Rounding -/

def unpacked (s : Sign) (m : Nat) (e : Int) : UnpackedFloat :=
  if h : m = 0 then .zero s else .finite s m e (Nat.pos_of_ne_zero h)

theorem targetExponent_binary64 (t : Int) : Format.binary64.targetExponent t = max (t - 53) Binary.leastExponent := by
  simp only [Format.targetExponent, Format.mantissaBits, Format.minExponent, Binary.leastExponent]
  norm_num

theorem targetExponent_eq (m : Nat) (e : Int) :
    Format.binary64.targetExponent (totalExponent m e) = max (m.log2 + e - 52) Binary.leastExponent := by
  rw [targetExponent_binary64, totalExponent]
  omega

theorem log2_le_of_lt (h : m < 2 ^ 53) : m.log2 ≤ 52 := by
  rcases Nat.eq_zero_or_pos m with rfl | hpos
  · decide
  · exact Nat.le_of_lt_succ ((Nat.log2_lt hpos.ne').2 h)

theorem shiftToTargetExponent_eq (he : e ≤ Format.binary64.targetExponent (totalExponent m e)) :
    shiftToTargetExponent Format.binary64 m e a =
      (ExtendedMantissa.ofMantissaAndAccuracy m a >>> (Format.binary64.targetExponent (totalExponent m e) - e).toNat,
        Format.binary64.targetExponent (totalExponent m e)) := by
  rw [shiftToTargetExponent, shiftToExponent]
  simp only [Prod.mk.injEq, true_and]
  omega

/-- A mantissa that is not too long stays as it is. -/
theorem shiftToTargetExponent_of_lt (hm : m < 2 ^ 53) (he : Binary.leastExponent ≤ e) :
    shiftToTargetExponent Format.binary64 m e .exact = (⟨m, false, false⟩, e) := by
  have hlog := log2_le_of_lt hm
  have hnone : (Format.binary64.targetExponent (totalExponent m e) - e).toNat = 0 := by
    rw [targetExponent_eq]
    omega
  rw [shiftToTargetExponent, shiftToExponent, hnone, Nat.cast_zero, add_zero]
  rfl

/-- Rounding up to a mantissa of one digit more moves the exponent. -/
theorem shiftToTargetExponent_carried (he : Binary.leastExponent ≤ e) :
    shiftToTargetExponent Format.binary64 (2 ^ 53) e .exact = (⟨2 ^ 52, false, false⟩, e + 1) := by
  have hone : (Format.binary64.targetExponent (totalExponent (2 ^ 53) e) - e).toNat = 1 := by
    rw [targetExponent_eq, Nat.log2_two_pow]
    omega
  rw [shiftToTargetExponent, shiftToExponent, hone]
  rfl

theorem binade_targetExponent (h : Lies (v / 2 ^ e) m a)
    (he : e ≤ Format.binary64.targetExponent (totalExponent m e)) :
    Binade v (Format.binary64.targetExponent (totalExponent m e)) := by
  obtain ⟨hlow, hhigh⟩ := h.bounds
  have hpos : (0 : ℚ) < 2 ^ e := zpow_pos (by norm_num) e
  rw [le_div_iff₀ hpos] at hlow
  rw [div_lt_iff₀ hpos] at hhigh
  rw [targetExponent_eq] at he ⊢
  refine ⟨le_max_right _ _, ?_, ?_⟩
  · have hsize : ((m : ℚ) + 1) * 2 ^ e ≤ 2 ^ ((m.log2 : Int) + 1 + e) := by
      have hm : (m : ℚ) + 1 ≤ 2 ^ (m.log2 + 1) := by exact_mod_cast Nat.lt_log2_self
      rw [zpow_add₀ (by norm_num)]
      exact mul_le_mul_of_nonneg_right (by exact_mod_cast hm) hpos.le
    exact (hhigh.trans_le hsize).trans_le (zpow_le_zpow_right₀ (by norm_num) (by omega))
  · rcases max_choice ((m.log2 : Int) + e - 52) Binary.leastExponent with hmax | hmax <;> rw [hmax] at he ⊢
    · right
      have hm : m ≠ 0 := by
        rintro rfl
        simp at he
      have hsize : (2 : ℚ) ^ ((m.log2 : Int) + e) ≤ m * 2 ^ e := by
        have hm' : (2 : ℚ) ^ m.log2 ≤ m := by exact_mod_cast Nat.log2_self_le hm
        rw [zpow_add₀ (by norm_num)]
        exact mul_le_mul_of_nonneg_right (by exact_mod_cast hm') hpos.le
      have hexp : (m.log2 : Int) + e - 52 + 52 = m.log2 + e := by ring
      rw [hexp]
      exact hsize.trans hlow
    · exact .inl rfl

/-- A number of which a mantissa with enough digits is known is rounded to the nearest one. -/
theorem roundWithAccuracy_eq (s : Sign) (h : Lies (v / 2 ^ e) m a)
    (he : e ≤ Format.binary64.targetExponent (totalExponent m e)) :
    ∃ n d, RoundsTo v n d ∧ roundWithAccuracy Format.binary64 s m e a = unpacked s n d := by
  have hbinade := binade_targetExponent h he
  have hfirst := shiftToTargetExponent_eq (a := a) he
  set t := Format.binary64.targetExponent (totalExponent m e) with ht
  set em := ExtendedMantissa.ofMantissaAndAccuracy m a >>> (t - e).toNat with hem
  have hnear : Nearest (v / 2 ^ t) em.roundedMantissa := by
    obtain ⟨hmantissa, haccuracy⟩ := lies_ofMantissaAndAccuracy m a
    have hstart : Lies (v / 2 ^ e) (ExtendedMantissa.ofMantissaAndAccuracy m a).mantissa
        (ExtendedMantissa.ofMantissaAndAccuracy m a).accuracy := by rwa [hmantissa, haccuracy]
    have hscale : v / 2 ^ t = v / 2 ^ e / 2 ^ (t - e).toNat := by
      rw [div_div, ← zpow_natCast, ← zpow_add₀ (by norm_num)]
      congr 2
      omega
    rw [hscale]
    exact (hstart.shiftRight _).nearest
  have hle : em.roundedMantissa ≤ 2 ^ 53 := by
    have hlt := hbinade.scaled_lt
    have hnear' := (abs_le.1 hnear.near).1
    have hbound : (em.roundedMantissa : ℚ) < (2 ^ 53 + 1 : Nat) := by
      push_cast
      linarith
    exact Nat.le_of_lt_succ (Nat.cast_lt.1 hbound)
  rw [roundWithAccuracy, hfirst]
  rcases Nat.lt_or_eq_of_le hle with hlt | heq
  · refine ⟨_, _, .within hbinade hnear hlt, ?_⟩
    simp only [shiftToTargetExponent_of_lt hlt hbinade.least]
    rfl
  · rw [heq] at hnear
    refine ⟨_, _, .carried hbinade hnear, ?_⟩
    simp only [heq, shiftToTargetExponent_carried hbinade.least]
    rfl

theorem roundWithAccuracy_of_lt (s : Sign) (hm : m < 2 ^ 53) (he : Binary.leastExponent ≤ e) :
    roundWithAccuracy Format.binary64 s m e .exact = unpacked s m e := by
  have hstays : (ExtendedMantissa.mk m false false).roundedMantissa = m := rfl
  simp only [roundWithAccuracy, shiftToTargetExponent_of_lt hm he, hstays]
  rfl

theorem shifted_lt (hlog : m.log2 ≤ 52) : m * 2 ^ (52 - m.log2) < 2 ^ 53 := by
  calc m * 2 ^ (52 - m.log2) < 2 ^ (m.log2 + 1) * 2 ^ (52 - m.log2) :=
        Nat.mul_lt_mul_of_pos_right Nat.lt_log2_self (by positivity)
    _ = 2 ^ 53 := by rw [← pow_add]; congr 1; omega

/-- A whole number that is not too long is written with all digits of a mantissa. -/
theorem ofNat_eq (hm : 0 < m) (hlt : m < 2 ^ 53) : UnpackedFloat.ofNat Format.binary64 m =
    unpacked .positive (m * 2 ^ (52 - m.log2)) (-(52 - m.log2 : Nat)) := by
  have hlog := log2_le_of_lt hlt
  have htarget : Format.binary64.targetExponent (totalExponent m 0) = -(52 - m.log2 : Nat) := by
    rw [targetExponent_eq, Binary.leastExponent]
    omega
  have hshift : ((0 : Int) - -((52 - m.log2 : Nat) : Int)).toNat = 52 - m.log2 := by omega
  have hcompare : compare (m : Int) 0 = .gt := Int.compare_eq_gt.2 (by omega)
  have hround : UnpackedFloat.round Format.binary64 .positive m 0 =
      roundWithAccuracy Format.binary64 .positive (m * 2 ^ (52 - m.log2)) (-(52 - m.log2 : Nat)) .exact := by
    simp only [UnpackedFloat.round, htarget, decreaseExponent, hshift, Nat.shiftLeft_eq]
    simp only [zero_sub]
  rw [UnpackedFloat.ofNat, UnpackedFloat.ofInt, UnpackedFloat.normalize, hcompare]
  simp only [Int.toNat_natCast]
  rw [hround, roundWithAccuracy_of_lt _ (shifted_lt hlog) (by rw [Binary.leastExponent]; omega)]

/-! ## Products and quotients -/

variable {m₁ m₂ : Nat}

theorem mul_eq (e₁ e₂ : Int) (h₁ : 0 < m₁) (h₂ : 0 < m₂) (hlong : 2 ^ 52 ≤ m₁ * m₂) :
    ∃ n d, RoundsTo (m₁ * 2 ^ e₁ * (m₂ * 2 ^ e₂)) n d ∧
      mul Format.binary64 (.finite .positive m₁ e₁ h₁) (.finite .positive m₂ e₂ h₂) = unpacked .positive n d := by
  have hlies : Lies (m₁ * 2 ^ e₁ * (m₂ * 2 ^ e₂) / 2 ^ (e₁ + e₂)) (m₁ * m₂) .exact := by
    change _ = ((m₁ * m₂ : Nat) : ℚ)
    rw [zpow_add₀ (by norm_num)]
    push_cast
    field_simp
  refine roundWithAccuracy_eq .positive hlies ?_
  have hlog : 52 ≤ (m₁ * m₂).log2 := (Nat.le_log2 (Nat.mul_pos h₁ h₂).ne').2 hlong
  rw [targetExponent_eq]
  omega

theorem lies_accuracyOfFraction (num : Nat) {den : Nat} (h : 0 < den) :
    Lies (num / den) (num / den) (accuracyOfFraction (num % den) den) := by
  have hden : (0 : ℚ) < den := by exact_mod_cast h
  have hrem : ((num % den : Nat) : ℚ) < den := by exact_mod_cast Nat.mod_lt num h
  have hx : (num / den : ℚ) = (num / den : Nat) + (num % den : Nat) / den := by
    have hsplit : (num : ℚ) = den * (num / den : Nat) + (num % den : Nat) := by
      exact_mod_cast (Nat.div_add_mod num den).symm
    rw [div_eq_iff hden.ne', add_mul, div_mul_cancel₀ _ hden.ne', mul_comm _ (den : ℚ)]
    exact hsplit
  rw [hx, accuracyOfFraction]
  generalize num % den = rem at *
  generalize num / den = q at *
  split
  · rename_i hzero
    change (q : ℚ) + rem / den = q
    rw [hzero, Nat.cast_zero, zero_div, add_zero]
  · rename_i hpos
    have hpos' : (0 : ℚ) < rem / den := div_pos (by exact_mod_cast Nat.pos_of_ne_zero hpos) hden
    have hone : (rem : ℚ) / den < 1 := (div_lt_one hden).2 hrem
    rcases Nat.lt_trichotomy (2 * rem) den with hlt | heq | hgt
    · have hhalf : (rem : ℚ) / den < 1 / 2 := by
        rw [div_lt_div_iff₀ hden (by norm_num), mul_comm, one_mul]
        exact_mod_cast hlt
      rw [Nat.compare_eq_lt.2 hlt]
      constructor <;> linarith
    · rw [Nat.compare_eq_eq.2 heq]
      change (q : ℚ) + rem / den = q + 1 / 2
      rw [add_right_inj, div_eq_div_iff hden.ne' (by norm_num), mul_comm, one_mul]
      exact_mod_cast heq
    · have hhalf : 1 / 2 < (rem : ℚ) / den := by
        rw [div_lt_div_iff₀ (by norm_num) hden, one_mul, mul_comm (rem : ℚ)]
        exact_mod_cast hgt
      rw [Nat.compare_eq_gt.2 hgt]
      constructor <;> linarith

/-- A quotient has all digits of a mantissa if its numerator is that much longer. -/
theorem le_log2_div (h₁ : 0 < m₁) (h₂ : 0 < m₂) {k : Nat} (h : m₂.log2 + 53 ≤ m₁.log2 + k) :
    52 ≤ (m₁ * 2 ^ k / m₂).log2 := by
  have hlong : 2 ^ 52 ≤ m₁ * 2 ^ k / m₂ := by
    rw [Nat.le_div_iff_mul_le h₂]
    calc 2 ^ 52 * m₂ ≤ 2 ^ 52 * 2 ^ (m₂.log2 + 1) := Nat.mul_le_mul_left _ Nat.lt_log2_self.le
      _ = 2 ^ (m₂.log2 + 53) := by rw [← pow_add]; congr 1; omega
      _ ≤ 2 ^ (m₁.log2 + k) := Nat.pow_le_pow_right (by decide) h
      _ = 2 ^ m₁.log2 * 2 ^ k := pow_add ..
      _ ≤ m₁ * 2 ^ k := Nat.mul_le_mul_right _ (Nat.log2_self_le h₁.ne')
  exact (Nat.le_log2 (lt_of_lt_of_le (by decide) hlong).ne').2 hlong

/-- The quotient of mantissas, of which the first is moved by so many digits, is one of the numbers. -/
theorem lies_divCore (e₁ e₂ : Int) (h₂ : 0 < m₂) {k : Nat} {t : Int} (hk : (k : Int) = e₁ - e₂ - t) :
    Lies (m₁ * 2 ^ e₁ / (m₂ * 2 ^ e₂) / 2 ^ t) (m₁ * 2 ^ k / m₂) (accuracyOfFraction (m₁ * 2 ^ k % m₂) m₂) := by
  have hlies := lies_accuracyOfFraction (m₁ * 2 ^ k) h₂
  have hvalue : ((m₁ * 2 ^ k : Nat) / m₂ : ℚ) = m₁ * 2 ^ e₁ / (m₂ * 2 ^ e₂) / 2 ^ t := by
    have hpow : (2 : ℚ) ^ k = 2 ^ e₁ / 2 ^ e₂ / 2 ^ t := by
      rw [← zpow_natCast, hk, zpow_sub₀ (by norm_num), zpow_sub₀ (by norm_num)]
    have hm₂ : (m₂ : ℚ) ≠ 0 := by exact_mod_cast h₂.ne'
    push_cast
    rw [hpow]
    field_simp
  rwa [hvalue] at hlies

theorem div_eq (e₁ e₂ : Int) (h₁ : 0 < m₁) (h₂ : 0 < m₂) :
    ∃ n d, RoundsTo (m₁ * 2 ^ e₁ / (m₂ * 2 ^ e₂)) n d ∧
      div Format.binary64 (.finite .positive m₁ e₁ h₁) (.finite .positive m₂ e₂ h₂) = unpacked .positive n d := by
  obtain ⟨t, ht⟩ : ∃ t, t = min (e₁ - e₂)
      (Format.binary64.targetExponent (totalExponent m₁ e₁ - totalExponent m₂ e₂)) := ⟨_, rfl⟩
  obtain ⟨k, hk⟩ : ∃ k, k = (e₁ - e₂ - t).toNat := ⟨_, rfl⟩
  have hcore : divCore Format.binary64 m₁ e₁ m₂ e₂ =
      (m₁ * 2 ^ k / m₂, t, accuracyOfFraction (m₁ * 2 ^ k % m₂) m₂) := by
    simp only [divCore, ← ht, ← hk, Nat.shiftLeft_eq]
  rw [targetExponent_binary64, totalExponent, totalExponent] at ht
  have hk' : (k : Int) = e₁ - e₂ - t := by omega
  have htarget : t ≤ Format.binary64.targetExponent (totalExponent (m₁ * 2 ^ k / m₂) t) := by
    rw [targetExponent_eq]
    rcases le_or_gt t Binary.leastExponent with hleast | hmore
    · exact hleast.trans (le_max_right _ _)
    · have hlog := le_log2_div (k := k) h₁ h₂ (by omega)
      omega
  obtain ⟨n, d, hrounds, hresult⟩ := roundWithAccuracy_eq .positive (lies_divCore e₁ e₂ h₂ hk') htarget
  refine ⟨n, d, hrounds, ?_⟩
  rw [UnpackedFloat.div, hcore]
  exact hresult

/-! ## Decimal numbers -/

theorem roundsTo_zero (h0 : 0 ≤ v) (h : v < 2 ^ (Binary.leastExponent - 1)) : RoundsTo v 0 Binary.leastExponent := by
  have hpos : (0 : ℚ) < 2 ^ Binary.leastExponent := zpow_pos (by norm_num) _
  have hhalf : v / 2 ^ Binary.leastExponent < 1 / 2 := by
    rw [div_lt_iff₀ hpos]
    rwa [zpow_sub_one₀ (by norm_num), mul_comm, inv_eq_one_div] at h
  have hnonneg : 0 ≤ v / 2 ^ Binary.leastExponent := div_nonneg h0 hpos.le
  refine .within ⟨le_refl _, h.trans ?_, .inl rfl⟩ ⟨?_, fun _ => rfl⟩ (by decide)
  · exact (zpow_lt_zpow_iff_right₀ (by norm_num)).2 (by decide)
  · rw [Nat.cast_zero, sub_zero, abs_of_nonneg hnonneg]
    exact hhalf.le

theorem two_pow_le_of_large (hm : 0 < m) (he : 1024 ≤ e) : 2 ^ (1024 : Int) ≤ (m * 10 ^ e : ℚ) := by
  have hm' : (1 : ℚ) ≤ m := by exact_mod_cast hm
  calc (2 : ℚ) ^ (1024 : Int) ≤ 2 ^ e := zpow_le_zpow_right₀ (by norm_num) he
    _ ≤ 10 ^ e := zpow_le_zpow_left₀ (by omega) (by norm_num) (by norm_num)
    _ ≤ m * 10 ^ e := le_mul_of_one_le_left (zpow_nonneg (by norm_num) e) hm'

theorem roundsTo_zero_of_small (he : e < -(2048 + (m.log2 : Int))) :
    RoundsTo (m * 10 ^ e) 0 Binary.leastExponent := by
  have hm : (m : ℚ) < 2 ^ ((m.log2 : Int) + 1) := by exact_mod_cast Nat.lt_log2_self (n := m)
  have hten : (10 : ℚ) ^ e ≤ 2 ^ e := by
    obtain ⟨k, rfl⟩ : ∃ k : Nat, e = -k := ⟨e.natAbs, by omega⟩
    rw [zpow_neg, zpow_neg, zpow_natCast, zpow_natCast]
    exact inv_anti₀ (by positivity) (pow_le_pow_left₀ (by norm_num) (by norm_num) k)
  refine roundsTo_zero (mul_nonneg (Nat.cast_nonneg m) (zpow_nonneg (by norm_num) e)) ?_
  calc (m : ℚ) * 10 ^ e ≤ m * 2 ^ e := mul_le_mul_of_nonneg_left hten (Nat.cast_nonneg m)
    _ < 2 ^ ((m.log2 : Int) + 1) * 2 ^ e := mul_lt_mul_of_pos_right hm (zpow_pos (by norm_num) e)
    _ = 2 ^ ((m.log2 : Int) + 1 + e) := (zpow_add₀ (by norm_num) _ _).symm
    _ ≤ 2 ^ (Binary.leastExponent - 1) := zpow_le_zpow_right₀ (by norm_num) (by rw [Binary.leastExponent]; omega)

theorem mul_ten_pow_eq (hm : 0 < m <<< Format.binary64.mantissaBits) (k : Nat) (hten : 0 < 10 ^ k) :
    ∃ n d, RoundsTo (m * 10 ^ (k : Int)) n d ∧
      mul Format.binary64 (.finite .positive (m <<< Format.binary64.mantissaBits) (-Format.binary64.mantissaBits) hm)
        (.finite .positive (10 ^ k) 0 hten) = unpacked .positive n d := by
  have hshift : m <<< Format.binary64.mantissaBits = m * 2 ^ 53 := Nat.shiftLeft_eq ..
  have hlong : 2 ^ 52 ≤ m <<< Format.binary64.mantissaBits * 10 ^ k := by
    rw [hshift] at hm ⊢
    exact (by omega : 2 ^ 52 ≤ m * 2 ^ 53).trans (Nat.le_mul_of_pos_right _ hten)
  obtain ⟨n, d, hrounds, hresult⟩ := mul_eq (-Format.binary64.mantissaBits) 0 hm hten hlong
  have hvalue : ((m <<< Format.binary64.mantissaBits : Nat) : ℚ) * 2 ^ (-Format.binary64.mantissaBits : Int) *
      ((10 ^ k : Nat) * 2 ^ (0 : Int)) = m * 10 ^ (k : Int) := by
    have hbits : (Format.binary64.mantissaBits : Int) = 53 := rfl
    rw [hshift, hbits]
    push_cast
    rw [zpow_natCast, mul_one, mul_assoc (m : ℚ)]
    norm_num
  rw [hvalue] at hrounds
  exact ⟨n, d, hrounds, hresult⟩

theorem div_ten_pow_eq (hm : 0 < m) (k : Nat) (hten : 0 < 10 ^ k) :
    ∃ n d, RoundsTo (m * 10 ^ (-(k : Int))) n d ∧
      div Format.binary64 (.finite .positive m 0 hm) (.finite .positive (10 ^ k) 0 hten) = unpacked .positive n d := by
  obtain ⟨n, d, hrounds, hresult⟩ := div_eq 0 0 hm hten
  have hvalue : (m : ℚ) * 2 ^ (0 : Int) / ((10 ^ k : Nat) * 2 ^ (0 : Int)) = m * 10 ^ (-(k : Int)) := by
    push_cast
    rw [zpow_neg, zpow_natCast, mul_one, mul_one, div_eq_mul_inv]
  rw [hvalue] at hrounds
  exact ⟨n, d, hrounds, hresult⟩

/-- A decimal number is rounded to the nearest floating-point number. Of exponents out of all range it is not. -/
theorem ofScientific_eq (hm : 0 < m) (e : Int) :
    (∃ n d, RoundsTo (m * 10 ^ e) n d ∧ ofScientific Format.binary64 m e = unpacked .positive n d) ∨
      (2 ^ (1024 : Int) ≤ (m * 10 ^ e : ℚ) ∧ ofScientific Format.binary64 m e = .infinity .positive) := by
  rw [UnpackedFloat.ofScientific, dif_neg hm.ne']
  split
  · rename_i hlarge
    exact .inr ⟨two_pow_le_of_large hm (le_trans (by decide) hlarge.le), rfl⟩
  · left
    split
    · rename_i hsmall
      exact ⟨0, Binary.leastExponent, roundsTo_zero_of_small hsmall, rfl⟩
    · split
      · rename_i hnonneg
        obtain ⟨k, rfl⟩ := Int.eq_ofNat_of_zero_le hnonneg
        exact mul_ten_pow_eq _ k _
      · rename_i hneg
        obtain ⟨k, rfl⟩ : ∃ k : Nat, e = -k := ⟨e.natAbs, by omega⟩
        simp only [neg_neg, Int.toNat_natCast]
        exact div_ten_pow_eq hm k _

end SemanticLayer.Decimal
