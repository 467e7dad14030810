import SemanticLayer.Proofs.Decimal.Notation
/-!
The floating-point number that a rational number is rounded to, told from all others: none is nearer, of two that are
equally near it is the even one, and it has the number's sign.
-/
namespace SemanticLayer.Decimal

variable {a : Bool} {b : Binary} {d : Int} {n : Nat} {v w : ℚ} {x y : Float}

theorem abs_signedValue_sub (a : Bool) (v w : ℚ) : |signedValue a v - signedValue a w| = |v - w| := by
  cases a with
  | false => rfl
  | true =>
      simp only [signedValue, if_true]
      rw [← neg_sub', abs_neg]

theorem signedValue_abs (v : ℚ) : signedValue (decide (v < 0)) |v| = v := by
  rw [signedValue]
  by_cases h : v < 0
  · rw [decide_eq_true h, if_pos rfl, abs_of_neg h, neg_neg]
  · rw [decide_eq_false h, if_neg Bool.false_ne_true, abs_of_nonneg (not_lt.1 h)]

namespace Binary

theorem size_nonneg (b : Binary) : 0 ≤ b.size :=
  mul_nonneg (Nat.cast_nonneg _) (zpow_pos (by norm_num) _).le

/-- On the side of zero where a number lies is a floating-point number at least as near to it as a given one, and nearer
unless it is that one. -/
theorem Canonical.exists_beside (h : b.Canonical) (a : Bool) (hw : 0 ≤ w) :
    ∃ (m : Nat) (e : Int), m < 2 ^ 53 ∧ leastExponent ≤ e ∧ |m * 2 ^ e - w| ≤ |b.value - signedValue a w| ∧
      (|m * 2 ^ e - w| = |b.value - signedValue a w| → signedValue a (m * 2 ^ e) = b.value) := by
  by_cases hsign : b.negative = a
  · refine ⟨b.mantissa, b.exponent, h.mantissa_lt, h.least, ?_, fun _ => by rw [value, hsign]; rfl⟩
    rw [value, hsign, abs_signedValue_sub]
    exact le_rfl
  · -- On the other side no number is nearer than zero.
    have hfar : |b.value - signedValue a w| = b.size + w := by
      have hsize := b.size_nonneg
      rw [value]
      cases a <;> cases hb : b.negative <;> simp only [hb, not_true] at hsign <;>
        simp only [signedValue, Bool.false_eq_true, if_true, if_false]
      · rw [abs_of_nonpos (by linarith)]
        ring
      · rw [abs_of_nonneg (by linarith)]
        ring
    refine ⟨0, leastExponent, by decide, le_rfl, ?_⟩
    rw [hfar, Nat.cast_zero, zero_mul, zero_sub, abs_neg, abs_of_nonneg hw, signedValue_zero]
    refine ⟨le_add_of_nonneg_left b.size_nonneg, fun heq => ?_⟩
    rw [value, show b.size = 0 by linarith, signedValue_zero]

theorem abs_value_sub (hparts : ofFloat x = ⟨a, n, d⟩) (w : ℚ) :
    |(ofFloat x).value - signedValue a w| = |n * 2 ^ d - w| := by
  rw [hparts]
  exact abs_signedValue_sub a _ w

theorem abs_sub_le (hparts : ofFloat x = ⟨a, n, d⟩) (hrounds : RoundsTo w n d) (hw : 0 ≤ w) (hy : y.isFinite = true) :
    |(ofFloat x).value - signedValue a w| ≤ |(ofFloat y).value - signedValue a w| := by
  obtain ⟨m, e, hm, he, hle, -⟩ := (canonical_ofFloat hy).exists_beside a hw
  rw [abs_value_sub hparts]
  exact (hrounds.nearest hm he).trans hle

theorem even_of_tie (hparts : ofFloat x = ⟨a, n, d⟩) (hrounds : RoundsTo w n d) (hw : 0 ≤ w) (hy : y.isFinite = true)
    (hne : (ofFloat y).value ≠ (ofFloat x).value)
    (htie : |(ofFloat y).value - signedValue a w| = |(ofFloat x).value - signedValue a w|) :
    (ofFloat x).mantissa % 2 = 0 := by
  obtain ⟨m, e, hm, he, hle, hsame⟩ := (canonical_ofFloat hy).exists_beside a hw
  rw [abs_value_sub hparts] at htie
  have heq : |m * 2 ^ e - w| = |n * 2 ^ d - w| := le_antisymm (hle.trans_eq htie) (hrounds.nearest hm he)
  rw [hparts] at hne ⊢
  refine hrounds.even_of_tie hm he (fun hpoint => hne ?_) heq
  rw [← hsame (heq.trans htie.symm), hpoint]
  rfl

end Binary

/-- Whether a floating-point number is the one that a number is rounded to: no other is nearer, halfway between two it is
the one with an even mantissa, and its sign is that of the number. -/
structure RoundedTo (v : ℚ) (x : Float) : Prop where
  isFinite : x.isFinite = true
  nearest (y : Float) (hy : y.isFinite = true) : |(Binary.ofFloat x).value - v| ≤ |(Binary.ofFloat y).value - v|
  even (y : Float) (hy : y.isFinite = true) (hne : (Binary.ofFloat y).value ≠ (Binary.ofFloat x).value)
    (htie : |(Binary.ofFloat y).value - v| = |(Binary.ofFloat x).value - v|) : (Binary.ofFloat x).mantissa % 2 = 0
  negative : (Binary.ofFloat x).negative = decide (v < 0)

theorem roundedTo_of_parts (hx : x.isFinite = true) (hparts : Binary.ofFloat x = ⟨decide (v < 0), n, d⟩)
    (hrounds : RoundsTo |v| n d) : RoundedTo v x := by
  have hnearest (y : Float) (hy : y.isFinite = true) := Binary.abs_sub_le hparts hrounds (abs_nonneg v) hy
  have heven (y : Float) (hy : y.isFinite = true) := Binary.even_of_tie hparts hrounds (abs_nonneg v) hy
  rw [signedValue_abs] at hnearest heven
  exact ⟨hx, hnearest, heven, by rw [hparts]⟩

namespace RoundedTo

/-- A number that is a floating-point number itself is kept. -/
theorem value_eq (h : RoundedTo b.value x) (hb : b.Canonical) : (Binary.ofFloat x).value = b.value := by
  obtain ⟨hfinite, hparts⟩ := Binary.packed_spec hb
  have hnearest := h.nearest b.packed hfinite
  rw [hparts, sub_self, abs_zero] at hnearest
  exact sub_eq_zero.1 (abs_nonpos_iff.1 hnearest)

/-- Only a number nearer to zero than any positive floating-point number can become zero. -/
theorem value_ne_zero (h : RoundedTo v x) (hv : 2 ^ Binary.leastExponent ≤ |v|) : (Binary.ofFloat x).value ≠ 0 := by
  have hleast : (0 : ℚ) < 2 ^ Binary.leastExponent := zpow_pos (by norm_num) _
  -- The least floating-point number with the sign of the number is nearer than zero.
  have hone : Binary.Canonical ⟨decide (v < 0), 1, Binary.leastExponent⟩ :=
    ⟨(by decide : 1 < 2 ^ 53), le_rfl, (by decide : Binary.leastExponent ≤ 971), .inl rfl⟩
  obtain ⟨hfinite, hparts⟩ := Binary.packed_spec hone
  have hdistance := Binary.abs_value_sub hparts |v|
  rw [signedValue_abs, Nat.cast_one, one_mul, abs_of_nonpos (sub_nonpos.2 hv)] at hdistance
  intro hzero
  have hnearest := h.nearest _ hfinite
  rw [hzero, zero_sub, abs_neg, hdistance] at hnearest
  linarith

theorem sign_eq (h : RoundedTo v x) (hv : v = 0 ∨ 2 ^ Binary.leastExponent ≤ |v|) :
    SignType.sign (Binary.ofFloat x).value = SignType.sign v := by
  rcases hv with rfl | hv
  · have hzero : Binary.value ⟨false, 0, Binary.leastExponent⟩ = 0 := by
      rw [Binary.value, Binary.size, Nat.cast_zero, zero_mul, signedValue_zero]
    rw [← hzero] at h
    rw [h.value_eq ⟨by decide, le_rfl, by decide, .inl rfl⟩, hzero]
  · have hpos : 0 < (Binary.ofFloat x).size := by
      refine lt_of_le_of_ne (Binary.size_nonneg _) fun hsize => h.value_ne_zero hv ?_
      rw [Binary.value, ← hsize, signedValue_zero]
    rw [Binary.value, h.negative, signedValue]
    by_cases hneg : v < 0
    · rw [decide_eq_true hneg, if_pos rfl, sign_neg hneg, sign_neg (neg_neg_of_pos hpos)]
    · have hv' : 0 < v := by
        rw [abs_of_nonneg (not_lt.1 hneg)] at hv
        exact (zpow_pos (by norm_num) _).trans_le hv
      rw [decide_eq_false hneg, if_neg Bool.false_ne_true, sign_pos hpos, sign_pos hv']

end RoundedTo

end SemanticLayer.Decimal
