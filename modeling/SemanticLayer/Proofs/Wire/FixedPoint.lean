import SemanticLayer.Proofs.Json.Decimals
import SemanticLayer.Wire.SqlServer.Cell
/-!
Scaled whole numbers of a SQL Server result. Their driver writes whole part and fraction each with its own sign, so that
a negative fraction makes the text unreadable as a number.
-/
namespace SemanticLayer

namespace Text

theorem padded_ne_nil (width n : Nat) : padded width n ≠ [] :=
  List.append_ne_nil_of_right_ne_nil _ (digits_ne_nil n)

theorem paddedInt_natCast (width n : Nat) : paddedInt width n = padded width n := by
  rw [paddedInt, if_neg (not_lt.2 (Int.natCast_nonneg n)), Int.natAbs_natCast]

theorem paddedInt_neg {n : Nat} (width : Nat) (h : 0 < n) :
    paddedInt width (-(n : Int)) = '-' :: padded (width - 1) n := by
  rw [paddedInt, if_pos (by omega), Int.natAbs_neg, Int.natAbs_natCast]

end Text

namespace Wire.SqlServer

open Decimal
open Json (DecimalText)

variable {ds fs : List Char} {value : Int} {m scale : Nat}

/-- Whether a scaled number is negative and has digits behind the point that are not all zeros. -/
def HasNegativeFraction (value : Int) (scale : Nat) : Prop :=
  value < 0 ∧ ¬ (10 ^ scale : Int) ∣ value

instance : Decidable (HasNegativeFraction value scale) :=
  inferInstanceAs (Decidable (value < 0 ∧ ¬ (10 ^ scale : Int) ∣ value))

/-! ## Readable texts -/

def decimalText (value : Int) (scale : Nat) : DecimalText where
  negative := decide (value < 0)
  whole := Text.padded 0 (value.natAbs / 10 ^ scale)
  fraction := Text.padded scale (value.natAbs % 10 ^ scale)
  isDigit := by
    intro c hc
    exact (List.mem_append.1 hc).elim Text.isDigit_of_mem_padded Text.isDigit_of_mem_padded
  whole_ne_nil := Text.padded_ne_nil 0 _

theorem size_decimalText (value : Int) (scale : Nat) :
    (decimalText value scale).size = value.natAbs / 10 ^ scale := by
  have hsplit : ((10 ^ scale * (value.natAbs / 10 ^ scale) + value.natAbs % 10 ^ scale : Nat) : ℚ) = value.natAbs := by
    rw [Nat.div_add_mod]
  rw [DecimalText.size, decimalText, digitsValue_concat, Text.digitsValue_padded, Text.digitsValue_padded]
  rcases Nat.eq_zero_or_pos scale with rfl | hpos
  · simp [Nat.mod_one]
  · rw [Text.length_padded (Nat.mod_lt _ (by positivity)) hpos, zpow_neg, zpow_natCast, ← hsplit, Nat.mul_comm]
    push_cast
    rw [div_eq_mul_inv]

theorem scaled_neg_iff : (value / 10 ^ scale : ℚ) < 0 ↔ value < 0 := by
  rw [div_lt_iff₀ (by positivity), zero_mul, Int.cast_lt_zero]

theorem abs_scaled (value : Int) (scale : Nat) : |(value / 10 ^ scale : ℚ)| = value.natAbs / 10 ^ scale := by
  rw [abs_div, abs_of_pos (by positivity : (0 : ℚ) < 10 ^ scale), Nat.cast_natAbs, Int.cast_abs]

theorem value_decimalText (value : Int) (scale : Nat) : (decimalText value scale).value = value / 10 ^ scale := by
  have hsign := signedValue_abs (value / 10 ^ scale : ℚ)
  rw [decide_eq_decide.2 scaled_neg_iff] at hsign
  rwa [DecimalText.value, size_decimalText, ← abs_scaled]

theorem chars_decimalText (value : Int) (scale : Nat) : (decimalText value scale).chars =
    signed (decide (value < 0)) (Text.padded 0 (value.natAbs / 10 ^ scale) ++
      '.' :: Text.padded scale (value.natAbs % 10 ^ scale)) := by
  rw [DecimalText.chars, DecimalText.body, decimalText, if_neg (Text.padded_ne_nil _ _)]

theorem numericText_natCast (m scale : Nat) : numericText m scale =
    Text.paddedInt 0 (m / 10 ^ scale : Nat) ++ '.' :: Text.paddedInt scale (m % 10 ^ scale : Nat) := rfl

theorem numericText_neg (m scale : Nat) : numericText (-m) scale =
    Text.paddedInt 0 (-(m / 10 ^ scale : Nat)) ++ '.' :: Text.paddedInt scale (-(m % 10 ^ scale : Nat)) := by
  rw [numericText, Int.neg_tdiv, Int.neg_tmod]
  rfl

theorem eq_neg_of_neg (h : value < 0) : ∃ m : Nat, 0 < m ∧ value = -m :=
  ⟨value.natAbs, by omega, by omega⟩

/-- Without a negative fraction the driver writes the decimal text. -/
theorem numericText_of_readable (h : ¬ HasNegativeFraction value scale) :
    numericText value scale = (decimalText value scale).chars := by
  rw [chars_decimalText]
  rcases le_or_gt 0 value with hnonneg | hneg
  · obtain ⟨m, rfl⟩ := Int.eq_ofNat_of_zero_le hnonneg
    rw [numericText_natCast, Text.paddedInt_natCast, Text.paddedInt_natCast, Int.natAbs_natCast,
      decide_eq_false (not_lt.2 hnonneg)]
    rfl
  · have hdvd : (10 ^ scale : Int) ∣ value := not_not.1 fun hdvd => h ⟨hneg, hdvd⟩
    obtain ⟨m, hpos, rfl⟩ := eq_neg_of_neg hneg
    have hdvd' : 10 ^ scale ∣ m := by exact_mod_cast Int.dvd_neg.1 hdvd
    have hquotient : 0 < m / 10 ^ scale := Nat.div_pos (Nat.le_of_dvd hpos hdvd') (by positivity)
    rw [numericText_neg, Nat.mod_eq_zero_of_dvd hdvd', Text.paddedInt_neg 0 hquotient, Nat.cast_zero, neg_zero,
      Int.natAbs_neg, Int.natAbs_natCast, Nat.mod_eq_zero_of_dvd hdvd', decide_eq_true hneg]
    rfl

/-! ## Unreadable texts -/

/-- A negative fraction is written with its minus behind the point. -/
theorem numericText_of_unreadable (h : HasNegativeFraction value scale) :
    ∃ negative ds fs, numericText value scale = signed negative (ds ++ '.' :: '-' :: fs) ∧ ds ≠ [] ∧
      (∀ c ∈ ds, c.isDigit = true) ∧ ∀ c ∈ fs, c.isDigit = true := by
  obtain ⟨hneg, hdvd⟩ := h
  obtain ⟨m, hpos, rfl⟩ := eq_neg_of_neg hneg
  have hrest : 0 < m % 10 ^ scale := by
    refine Nat.pos_of_ne_zero fun hzero => hdvd (Int.dvd_neg.2 ?_)
    exact_mod_cast Nat.dvd_of_mod_eq_zero hzero
  refine ⟨decide (0 < m / 10 ^ scale), Text.padded 0 (m / 10 ^ scale), Text.padded (scale - 1) (m % 10 ^ scale), ?_,
    Text.padded_ne_nil _ _, fun c hc => Text.isDigit_of_mem_padded hc, fun c hc => Text.isDigit_of_mem_padded hc⟩
  rw [numericText_neg, Text.paddedInt_neg scale hrest]
  rcases Nat.eq_zero_or_pos (m / 10 ^ scale) with hzero | hquotient
  · rw [hzero]
    rfl
  · rw [Text.paddedInt_neg 0 hquotient, decide_eq_true hquotient]
    rfl

theorem readFloat?_minus (negative : Bool) (fs : List Char) (hne : ds ≠ []) (hds : ∀ c ∈ ds, c.isDigit = true) :
    readFloat? (signed negative (ds ++ '.' :: '-' :: fs)) = none := by
  have hhead := isDigit_head_append hne hds ('.' :: '-' :: fs)
  have hread := read?_pointed ('-' :: fs) (List.append_ne_nil_of_left_ne_nil hne []) hds
    (List.forall_mem_nil _) (by simp)
  rw [List.nil_append] at hread
  have hword := DecimalText.readWord?_of_isDigit (List.append_ne_nil_of_left_ne_nil hne _) hhead
  rw [readFloat?, splitSign_signed negative hhead]
  simp only [hword, hread]
  rfl

theorem ofDecimal_minus (negative : Bool) (hne : ds ≠ []) (hds : ∀ c ∈ ds, c.isDigit = true)
    (hfs : ∀ c ∈ fs, c.isDigit = true) :
    Json.ofDecimal (String.ofList (signed negative (ds ++ '.' :: '-' :: fs))) =
      .str (String.ofList (signed negative (ds ++ '.' :: '-' :: fs))) := by
  have hnumeral : ∀ c ∈ ds ++ '.' :: '-' :: fs, DecimalText.IsNumeral c := by
    intro c hc
    simp only [List.mem_append, List.mem_cons] at hc
    rcases hc with hc | rfl | rfl | hc
    · exact .inl (hds c hc)
    · exact .inr (.inr rfl)
    · exact .inr (.inl rfl)
    · exact .inl (hfs c hc)
  have htrim := DecimalText.trim_of_isNumeral (DecimalText.isNumeral_signed negative hnumeral)
  have hint := DecimalText.readInt64?_signed negative (isDigit_head_append hne hds ('.' :: '-' :: fs)) (by simp)
  rw [Json.ofDecimal, String.toList_ofList, htrim, hint, readFloat?_minus negative fs hne hds]

/-! ## Cells -/

theorem abs_scaled_lt (hvalue : |value| < 10 ^ 38) (scale : Nat) : |(value / 10 ^ scale : ℚ)| < limit := by
  have hvalue' : |(value : ℚ)| < 10 ^ 38 := by exact_mod_cast hvalue
  have hpow : (1 : ℚ) ≤ 10 ^ scale := one_le_pow₀ (by norm_num)
  rw [abs_div, abs_of_pos (by positivity : (0 : ℚ) < 10 ^ scale)]
  calc |(value : ℚ)| / 10 ^ scale ≤ |(value : ℚ)| := div_le_self (abs_nonneg _) hpow
    _ < 10 ^ 38 := hvalue'
    _ ≤ 2 ^ (152 : Int) := by norm_num
    _ ≤ 2 ^ (1023 : Int) := zpow_le_zpow_right₀ (by norm_num) (by decide)
    _ < limit := lt_limit

theorem least_le_abs_scaled (hvalue : value ≠ 0) (hscale : scale < 38) :
    2 ^ Binary.leastExponent ≤ |(value / 10 ^ scale : ℚ)| := by
  have hone : (1 : ℚ) ≤ |(value : ℚ)| := by exact_mod_cast Int.one_le_abs hvalue
  rw [abs_div, abs_of_pos (by positivity : (0 : ℚ) < 10 ^ scale)]
  calc (2 : ℚ) ^ Binary.leastExponent ≤ 2 ^ (-152 : Int) := zpow_le_zpow_right₀ (by norm_num) (by decide)
    _ ≤ 1 / 10 ^ 38 := by norm_num
    _ ≤ 1 / 10 ^ scale := one_div_le_one_div_of_le (by positivity) (pow_le_pow_right₀ (by norm_num) hscale.le)
    _ ≤ |(value : ℚ)| / 10 ^ scale := div_le_div_of_nonneg_right hone (by positivity)

theorem sign_scaled (value : Int) (scale : Nat) :
    SignType.sign (value / 10 ^ scale : ℚ) = SignType.sign value := by
  have hpow : (0 : ℚ) < 10 ^ scale := by positivity
  rcases lt_trichotomy value 0 with hneg | rfl | hpos
  · rw [sign_neg hneg, sign_neg (scaled_neg_iff.2 hneg)]
  · rw [Int.cast_zero, zero_div, sign_zero, sign_zero]
  · rw [sign_pos hpos, sign_pos (div_pos (Int.cast_pos.2 hpos) hpow)]

/-- Without a negative fraction a scaled number becomes the floating-point number to which it is rounded, which has its
sign. With one it stays the text of the driver. -/
theorem cell_numeric {value : Int} {scale : Nat} (hvalue : |value| < 10 ^ 38) (hscale : scale < 38) :
    (¬ HasNegativeFraction value scale → ∃ x : Float, cell (some (.numeric value scale)) = .float x ∧
      RoundedTo (value / 10 ^ scale) x ∧ SignType.sign (Binary.ofFloat x).value = SignType.sign value) ∧
      (HasNegativeFraction value scale →
        cell (some (.numeric value scale)) = .str (String.ofList (numericText value scale))) := by
  refine ⟨fun h => ?_, fun h => ?_⟩
  · have hint : ¬ (decimalText value scale).IsInt64 := fun h => Text.padded_ne_nil _ _ h.1
    have hlt : |(decimalText value scale).value| < limit := by
      rw [value_decimalText]
      exact abs_scaled_lt hvalue scale
    have hsign : (decimalText value scale).negative = decide ((decimalText value scale).value < 0) := by
      rw [value_decimalText]
      exact decide_eq_decide.2 scaled_neg_iff.symm
    obtain ⟨x, hread, hrounded⟩ := DecimalText.exists_rounded hint hlt hsign
    rw [value_decimalText] at hrounded
    refine ⟨x, ?_, hrounded, ?_⟩
    · rw [cell, Value.toJson, numericText_of_readable h]
      exact hread
    · rw [← sign_scaled value scale]
      refine hrounded.sign_eq ?_
      rcases eq_or_ne value 0 with rfl | hne
      · exact .inl (by rw [Int.cast_zero, zero_div])
      · exact .inr (least_le_abs_scaled hne hscale)
  · obtain ⟨negative, ds, fs, htext, hne, hds, hfs⟩ := numericText_of_unreadable h
    rw [cell, Value.toJson, htext, ofDecimal_minus negative hne hds hfs]

theorem cell_numeric_minusFifteen : |(-1500 : Int)| < 10 ^ 38 ∧ 2 < 38 ∧ ¬ HasNegativeFraction (-1500) 2 ∧
    ∃ x : Float, cell (some (.numeric (-1500) 2)) = .float x ∧ RoundedTo ((-1500 : Int) / 10 ^ 2) x ∧
      SignType.sign (Binary.ofFloat x).value = -1 := by
  have hvalue : |(-1500 : Int)| < 10 ^ 38 := by decide
  have hwhole : ¬ HasNegativeFraction (-1500) 2 := by decide
  obtain ⟨x, hread, hrounded, hsign⟩ := (cell_numeric hvalue (by decide : 2 < 38)).1 hwhole
  exact ⟨hvalue, by decide, hwhole, x, hread, hrounded, hsign⟩

/-- Minus one half is no number. -/
theorem cell_minusHalf : (∀ x : Float, cell (some (.numeric (-5) 1)) ≠ .float x) ∧
    ∀ n : Int, cell (some (.numeric (-5) 1)) ≠ .int n := by
  have htext : (cell (some (.numeric (-5) 1))).text? = some "0.-5" := by decide +kernel
  refine ⟨fun x heq => ?_, fun n heq => ?_⟩
  · rw [heq] at htext
    cases htext
  · rw [heq] at htext
    cases htext

end Wire.SqlServer

end SemanticLayer
