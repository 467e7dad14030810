import SemanticLayer.Proofs.Decimal.Rounding
/-!
Floating-point numbers as sign, mantissa and exponent: the parts that the bits of a number give are those that it was
put together from.
-/
namespace SemanticLayer.Decimal

open Float.Model Float.Model.UnpackedFloat

/-! ## Bits -/

theorem toNat_unpackExponent (bits : BitVec Format.binary64.numBits) :
    (unpackExponent bits).toNat = bits.toNat / 2 ^ 52 % 2 ^ 11 := by
  simp [unpackExponent, Nat.shiftRight_eq_div_pow]

theorem toNat_unpackMantissa (bits : BitVec Format.binary64.numBits) :
    (unpackMantissa bits).toNat = bits.toNat % 2 ^ 52 := by
  simp [unpackMantissa]

theorem toNat_unpackSign (bits : BitVec Format.binary64.numBits) :
    (unpackSign bits).toNat = bits.toNat / 2 ^ 63 := by
  have hlt : bits.toNat < 2 ^ 64 := bits.isLt
  simp [unpackSign, Nat.shiftRight_eq_div_pow]
  omega

theorem toNat_packComponents (s : Sign) (e : BitVec 11) (m : BitVec 52) :
    (packComponents Format.binary64 s e m).toNat = (s.toBitVec.toNat * 2 ^ 11 + e.toNat) * 2 ^ 52 + m.toNat := by
  rw [packComponents, BitVec.toNat_append, BitVec.toNat_append, ← Nat.shiftLeft_add_eq_or_of_lt m.isLt,
    ← Nat.shiftLeft_add_eq_or_of_lt e.isLt, Nat.shiftLeft_eq, Nat.shiftLeft_eq]

/-! ## Parts -/

namespace Binary

/-- The parts that a finite floating-point number can have. -/
structure Canonical (b : Binary) : Prop where
  mantissa_lt : b.mantissa < 2 ^ 53
  least : leastExponent ≤ b.exponent
  greatest : b.exponent ≤ 971
  normal : b.exponent = leastExponent ∨ 2 ^ 52 ≤ b.mantissa

def size (b : Binary) : ℚ :=
  b.mantissa * 2 ^ b.exponent

def sign (b : Binary) : Sign :=
  bif b.negative then .negative else .positive

/-- The number in the form in which numbers are computed with. -/
def unpacked (b : Binary) : UnpackedFloat :=
  Decimal.unpacked b.sign b.mantissa b.exponent

/-- The floating-point number with given parts. -/
def packed (b : Binary) : Float :=
  .ofModel (.pack b.unpacked)

def bits (x : Float) : BitVec Format.binary64.numBits :=
  x.toBits.toBitVec

def exponentField (x : Float) : Nat :=
  x.toBits.toNat / 2 ^ 52 % 2 ^ 11

variable {b : Binary} {x : Float}

theorem ofFloat_eq (x : Float) : ofFloat x = ⟨x.toBits.toNat / 2 ^ 63 == 1,
    if exponentField x = 0 then x.toBits.toNat % 2 ^ 52 else x.toBits.toNat % 2 ^ 52 + 2 ^ 52,
    if exponentField x = 0 then leastExponent else leastExponent + (exponentField x - 1 : Nat)⟩ :=
  rfl

theorem ofBitVec_unpackSign (x : Float) :
    Sign.ofBitVec (unpackSign (bits x)) = (ofFloat x).sign := by
  have hsign : (unpackSign (bits x)).toNat = x.toBits.toNat / 2 ^ 63 :=
    toNat_unpackSign (bits x)
  have hlt : x.toBits.toNat < 2 ^ 64 := x.toBits.toBitVec.isLt
  simp only [Sign.ofBitVec, ← BitVec.toNat_inj, hsign, ofFloat_eq, sign]
  obtain ⟨top, htop⟩ : ∃ top, x.toBits.toNat / 2 ^ 63 = top := ⟨_, rfl⟩
  simp only [htop]
  rcases (by omega : top = 0 ∨ top = 1) with rfl | rfl <;> rfl

theorem unpack_toModel (x : Float) : x.toModel.unpack =
    if exponentField x = 2047 then
      if x.toBits.toNat % 2 ^ 52 = 0 then .infinity (ofFloat x).sign else .notANumber
    else (ofFloat x).unpacked := by
  have hexponent : (unpackExponent (bits x)).toNat = exponentField x :=
    toNat_unpackExponent (bits x)
  have hmantissa : (unpackMantissa (bits x)).toNat = x.toBits.toNat % 2 ^ 52 :=
    toNat_unpackMantissa (bits x)
  have hlong : (1#1 ++ unpackMantissa (bits x)).toNat =
      x.toBits.toNat % 2 ^ 52 + 2 ^ 52 := by
    have hlt := (unpackMantissa (bits x)).isLt
    rw [BitVec.toNat_append, ← Nat.shiftLeft_add_eq_or_of_lt hlt, hmantissa, Nat.shiftLeft_eq, Nat.add_comm]
    rfl
  have hbias : (Format.binary64.exponentBias : Int) + Format.binary64.mantissaBitsWithoutImplicit = 1075 := rfl
  change UnpackedFloat.unpack Format.binary64 (bits x) = _
  rw [UnpackedFloat.unpack]
  simp only [ofBitVec_unpackSign, ← BitVec.toNat_inj, hexponent, hmantissa, hlong, hbias]
  change (if exponentField x = 2047 then (if x.toBits.toNat % 2 ^ 52 = 0 then _ else _) else
    if exponentField x = 0 then (if h : x.toBits.toNat % 2 ^ 52 = 0 then _ else _) else _) = _
  split
  · rfl
  · rw [unpacked, Decimal.unpacked, ofFloat_eq]
    split
    · rename_i hzero
      simp only [hzero]
      rfl
    · rename_i hnonzero
      dsimp only
      rw [dif_neg (show ¬ x.toBits.toNat % 2 ^ 52 + 2 ^ 52 = 0 by omega)]
      congr 1
      rw [leastExponent]
      omega

/-! ## Finite numbers -/

theorem isFinite_unpacked (b : Binary) : b.unpacked.isFinite = true := by
  rw [unpacked, Decimal.unpacked]
  split <;> rfl

theorem isInf_unpacked (b : Binary) : b.unpacked.isInf = false := by
  rw [unpacked, Decimal.unpacked]
  split <;> rfl

theorem isNaN_unpacked (b : Binary) : b.unpacked.isNaN = false := by
  rw [unpacked, Decimal.unpacked]
  split <;> rfl

theorem isFinite_iff : x.isFinite = true ↔ exponentField x ≠ 2047 := by
  change x.toModel.unpack.isFinite = true ↔ _
  rw [unpack_toModel]
  split
  · rename_i hfield
    simp only [hfield, ne_eq, not_true, iff_false, Bool.not_eq_true]
    split <;> rfl
  · rename_i hfield
    simp [hfield, isFinite_unpacked]

theorem unpack_of_isFinite (h : x.isFinite = true) : x.toModel.unpack = (ofFloat x).unpacked := by
  rw [unpack_toModel, if_neg (isFinite_iff.1 h)]

theorem isInf_of_isFinite (h : x.isFinite = true) : x.isInf = false := by
  change x.toModel.unpack.isInf = false
  rw [unpack_of_isFinite h, isInf_unpacked]

theorem isNaN_of_isFinite (h : x.isFinite = true) : x.isNaN = false := by
  change x.toModel.unpack.isNaN = false
  rw [unpack_of_isFinite h, isNaN_unpacked]

theorem canonical_ofFloat (h : x.isFinite = true) : (ofFloat x).Canonical := by
  have hfield := isFinite_iff.1 h
  have hlt : exponentField x < 2 ^ 11 := Nat.mod_lt _ (by decide)
  have hfraction : x.toBits.toNat % 2 ^ 52 < 2 ^ 52 := Nat.mod_lt _ (by decide)
  rw [ofFloat_eq]
  constructor <;> simp only [leastExponent] <;> split <;> omega

theorem log2_of_canonical (h : b.Canonical) (hpos : b.mantissa ≠ 0) :
    b.mantissa.log2 + 1 = Format.binary64.mantissaBits ↔ ¬ b.mantissa < 2 ^ 52 := by
  have hlog := log2_le_of_lt h.mantissa_lt
  have hlong : 52 ≤ b.mantissa.log2 ↔ 2 ^ 52 ≤ b.mantissa := Nat.le_log2 hpos
  change b.mantissa.log2 + 1 = 53 ↔ _
  rw [Nat.not_lt, ← hlong]
  omega

theorem toNat_pack (h : b.Canonical) : (UnpackedFloat.pack Format.binary64 b.unpacked).toNat =
    (b.sign.toBitVec.toNat * 2 ^ 11 + if b.mantissa < 2 ^ 52 then 0 else (b.exponent + 1075).toNat) * 2 ^ 52 +
      b.mantissa % 2 ^ 52 := by
  have hleast := h.least
  have hgreatest := h.greatest
  rw [leastExponent] at hleast
  have hbias : b.exponent + Format.binary64.exponentBias + Format.binary64.mantissaBitsWithoutImplicit =
      b.exponent + 1075 := by
    rw [add_assoc]
    rfl
  rw [unpacked, Decimal.unpacked]
  split
  · rename_i hzero
    change (packComponents Format.binary64 b.sign 0#11 0#52).toNat = _
    rw [toNat_packComponents, hzero]
    rfl
  · rename_i hpos
    have hinfinite : ¬ 2 ^ Format.binary64.exponentBits ≤ (b.exponent + 1075).toNat + 1 := by
      change ¬ 2048 ≤ _
      omega
    simp only [UnpackedFloat.pack, hbias, if_neg hinfinite]
    split
    · rename_i hlong
      rw [toNat_packComponents, if_neg ((log2_of_canonical h hpos).1 hlong), BitVec.toNat_ofNat, BitVec.toNat_ofNat,
        Nat.mod_eq_of_lt (show (b.exponent + 1075).toNat < 2 ^ 11 by omega)]
    · rename_i hshort
      have hsubnormal : b.mantissa < 2 ^ 52 := not_not.1 fun hge => hshort ((log2_of_canonical h hpos).2 hge)
      rw [toNat_packComponents, if_pos hsubnormal, BitVec.toNat_ofNat]
      rfl

/-- The parts of a number that is put together are those that it is put together from. -/
theorem packed_spec (h : b.Canonical) : b.packed.isFinite = true ∧ ofFloat b.packed = b := by
  have hbits : b.packed.toBits.toNat = (b.sign.toBitVec.toNat * 2 ^ 11 +
      if b.mantissa < 2 ^ 52 then 0 else (b.exponent + 1075).toNat) * 2 ^ 52 + b.mantissa % 2 ^ 52 :=
    toNat_pack h
  have hsign : b.sign.toBitVec.toNat = if b.negative then 1 else 0 := by
    rw [sign]
    cases b.negative <;> rfl
  have hleast := h.least
  have hgreatest := h.greatest
  have hlt := h.mantissa_lt
  have hnormal := h.normal
  have hfield : exponentField b.packed = if b.mantissa < 2 ^ 52 then 0 else (b.exponent + 1075).toNat := by
    rw [exponentField, hbits, hsign]
    rw [leastExponent] at hleast
    split <;> split <;> omega
  refine ⟨isFinite_iff.2 ?_, ?_⟩
  · rw [hfield]
    split <;> omega
  · obtain ⟨negative, mantissa, exponent⟩ := b
    rw [ofFloat_eq, hfield, hbits, hsign]
    simp only [leastExponent] at *
    congr 1
    · cases negative <;> simp <;> split <;> omega
    · split <;> split <;> omega
    · split <;> split <;> omega

theorem unpack_packed (h : b.Canonical) : b.packed.toModel.unpack = b.unpacked := by
  obtain ⟨hfinite, hparts⟩ := packed_spec h
  rw [unpack_of_isFinite hfinite, hparts]

/-! ## Negation and infinity -/

def negated (b : Binary) : Binary :=
  { b with negative := !b.negative }

theorem Canonical.negated (h : b.Canonical) : b.negated.Canonical :=
  ⟨h.mantissa_lt, h.least, h.greatest, h.normal⟩

theorem neg_unpacked (b : Binary) : b.unpacked.neg = b.negated.unpacked := by
  obtain ⟨negative, mantissa, exponent⟩ := b
  by_cases hzero : mantissa = 0
  · subst hzero
    cases negative <;> rfl
  · have hunpacked (s : Sign) : Decimal.unpacked s mantissa exponent =
        .finite s mantissa exponent (Nat.pos_of_ne_zero hzero) := dif_neg hzero
    change (Decimal.unpacked _ mantissa exponent).neg = Decimal.unpacked _ mantissa exponent
    rw [hunpacked, hunpacked]
    cases negative <;> rfl

theorem neg_packed (h : b.Canonical) : -b.packed = b.negated.packed := by
  change Float.ofModel (.pack b.packed.toModel.unpack.neg) = _
  rw [unpack_packed h, neg_unpacked]
  rfl

end Binary

def infinite (s : Sign) : Float :=
  .ofModel (.pack (.infinity s))

theorem isFinite_infinite (s : Sign) : (infinite s).isFinite = false := by
  cases s <;> decide

theorem neg_infinite : -infinite .positive = infinite .negative := by
  decide

namespace Binary

/-! ## Products and quotients -/

/-- What a positive number is rounded to: a floating-point number, or infinity from the limit on. -/
inductive Rounded (v : ℚ) : Float → Prop
  | finite {n : Nat} {d : Int} (hrounds : RoundsTo v n d) (hlt : v < limit) : Rounded v (packed ⟨false, n, d⟩)
  | infinite (hge : limit ≤ v) : Rounded v (infinite .positive)

theorem canonical_of_roundsTo {v : ℚ} {n : Nat} {d : Int} (h : RoundsTo v n d) (hlt : v < limit) :
    Canonical ⟨false, n, d⟩ :=
  ⟨h.normal.1, h.normal.2.1, h.exponent_le_iff.2 hlt, h.normal.2.2⟩

theorem rounded_of_roundsTo {v : ℚ} {n : Nat} {d : Int} (h : RoundsTo v n d) :
    Rounded v (.ofModel (.pack (Decimal.unpacked .positive n d))) := by
  rcases lt_or_ge v limit with hlt | hge
  · exact .finite h hlt
  · have hlarge : ¬ d ≤ 971 := fun hd => absurd (h.exponent_le_iff.1 hd) (not_lt.2 hge)
    have hpos : n ≠ 0 := by
      rcases h.normal.2.2 with hleast | hnormal
      · rw [leastExponent] at hleast
        omega
      · omega
    have hfield : 2 ^ Format.binary64.exponentBits ≤
        (d + Format.binary64.exponentBias + Format.binary64.mantissaBitsWithoutImplicit).toNat + 1 := by
      change 2048 ≤ (d + 1023 + 52).toNat + 1
      omega
    have hpack : Float.ofModel (.pack (Decimal.unpacked .positive n d)) = Decimal.infinite .positive := by
      have hbits : UnpackedFloat.pack Format.binary64 (Decimal.unpacked .positive n d) =
          packedInfinity Format.binary64 .positive := by
        rw [Decimal.unpacked, dif_neg hpos]
        simp only [UnpackedFloat.pack, if_pos hfield]
      rw [Decimal.infinite]
      congr 1
      simp only [Float.Model.pack, hbits]
      rfl
    rw [hpack]
    exact .infinite hge

variable {b b₁ b₂ : Binary}

theorem unpacked_of_pos (h : 0 < b.mantissa) : b.unpacked = .finite b.sign b.mantissa b.exponent h :=
  dif_neg h.ne'

theorem rounded_mul (h₁ : b₁.Canonical) (h₂ : b₂.Canonical) (hsign₁ : b₁.negative = false)
    (hsign₂ : b₂.negative = false) (hpos₁ : 0 < b₁.mantissa) (hpos₂ : 0 < b₂.mantissa)
    (hlong : 2 ^ 52 ≤ b₁.mantissa * b₂.mantissa) : Rounded (b₁.size * b₂.size) (b₁.packed * b₂.packed) := by
  obtain ⟨n, d, hrounds, hresult⟩ := mul_eq b₁.exponent b₂.exponent hpos₁ hpos₂ hlong
  change Rounded _ (.ofModel (.pack (UnpackedFloat.mul _ b₁.packed.toModel.unpack b₂.packed.toModel.unpack)))
  rw [unpack_packed h₁, unpack_packed h₂, unpacked_of_pos hpos₁, unpacked_of_pos hpos₂, sign, sign, hsign₁, hsign₂,
    cond_false, hresult]
  exact rounded_of_roundsTo hrounds

theorem rounded_div (h₁ : b₁.Canonical) (h₂ : b₂.Canonical) (hsign₁ : b₁.negative = false)
    (hsign₂ : b₂.negative = false) (hpos₁ : 0 < b₁.mantissa) (hpos₂ : 0 < b₂.mantissa) :
    Rounded (b₁.size / b₂.size) (b₁.packed / b₂.packed) := by
  obtain ⟨n, d, hrounds, hresult⟩ := div_eq b₁.exponent b₂.exponent hpos₁ hpos₂
  change Rounded _ (.ofModel (.pack (UnpackedFloat.div _ b₁.packed.toModel.unpack b₂.packed.toModel.unpack)))
  rw [unpack_packed h₁, unpack_packed h₂, unpacked_of_pos hpos₁, unpacked_of_pos hpos₂, sign, sign, hsign₁, hsign₂,
    cond_false, hresult]
  exact rounded_of_roundsTo hrounds

end Binary

end SemanticLayer.Decimal
