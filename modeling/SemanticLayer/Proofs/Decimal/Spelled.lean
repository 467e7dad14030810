import SemanticLayer.Proofs.Decimal.Nearest
import SemanticLayer.Proofs.Decimal.Reading
/-!
Any text that may stand for a number: as what integer it is read, and as what floating-point number. The number of a
text with a point or an exponent is rounded once, with its sign put in front.
-/
namespace SemanticLayer.Decimal

variable {s : List Char} {a : Bool} {l : Literal} {n : Nat} {d : Int} {v w : ℚ} {x y : Float}

/-! ## Integers -/

def Spells (s : List Char) (n : Int) : Prop :=
  ∃ a ds, splitSign s = (a, ds) ∧ ds ≠ [] ∧ (∀ c ∈ ds, c.isDigit = true) ∧
    n = if a then -(digitsValue 0 ds : Int) else digitsValue 0 ds

theorem readNat?_eq_some_iff : readNat? s = some n ↔ s ≠ [] ∧ (∀ c ∈ s, c.isDigit = true) ∧ n = digitsValue 0 s := by
  constructor
  · intro h
    unfold readNat? at h
    split at h
    · cases h
    · rename_i hdigits
      rw [Bool.or_eq_true, not_or, Bool.not_eq_true', Bool.not_eq_false] at hdigits
      exact ⟨by simpa using hdigits.1, List.all_eq_true.1 hdigits.2, (Option.some.inj h).symm⟩
  · rintro ⟨hne, hds, rfl⟩
    exact readNat?_digits hne hds

theorem readInt?_eq_some_iff {n : Int} : readInt? s = some n ↔ Spells s n := by
  constructor
  · intro h
    obtain ⟨⟨a, ds⟩, hsign⟩ : ∃ split, splitSign s = split := ⟨_, rfl⟩
    cases hdigits : readNat? ds with
    | none => simp [readInt?, hsign, hdigits] at h
    | some m =>
        obtain ⟨hne, hds, rfl⟩ := readNat?_eq_some_iff.1 hdigits
        rw [readInt?_of_splitSign hsign hne hds] at h
        exact ⟨a, ds, hsign, hne, hds, (Option.some.inj h).symm⟩
  · rintro ⟨a, ds, hsign, hne, hds, rfl⟩
    exact readInt?_of_splitSign hsign hne hds

theorem Spells.denotes {n : Int} (h : Spells s n) : Denotes (String.ofList s) n := by
  obtain ⟨a, ds, hsign, hne, hds, rfl⟩ := h
  have hread := read?_whole [] hne hds (by simp)
  rw [List.append_nil] at hread
  rw [Denotes, String.toList_ofList, hsign]
  refine ⟨_, hread, ?_⟩
  cases a <;> simp [Literal.value, signedValue]

theorem int64?_eq_some_iff {m n : Int} : int64? m = some n ↔ m = n ∧ -2 ^ 63 ≤ n ∧ n < 2 ^ 63 := by
  simp only [int64?, Bool.and_eq_true, decide_eq_true_eq]
  split
  · rename_i h
    rw [Option.some_inj]
    exact ⟨fun heq => ⟨heq, heq ▸ h⟩, fun hn => hn.1⟩
  · rename_i h
    exact ⟨fun hnone => (by cases hnone), fun ⟨heq, hbounds⟩ => absurd (heq ▸ hbounds) h⟩

theorem readInt64?_eq_some_iff {n : Int} : readInt64? s = some n ↔ Spells s n ∧ -2 ^ 63 ≤ n ∧ n < 2 ^ 63 := by
  rw [readInt64?, Option.bind_eq_some_iff]
  constructor
  · rintro ⟨m, hm, hn⟩
    obtain ⟨rfl, hbounds⟩ := int64?_eq_some_iff.1 hn
    exact ⟨readInt?_eq_some_iff.1 hm, hbounds⟩
  · rintro ⟨hn, hbounds⟩
    exact ⟨n, readInt?_eq_some_iff.2 hn, int64?_eq_some_iff.2 ⟨rfl, hbounds⟩⟩

theorem denotes_iff_of_read? {text : String} (h : Literal.read? (splitSign text.toList).2 = some l) :
    Denotes text v ↔ v = signedValue (splitSign text.toList).1 l.value := by
  rw [Denotes, h]
  simp

theorem Denotes.unique {text : String} (hv : Denotes text v) (hw : Denotes text w) : v = w := by
  obtain ⟨l, hl, rfl⟩ := hv
  exact ((denotes_iff_of_read? hl).1 hw).symm

/-! ## Words -/

/-- The first character of a number is a digit or a point. -/
theorem head_of_read? (h : Literal.read? s = some l) : ∃ c rest, s = c :: rest ∧ (c.isDigit = true ∨ c = '.') := by
  cases s with
  | nil => simp [Literal.read?] at h
  | cons c rest =>
      refine ⟨c, rest, rfl, ?_⟩
      by_contra hnot
      obtain ⟨hdigit, hpoint⟩ := not_or.1 hnot
      simp [Literal.read?, hdigit, hpoint] at h

theorem toLower_eq_self {c : Char} (h : c.isDigit = true ∨ c = '.') : c.toLower = c := by
  rcases h with hdigit | rfl
  · have hhigh := (Char.isDigit_iff_toNat.1 hdigit).2
    have hnine : '9'.toNat = 57 := rfl
    rw [Char.toLower, dif_neg]
    rintro ⟨hle, -⟩
    have hle' : 65 ≤ c.toNat := hle
    omega
  · rfl

theorem readWord?_of_head {c : Char} {rest : List Char} (h : c.isDigit = true ∨ c = '.') :
    readWord? (c :: rest) = none := by
  have hword (first : Char) (word : List Char) (hfirst : first.isDigit = false ∧ first ≠ '.') :
      String.ofList ((c :: rest).map Char.toLower) ≠ String.ofList (first :: word) := by
    intro heq
    have hlist := String.ofList_injective heq
    rw [List.map_cons, toLower_eq_self h] at hlist
    obtain ⟨rfl, -⟩ := List.cons.inj hlist
    rcases h with hdigit | hpoint
    · rw [hfirst.1] at hdigit
      cases hdigit
    · exact hfirst.2 hpoint
  unfold readWord?
  split
  · rename_i heq
    exact absurd heq (hword 'i' ['n', 'f'] (by decide))
  · rename_i heq
    exact absurd heq (hword 'i' ['n', 'f', 'i', 'n', 'i', 't', 'y'] (by decide))
  · rename_i heq
    exact absurd heq (hword 'n' ['a', 'n'] (by decide))
  · rfl

/-- No word stands for a finite number, with a sign or without. -/
theorem not_isFinite_of_readWord? (h : readWord? s = some x) (a : Bool) :
    (if a then -x else x).isFinite = false := by
  unfold readWord? at h
  split at h
  · obtain rfl := Option.some.inj h
    cases a <;> decide +kernel
  · obtain rfl := Option.some.inj h
    cases a <;> decide +kernel
  · obtain rfl := Option.some.inj h
    cases a <;> decide +kernel
  · cases h

/-! ## Floating-point numbers -/

theorem readFloat?_of_read? (h : Literal.read? (splitSign s).2 = some l) :
    readFloat? s = some (if (splitSign s).1 then -l.toFloat else l.toFloat) := by
  obtain ⟨c, rest, hrest, hc⟩ := head_of_read? h
  have hword : readWord? (splitSign s).2 = none := by
    rw [hrest]
    exact readWord?_of_head hc
  simp only [readFloat?, hword, h, Option.map_some]

/-- A text that stands for no number is read as no finite number. -/
theorem not_isFinite_of_readFloat? (h : Literal.read? (splitSign s).2 = none) (hx : readFloat? s = some x) :
    x.isFinite = false := by
  rw [readFloat?] at hx
  generalize splitSign s = split at h hx
  cases hword : readWord? split.2 with
  | some y =>
      simp only [hword, Option.map_some] at hx
      obtain rfl := Option.some.inj hx
      exact not_isFinite_of_readWord? hword split.1
  | none =>
      simp only [hword, h, Option.map_none] at hx
      cases hx

/-- Within the range a literal is read as the number with the parts to which its value is rounded, and its sign. -/
theorem Literal.exists_parts (a : Bool) (hlt : l.value < limit) :
    ∃ n d, RoundsTo l.value n d ∧ Binary.Canonical ⟨a, n, d⟩ ∧
      (if a then -l.toFloat else l.toFloat) = Binary.packed ⟨a, n, d⟩ := by
  obtain ⟨n, d, hrounds, hcanonical, hfloat⟩ : ∃ n d, RoundsTo l.value n d ∧ Binary.Canonical ⟨false, n, d⟩ ∧
      l.toFloat = Binary.packed ⟨false, n, d⟩ := by
    by_cases hzero : l.mantissa = 0
    · have hrounds : RoundsTo l.value 0 Binary.leastExponent := by
        rw [Literal.value, hzero, Nat.cast_zero, zero_mul]
        exact roundsTo_zero le_rfl (zpow_pos (by norm_num) _)
      exact ⟨0, _, hrounds, Binary.canonical_of_roundsTo hrounds hlt, Literal.toFloat_of_zero hzero⟩
    · have hrounded := Literal.rounded_toFloat hzero
      generalize l.toFloat = x at hrounded
      cases hrounded with
      | finite hrounds _ => exact ⟨_, _, hrounds, Binary.canonical_of_roundsTo hrounds hlt, rfl⟩
      | infinite hge => exact absurd hlt (not_lt.2 hge)
  refine ⟨n, d, hrounds, ?_, ?_⟩
  · exact ⟨hcanonical.mantissa_lt, hcanonical.least, hcanonical.greatest, hcanonical.normal⟩
  · cases a with
    | false => exact hfloat
    | true =>
        simp only [if_true, hfloat]
        exact Binary.neg_packed hcanonical

theorem Literal.not_isFinite (a : Bool) (hge : limit ≤ l.value) :
    (if a then -l.toFloat else l.toFloat).isFinite = false := by
  have hpos : 0 < l.value := ((zpow_pos (by norm_num) _).trans lt_limit).trans_le hge
  have hmantissa : l.mantissa ≠ 0 := by
    intro hzero
    simp [Literal.value, hzero] at hpos
  have hrounded := Literal.rounded_toFloat hmantissa
  generalize l.toFloat = x at hrounded
  cases hrounded with
  | finite _ hlt => exact absurd hlt (not_lt.2 hge)
  | infinite _ =>
      split
      · rw [neg_infinite, isFinite_infinite]
      · exact isFinite_infinite _

theorem Literal.value_nonneg (l : Literal) : 0 ≤ l.value :=
  mul_nonneg (Nat.cast_nonneg _) (zpow_pos (by norm_num) _).le

theorem abs_signedValue (hv : 0 ≤ v) : |signedValue a v| = v := by
  rw [signedValue]
  split
  · rw [abs_neg, abs_of_nonneg hv]
  · exact abs_of_nonneg hv

/-- If any floating-point number is written as a given number, so is the one to which the number is rounded. -/
theorem denotes_write_of_roundsTo (hx : x.isFinite = true) (hy : y.isFinite = true) (hw : 0 ≤ w)
    (hparts : Binary.ofFloat x = ⟨a, n, d⟩) (hrounds : RoundsTo w n d)
    (h : Denotes (write y) (signedValue a w)) : Denotes (write x) (signedValue a w) := by
  rcases eq_or_lt_of_le hw with rfl | hpos
  · have hn : n = 0 := (hrounds.unique (roundsTo_zero le_rfl (zpow_pos (by norm_num) _))).1
    rw [denotes_write hx, hparts, Binary.written, signedValue_zero]
    simp only [hn, if_true, signedValue_zero]
  · have hvalue := (denotes_write hy).1 h
    have hcanonical := Binary.canonical_ofFloat hy
    generalize hb : Binary.ofFloat y = b at hvalue hcanonical
    rw [Binary.written] at hvalue
    by_cases hmantissa : b.mantissa = 0
    · rw [if_pos hmantissa] at hvalue
      exact absurd (signedValue_inj hpos le_rfl hvalue).2 hpos.ne'
    · rw [if_neg hmantissa] at hvalue
      have hnonneg : 0 ≤ (shortest b).value := mul_nonneg (Nat.cast_nonneg _) (zpow_pos (by norm_num) _).le
      obtain ⟨hsign, hsize⟩ := signedValue_inj hpos hnonneg hvalue
      have hdigits : (shortest b).digits ≠ 0 := by
        intro hnone
        rw [hsize, Scaled.value, hnone, Nat.cast_zero, zero_mul] at hpos
        exact lt_irrefl _ hpos
      have hshortest := roundsTo_shortest hcanonical (Nat.pos_of_ne_zero hmantissa) hdigits
      rw [← hsize] at hshortest
      obtain ⟨hn, hd⟩ := hrounds.unique hshortest
      have hsame : Binary.ofFloat x = Binary.ofFloat y := by
        rw [hparts, hb, hsign, hn, hd]
      rw [write_congr hx hy hsame]
      exact h

/-- A text that stands for a number within the range is read as the nearest floating-point number, which is written as
that number if any floating-point number is; from the limit on it is read as no finite number. -/
theorem readFloat?_of_denotes (h : Denotes (String.ofList s) v) : ∃ x, readFloat? s = some x ∧
    (|v| < limit → x.isFinite = true ∧
      (∀ y : Float, y.isFinite = true → |(Binary.ofFloat x).value - v| ≤ |(Binary.ofFloat y).value - v|) ∧
      ∀ y : Float, y.isFinite = true → Denotes (write y) v → Denotes (write x) v) ∧
    (limit ≤ |v| → x.isFinite = false) := by
  obtain ⟨l, hread, rfl⟩ := h
  rw [String.toList_ofList] at hread ⊢
  rw [abs_signedValue l.value_nonneg]
  refine ⟨_, readFloat?_of_read? hread, fun hlt => ?_, Literal.not_isFinite _⟩
  obtain ⟨n, d, hrounds, hcanonical, hpacked⟩ := Literal.exists_parts (splitSign s).1 hlt
  obtain ⟨hfinite, hparts⟩ := Binary.packed_spec hcanonical
  rw [hpacked]
  exact ⟨hfinite, fun y hy => Binary.abs_sub_le hparts hrounds l.value_nonneg hy,
    fun y hy hdenotes => denotes_write_of_roundsTo hfinite hy l.value_nonneg hparts hrounds hdenotes⟩

end SemanticLayer.Decimal
