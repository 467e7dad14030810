import SemanticLayer.Proofs.Decimal.Spelled
import SemanticLayer.Proofs.Json.Decimals
import SemanticLayer.Query.Filter
/-!
Values of filters in the types of their columns. A value that is in the type of its column stays; a text in a column of
numbers becomes the integer that it is, or else the nearest floating-point number, which need not be the same number.
-/
namespace SemanticLayer.ValueType

open Decimal

variable {s : String} {value : Json} {n : Int} {x : Float} {v : ℚ}

/-! ## Values that stay -/

theorem isNumber_of_toNumber? (h : toNumber? s = some value) : (∃ n, value = .int n) ∨ ∃ x, value = .float x := by
  unfold toNumber? at h
  dsimp only at h
  split at h
  · exact .inl ⟨_, (Option.some.inj h).symm⟩
  · split at h
    · split at h
      · exact .inr ⟨_, (Option.some.inj h).symm⟩
      · cases h
    · cases h

theorem isTruth_of_toTruth? (h : toTruth? s = some value) : ∃ b, value = .bool b := by
  unfold toTruth? at h
  split at h
  case h_7 => cases h
  all_goals exact ⟨_, (Option.some.inj h).symm⟩

theorem coerce_coerce_number (s : String) :
    coerce (some .number) (coerce (some .number) (.str s)) = coerce (some .number) (.str s) := by
  cases hnumber : toNumber? s with
  | none => simp only [coerce, hnumber, Option.getD_none]
  | some value =>
      simp only [coerce, hnumber, Option.getD_some]
      rcases isNumber_of_toNumber? hnumber with ⟨n, rfl⟩ | ⟨x, rfl⟩ <;> rfl

theorem coerce_coerce_boolean (s : String) :
    coerce (some .boolean) (coerce (some .boolean) (.str s)) = coerce (some .boolean) (.str s) := by
  cases htruth : toTruth? s with
  | none => simp only [coerce, htruth, Option.getD_none]
  | some value =>
      simp only [coerce, htruth, Option.getD_some]
      obtain ⟨b, rfl⟩ := isTruth_of_toTruth? htruth
      rfl

theorem coerce_coerce (type : Option ValueType) (value : Json) :
    coerce type (coerce type value) = coerce type value := by
  cases type with
  | none => rfl
  | some type =>
      cases type with
      | number =>
          cases value with
          | str s => exact coerce_coerce_number s
          | _ => rfl
      | boolean =>
          cases value with
          | str s => exact coerce_coerce_boolean s
          | _ => rfl
      | string => cases value <;> rfl
      | date => cases value <;> rfl

/-! ## Texts in a column of numbers -/

/-- A text is an integer of 64 bits, with blanks around it or without. -/
def IsInt64 (s : String) : Prop :=
  ∃ n, Spells (Text.trim s.toList) n ∧ -2 ^ 63 ≤ n ∧ n < 2 ^ 63

theorem toNumber?_of_spells (h : Spells (Text.trim s.toList) n) (hlow : -2 ^ 63 ≤ n) (hhigh : n < 2 ^ 63) :
    toNumber? s = some (.int n) := by
  simp only [toNumber?, readInt64?_eq_some_iff.2 ⟨h, hlow, hhigh⟩]

theorem toNumber?_of_float (hint : readInt64? (Text.trim s.toList) = none)
    (hfloat : readFloat? (Text.trim s.toList) = some x) :
    toNumber? s = if x.isFinite then some (.float x) else none := by
  simp only [toNumber?, hint, hfloat]

theorem readInt64?_eq_none (h : ¬ IsInt64 s) : readInt64? (Text.trim s.toList) = none := by
  rw [Option.eq_none_iff_forall_ne_some]
  exact fun n hread => h ⟨n, readInt64?_eq_some_iff.1 hread⟩

/-- A text that stands for no number does not convert. -/
theorem toNumber?_eq_none (h : ∀ v, ¬ Denotes (Text.trimmed s) v) : toNumber? s = none := by
  have hread : Literal.read? (splitSign (Text.trim s.toList)).2 = none := by
    rw [Option.eq_none_iff_forall_ne_some]
    intro l hl
    refine h _ ⟨l, ?_, rfl⟩
    rw [Text.trimmed, String.toList_ofList]
    exact hl
  have hint : readInt64? (Text.trim s.toList) = none := by
    refine readInt64?_eq_none ?_
    rintro ⟨n, hspells, -⟩
    exact h n hspells.denotes
  cases hfloat : readFloat? (Text.trim s.toList) with
  | none => simp only [toNumber?, hint, hfloat]
  | some x =>
      rw [toNumber?_of_float hint hfloat, not_isFinite_of_readFloat? hread hfloat]
      rfl

/-- Whether a text in a column of numbers becomes a number of the same value, or else stays as it is. -/
def KeepsMeaning (s : String) : Prop :=
  coerce (some .number) (.str s) = .str s ∨
    ∃ v, Denotes (Text.trimmed s) v ∧ Denotes (coerce (some .number) (.str s)).compact v ∧
      ((∃ n, coerce (some .number) (.str s) = .int n) ∨ ∃ x, coerce (some .number) (.str s) = .float x)

theorem coerce_of_spells (h : Spells (Text.trim s.toList) n) (hlow : -2 ^ 63 ≤ n) (hhigh : n < 2 ^ 63) :
    coerce (some .number) (.str s) = .int n ∧ Denotes (Text.trimmed s) n ∧ Denotes (Json.int n).compact n := by
  rw [coerce, toNumber?_of_spells h hlow hhigh, Json.compact]
  exact ⟨rfl, h.denotes, Json.denotes_toString n⟩

/-- The number of any other text is rounded. -/
theorem coerce_of_denotes (hint : ¬ IsInt64 s) (hv : Denotes (Text.trimmed s) v) (hlt : |v| < limit) :
    ∃ x : Float, coerce (some .number) (.str s) = .float x ∧ x.isFinite = true ∧
      (∀ y : Float, y.isFinite = true → |(Binary.ofFloat x).value - v| ≤ |(Binary.ofFloat y).value - v|) ∧
      (Denotes (Json.float x).compact v ↔ ∃ y : Float, y.isFinite = true ∧ Denotes (Json.float y).compact v) := by
  have hcompact {x : Float} (hx : x.isFinite = true) : (Json.float x).compact = write x := by
    rw [Json.compact, if_pos hx]
  obtain ⟨x, hread, hwithin, -⟩ := readFloat?_of_denotes hv
  obtain ⟨hfinite, hnearest, hwritten⟩ := hwithin hlt
  rw [coerce, toNumber?_of_float (readInt64?_eq_none hint) hread, if_pos hfinite]
  refine ⟨x, rfl, hfinite, hnearest, fun hdenotes => ⟨x, hfinite, hdenotes⟩, ?_⟩
  rintro ⟨y, hy, hdenotes⟩
  rw [hcompact hy] at hdenotes
  rw [hcompact hfinite]
  exact hwritten y hy hdenotes

theorem coerce_of_limit_le (hint : ¬ IsInt64 s) (hv : Denotes (Text.trimmed s) v) (hge : limit ≤ |v|) :
    coerce (some .number) (.str s) = .str s := by
  obtain ⟨x, hread, -, hbeyond⟩ := readFloat?_of_denotes hv
  rw [coerce, toNumber?_of_float (readInt64?_eq_none hint) hread, hbeyond hge]
  rfl

theorem coerce_of_not_denotes (h : ∀ v, ¬ Denotes (Text.trimmed s) v) : coerce (some .number) (.str s) = .str s := by
  rw [coerce, toNumber?_eq_none h]
  rfl

/-- A text that is no integer keeps its meaning if a floating-point number is written as its number. -/
theorem keepsMeaning_iff (s : String) : KeepsMeaning s ↔ ∀ v, Denotes (Text.trimmed s) v → |v| < limit →
    IsInt64 s ∨ ∃ y : Float, y.isFinite = true ∧ Denotes (Json.float y).compact v := by
  by_cases hint : IsInt64 s
  · obtain ⟨n, hspells, hlow, hhigh⟩ := id hint
    obtain ⟨hresult, hspelt, hwritten⟩ := coerce_of_spells hspells hlow hhigh
    refine iff_of_true (.inr ⟨n, hspelt, ?_, .inl ⟨n, hresult⟩⟩) fun v _ _ => .inl hint
    rw [hresult]
    exact hwritten
  by_cases hnumber : ∃ v, Denotes (Text.trimmed s) v
  · obtain ⟨v, hv⟩ := hnumber
    rcases lt_or_ge |v| limit with hlt | hge
    · obtain ⟨x, hresult, -, -, hexact⟩ := coerce_of_denotes hint hv hlt
      constructor
      · rintro (hkept | ⟨w, hw, hwritten, -⟩) v' hv' -
        · rw [hresult] at hkept
          cases hkept
        · obtain rfl := hw.unique hv'
          obtain rfl := hw.unique hv
          rw [hresult] at hwritten
          exact .inr (hexact.1 hwritten)
      · intro h
        refine .inr ⟨v, hv, ?_, .inr ⟨x, hresult⟩⟩
        rw [hresult]
        exact hexact.2 ((h v hv hlt).resolve_left hint)
    · refine iff_of_true (.inl (coerce_of_limit_le hint hv hge)) fun v' hv' hlt => ?_
      exact absurd hge (not_le.2 (hv.unique hv' ▸ hlt))
  · rw [not_exists] at hnumber
    exact iff_of_true (.inl (coerce_of_not_denotes hnumber)) fun v hv => absurd hv (hnumber v)

/-- To bring a value to the type of its column once is enough. A text in a column of numbers that is an integer of 64
bits, with blanks around it or without, becomes that integer. Any other one that stands for a number within the range
becomes the nearest floating-point number, which is written as that number if any floating-point number is: only then
does the text keep its meaning. Beyond the range, and where it stands for no number, the text stays as it is. -/
theorem coerce_value (type : Option ValueType) (value : Json) (s : String) :
    coerce type (coerce type value) = coerce type value ∧
    (∀ n, Spells (Text.trim s.toList) n → -2 ^ 63 ≤ n → n < 2 ^ 63 →
      coerce (some .number) (.str s) = .int n ∧ Denotes (Text.trimmed s) n ∧ Denotes (Json.int n).compact n) ∧
    (¬ IsInt64 s → ∀ v, Denotes (Text.trimmed s) v →
      (|v| < limit → ∃ x : Float, coerce (some .number) (.str s) = .float x ∧ x.isFinite = true ∧
        (∀ y : Float, y.isFinite = true → |(Binary.ofFloat x).value - v| ≤ |(Binary.ofFloat y).value - v|) ∧
        (Denotes (Json.float x).compact v ↔ ∃ y : Float, y.isFinite = true ∧ Denotes (Json.float y).compact v)) ∧
      (limit ≤ |v| → coerce (some .number) (.str s) = .str s)) ∧
    ((∀ v, ¬ Denotes (Text.trimmed s) v) → coerce (some .number) (.str s) = .str s) ∧
    (KeepsMeaning s ↔ ∀ v, Denotes (Text.trimmed s) v → |v| < limit →
      IsInt64 s ∨ ∃ y : Float, y.isFinite = true ∧ Denotes (Json.float y).compact v) :=
  ⟨coerce_coerce type value, fun _ hspells hlow hhigh => coerce_of_spells hspells hlow hhigh,
    fun hint _ hv => ⟨coerce_of_denotes hint hv, coerce_of_limit_le hint hv⟩, coerce_of_not_denotes, keepsMeaning_iff s⟩

theorem not_keepsMeaning_longAmount : ¬ KeepsMeaning "9007199254740993.5" := by
  have hcompact : (coerce (some .number) (.str "9007199254740993.5")).compact = "9007199254740994.0" := by
    decide +kernel
  rintro (hkept | ⟨v, hspelt, hwritten, -⟩)
  · rw [hkept] at hcompact
    revert hcompact
    decide +kernel
  · rw [hcompact] at hwritten
    have hspelt' := (denotes_iff_of_read? (l := ⟨90071992547409935, -1⟩) (by decide +kernel)).1 hspelt
    have hwritten' := (denotes_iff_of_read? (l := ⟨90071992547409940, -1⟩) (by decide +kernel)).1 hwritten
    have hplus : (splitSign (Text.trimmed "9007199254740993.5").toList).1 = false := by decide +kernel
    have hplus' : (splitSign "9007199254740994.0".toList).1 = false := by decide +kernel
    rw [hspelt', hplus, hplus'] at hwritten'
    norm_num [signedValue, Literal.value] at hwritten'

end SemanticLayer.ValueType
