import Mathlib.Algebra.Order.Field.Basic
import Mathlib.Algebra.Order.Field.Rat
import Mathlib.Data.Nat.Digits.Lemmas
import Mathlib.Logic.Relation
import Mathlib.Tactic.FieldSimp
import Mathlib.Tactic.Linarith
import Mathlib.Tactic.NormNum
import Mathlib.Tactic.Positivity
import Mathlib.Tactic.Ring
import SemanticLayer.Proofs.Decimal.Digits
import SemanticLayer.Wire.Postgres.Numeric
/-!
Decimal numbers in PostgreSQL's binary form are written as their exact decimal texts, whatever groups of zeros are
left out at either end.
-/
namespace SemanticLayer.Wire

/-! ## Words of two bytes -/

def wordBytes (word : Nat) : List UInt8 :=
  [UInt8.ofNat (word / 256), UInt8.ofNat word]

theorem bigEndian_wordBytes {word : Nat} (h : word < 65536) : bigEndian (wordBytes word) = word := by
  simp [bigEndian, wordBytes]
  omega

theorem words_flatMap {ws : List Nat} (h : ∀ w ∈ ws, w < 65536) : words (ws.flatMap wordBytes) = ws := by
  induction ws with
  | nil => rfl
  | cons w ws ih =>
      change bigEndian (wordBytes w) :: words (ws.flatMap wordBytes) = w :: ws
      rw [bigEndian_wordBytes (h w (by simp)), ih fun w' hw' => h w' (by simp [hw'])]

theorem length_words (bs : List UInt8) : (words bs).length = bs.length / 2 := by
  induction bs using words.induct with
  | case1 a b rest ih =>
      simp only [words, List.length_cons, ih]
      omega
  | case2 bs hshort =>
      match bs, hshort with
      | [], _ => rfl
      | [_], _ => simp [words]
      | a :: b :: rest, hshort => exact absurd rfl (hshort a b rest)

namespace Postgres

open Decimal (digitsValue)

/-! ## Decimal numbers and their binary form -/

/-- The value of groups of which the first counts the given power of 10000. -/
def groupsValue : Int → List Nat → ℚ
  | _, [] => 0
  | weight, g :: rest => g * 10000 ^ weight + groupsValue (weight - 1) rest

/-- The exact text of a decimal number with so many digits behind the point. -/
def ExactText (value : ℚ) (scale : Nat) (text : String) : Prop :=
  ∃ whole fraction : List Char,
    text.toList = (if value < 0 then ['-'] else []) ++ whole ++ (if scale = 0 then [] else '.' :: fraction) ∧
    (∀ c ∈ whole ++ fraction, c.isDigit = true) ∧ whole ≠ [] ∧ (whole.head? = some '0' → whole = ['0']) ∧
    fraction.length = scale ∧ |value| * 10 ^ scale = digitsValue 0 (whole ++ fraction)

namespace Numeric

/-- The binary form of a decimal number with so many digits behind the point. Groups of zeros at either end are left
out, and zero has no groups. -/
structure Sends (n : Numeric) (value : ℚ) (scale : Nat) : Prop where
  groups_lt : ∀ g ∈ n.groups, g < 10000
  head_ne : n.groups.head? ≠ some 0
  last_ne : n.groups.getLast? ≠ some 0
  weight_zero : n.groups = [] → n.weight = 0
  abs_value : |value| = groupsValue n.weight n.groups
  sign : n.sign = if value < 0 then 0x4000 else 0
  scale : n.scale = scale

variable {n : Numeric} {value : ℚ} {scale : Nat} {gs : List Nat}

/-! ## The groups from a place on -/

theorem groupsValue_add (weight more : Int) (gs : List Nat) :
    groupsValue (weight + more) gs = 10000 ^ more * groupsValue weight gs := by
  induction gs generalizing weight with
  | nil => simp [groupsValue]
  | cons g gs ih =>
      have hnext : weight + more - 1 = weight - 1 + more := by ring
      rw [groupsValue, groupsValue, hnext, ih, zpow_add₀ (by norm_num)]
      ring

theorem groupsValue_cons (g : Nat) (gs : List Nat) :
    groupsValue (-1) (g :: gs) = (g + groupsValue (-1) gs) / 10000 := by
  rw [groupsValue, sub_eq_add_neg, groupsValue_add]
  norm_num
  ring

theorem groupsValue_bounds (h : ∀ g ∈ gs, g < 10000) :
    0 ≤ groupsValue (-1) gs ∧ groupsValue (-1) gs < 1 := by
  induction gs with
  | nil => simp [groupsValue]
  | cons g gs ih =>
      obtain ⟨hnonneg, hlt⟩ := ih fun g' hg' => h g' (by simp [hg'])
      have hg : (g : ℚ) ≤ 9999 := by exact_mod_cast Nat.le_of_lt_succ (h g (by simp))
      have hg0 : (0 : ℚ) ≤ g := Nat.cast_nonneg g
      rw [groupsValue_cons]
      constructor
      · positivity
      · rw [div_lt_one (by norm_num)]
        linarith

/-- What the groups from a place on stand for, as a part of the place in front of it. -/
def rest (n : Numeric) (place : Int) : ℚ :=
  if place < 0 then 10000 ^ place * groupsValue (-1) n.groups
  else groupsValue (-1) (n.groups.drop place.toNat)

/-- The digits of so many groups from a place on. -/
def digitsFrom (n : Numeric) (place : Int) (count : Nat) : List Char :=
  (List.range count).flatMap fun i => Text.padded 4 (n.group (place + (i : Nat)))

theorem group_lt (h : ∀ g ∈ n.groups, g < 10000) (place : Int) : n.group place < 10000 := by
  unfold group
  split
  · decide
  · rw [List.getD_eq_getElem?_getD]
    cases hg : n.groups[place.toNat]? with
    | none => decide
    | some g => exact h g (List.mem_of_getElem? hg)

theorem length_padded_group (h : ∀ g ∈ n.groups, g < 10000) (place : Int) :
    (Text.padded 4 (n.group place)).length = 4 :=
  Text.length_padded (group_lt h place) (by decide)

theorem rest_eq (n : Numeric) (place : Int) : n.rest place = (n.group place + n.rest (place + 1)) / 10000 := by
  unfold rest group
  rcases lt_trichotomy place (-1) with hlt | rfl | hgt
  · rw [if_pos (by omega), if_pos (by omega), if_pos (by omega), zpow_add₀ (by norm_num)]
    norm_num
    ring
  · norm_num
    ring
  · rw [if_neg (by omega), if_neg (by omega), if_neg (by omega)]
    have hnext : (place + 1).toNat = place.toNat + 1 := by omega
    rw [hnext, List.getD_eq_getElem?_getD]
    rcases Nat.lt_or_ge place.toNat n.groups.length with hlt | hge
    · rw [List.drop_eq_getElem_cons hlt, groupsValue_cons, List.getElem?_eq_getElem hlt]
      rfl
    · rw [List.drop_eq_nil_of_le hge, List.drop_eq_nil_of_le (by omega), List.getElem?_eq_none hge]
      simp [groupsValue]

theorem rest_bounds (h : ∀ g ∈ n.groups, g < 10000) (place : Int) : 0 ≤ n.rest place ∧ n.rest place < 1 := by
  unfold rest
  split
  · rename_i hplace
    obtain ⟨hnonneg, hlt⟩ := groupsValue_bounds h
    have hpow : (10000 : ℚ) ^ place ≤ 1 := zpow_le_one_of_nonpos₀ (by norm_num) (by omega)
    have hpos : (0 : ℚ) < 10000 ^ place := zpow_pos (by norm_num) place
    exact ⟨mul_nonneg hpos.le hnonneg, by nlinarith⟩
  · exact groupsValue_bounds fun g hg => h g (List.mem_of_mem_drop hg)

theorem length_digitsFrom (h : ∀ g ∈ n.groups, g < 10000) (place : Int) (count : Nat) :
    (n.digitsFrom place count).length = 4 * count := by
  induction count with
  | zero => rfl
  | succ count ih =>
      have hlength := length_padded_group h (place + (count : Nat))
      rw [digitsFrom, List.range_succ, List.flatMap_append, List.length_append]
      change (n.digitsFrom place count).length + _ = _
      simp [ih, hlength]
      omega

theorem isDigit_of_mem_digitsFrom {c : Char} {place : Int} {count : Nat} (h : c ∈ n.digitsFrom place count) :
    c.isDigit = true := by
  obtain ⟨i, _, hc⟩ := List.mem_flatMap.1 h
  exact Text.isDigit_of_mem_padded hc

theorem digitsFrom_succ (n : Numeric) (place : Int) (count : Nat) : n.digitsFrom place (count + 1) =
    n.digitsFrom place count ++ Text.padded 4 (n.group (place + (count : Nat))) := by
  simp [digitsFrom, List.range_succ]

/-- So many groups from a place on, and what is left behind them. -/
theorem rest_eq_digitsFrom (h : ∀ g ∈ n.groups, g < 10000) (place : Int) (count : Nat) :
    n.rest place * 10000 ^ count = digitsValue 0 (n.digitsFrom place count) + n.rest (place + (count : Nat)) := by
  induction count with
  | zero => simp [digitsFrom, digitsValue]
  | succ count ih =>
      have hlength := length_padded_group h (place + (count : Nat))
      have hnext : place + (count : Nat) + 1 = place + ((count + 1 : Nat) : Int) := by push_cast; ring
      rw [pow_succ, ← mul_assoc, ih, n.rest_eq, hnext, digitsFrom_succ, Decimal.digitsValue_concat, hlength,
        Text.digitsValue_padded]
      push_cast
      ring

/-! ## The digits in front of the point and behind it -/

theorem whole_of_nonneg (h : 0 ≤ n.weight) :
    n.whole = Text.digits (n.group 0) ++ n.digitsFrom 1 n.weight.toNat := by
  have hplace (i : Nat) : ((i + 1 : Nat) : Int) = 1 + (i : Nat) := by omega
  rw [whole, if_neg (by omega), digitsFrom]
  simp only [hplace]

theorem fraction_eq (n : Numeric) :
    n.fraction = (n.digitsFrom (n.weight + 1) (n.scale / 4 + 1)).take n.scale :=
  rfl

theorem isDigit_of_mem_whole {c : Char} (h : c ∈ n.whole) : c.isDigit = true := by
  rcases lt_or_ge n.weight 0 with hw | hw
  · rw [whole, if_pos hw, List.mem_singleton] at h
    subst h
    decide
  · rw [whole_of_nonneg hw] at h
    rcases List.mem_append.1 h with h | h
    · exact Text.isDigit_of_mem_digits h
    · exact isDigit_of_mem_digitsFrom h

theorem isDigit_of_mem_fraction {c : Char} (h : c ∈ n.fraction) : c.isDigit = true :=
  isDigit_of_mem_digitsFrom (List.mem_of_mem_take h)

theorem whole_ne_nil (n : Numeric) : n.whole ≠ [] := by
  rcases lt_or_ge n.weight 0 with hw | hw
  · simp [whole, hw]
  · rw [whole_of_nonneg hw]
    exact List.append_ne_nil_of_left_ne_nil (Text.digits_ne_nil _) _

theorem length_fraction (h : ∀ g ∈ n.groups, g < 10000) : n.fraction.length = n.scale := by
  rw [fraction_eq, List.length_take, length_digitsFrom h]
  omega

/-- No group of zeros stands in front of the point, so neither does a zero too many. -/
theorem Sends.whole_of_zero (h : n.Sends value scale) (hzero : n.whole.head? = some '0') : n.whole = ['0'] := by
  rcases lt_or_ge n.weight 0 with hw | hw
  · rw [whole, if_pos hw]
  · rw [whole_of_nonneg hw, List.head?_append_of_ne_nil _ (Text.digits_ne_nil _)] at hzero
    have hfirst : n.group 0 = 0 := by
      by_contra hne
      exact Text.head?_digits (Nat.pos_of_ne_zero hne) hzero
    have hgroups : n.groups = [] := by
      cases hg : n.groups with
      | nil => rfl
      | cons g gs =>
          have hhead := h.head_ne
          simp only [group, hg, lt_irrefl, if_false, Int.toNat_zero, List.getD_cons_zero] at hfirst
          simp [hg, hfirst] at hhead
    rw [whole_of_nonneg hw, hfirst, h.weight_zero hgroups]
    rfl

/-- A number is what stands in front of the point together with what the groups behind it stand for. -/
theorem Sends.abs_eq (h : n.Sends value scale) : |value| = digitsValue 0 n.whole + n.rest (n.weight + 1) := by
  have hvalue : |value| = 10000 ^ (n.weight + 1) * groupsValue (-1) n.groups := by
    rw [h.abs_value, ← groupsValue_add]
    ring_nf
  rcases lt_or_ge n.weight 0 with hw | hw
  · have hwhole : digitsValue 0 n.whole = 0 := by
      rw [whole, if_pos hw]
      rfl
    rw [hvalue, hwhole, Nat.cast_zero, zero_add, rest]
    split
    · rfl
    · have hplace : n.weight + 1 = 0 := by omega
      simp [hplace]
  · obtain ⟨w, hweight⟩ := Int.eq_ofNat_of_zero_le hw
    have hfirst : n.rest 0 * 10000 = n.group 0 + n.rest 1 := by
      rw [n.rest_eq 0]
      norm_num
    have hmore := n.rest_eq_digitsFrom h.groups_lt 1 w
    have hplace : n.weight + 1 = 1 + (w : Int) := by omega
    have hwhole : digitsValue 0 n.whole = n.group 0 * 10000 ^ w + digitsValue 0 (n.digitsFrom 1 w) := by
      rw [whole_of_nonneg hw, Decimal.digitsValue_concat, Text.digitsValue_digits, hweight, Int.toNat_natCast,
        length_digitsFrom h.groups_lt, pow_mul]
      norm_num
    have hall : |value| = n.rest 0 * 10000 * 10000 ^ w := by
      have hpow : (10000 : ℚ) ^ (n.weight + 1) = 10000 * 10000 ^ w := by
        rw [hweight, zpow_add_one₀ (by norm_num), zpow_natCast, mul_comm]
      have hrest : n.rest 0 = groupsValue (-1) n.groups := by simp [rest]
      rw [hvalue, hpow, hrest]
      ring
    rw [hall, hfirst, add_mul, hmore, hwhole, hplace]
    push_cast
    ring

/-- A number with so many places is a whole number of units of the last one. -/
theorem exists_abs_places (h : ∃ k : Int, value * 10 ^ scale = k) : ∃ m : Nat, |value| * 10 ^ scale = m := by
  obtain ⟨k, hk⟩ := h
  refine ⟨k.natAbs, ?_⟩
  rw [← abs_of_pos (show (0 : ℚ) < 10 ^ scale by positivity), ← abs_mul, hk, Nat.cast_natAbs, Int.cast_abs]

/-- The groups behind the point may have more digits than there are places. -/
theorem exists_more_places (scale : Nat) : ∃ more, 4 * (scale / 4 + 1) = scale + more ∧
    (10000 : ℚ) ^ (scale / 4 + 1) = 10 ^ scale * 10 ^ more := by
  obtain ⟨more, hmore⟩ : ∃ more, 4 * (scale / 4 + 1) = scale + more := ⟨4 * (scale / 4 + 1) - scale, by omega⟩
  refine ⟨more, hmore, ?_⟩
  rw [← pow_add, ← hmore, pow_mul]
  norm_num

theorem eq_of_eq_add {a b : Int} {x : ℚ} (h : (a : ℚ) = b + x) (hnonneg : 0 ≤ x) (hlt : x < 1) : a = b := by
  have hle : (b : ℚ) ≤ a := by linarith
  have hlt' : (a : ℚ) < (b + 1 : Int) := by
    push_cast
    linarith
  have hle' := Int.cast_le.1 hle
  have hlt'' := Int.cast_lt.1 hlt'
  omega

/-- The digits of a number that has so many places are all of it. -/
theorem Sends.digits_eq (h : n.Sends value scale) (hplaces : ∃ k : Int, value * 10 ^ scale = k) :
    |value| * 10 ^ scale = digitsValue 0 (n.whole ++ n.fraction) := by
  obtain ⟨m, habs⟩ := exists_abs_places hplaces
  obtain ⟨more, hmore, hpow⟩ := exists_more_places scale
  have hlength := n.length_digitsFrom h.groups_lt (n.weight + 1) (scale / 4 + 1)
  have hbehind := n.rest_eq_digitsFrom h.groups_lt (n.weight + 1) (scale / 4 + 1)
  have hsplit := h.abs_eq
  obtain ⟨hnonneg, hlt⟩ := n.rest_bounds h.groups_lt (n.weight + 1 + ((scale / 4 + 1 : Nat) : Int))
  have hfraction : digitsValue 0 n.fraction =
      digitsValue 0 (n.digitsFrom (n.weight + 1) (scale / 4 + 1)) / 10 ^ more := by
    rw [fraction_eq, h.scale, Decimal.digitsValue_take fun c hc => isDigit_of_mem_digitsFrom hc, hlength, hmore,
      Nat.add_sub_cancel_left]
  generalize n.digitsFrom (n.weight + 1) (scale / 4 + 1) = behind at *
  generalize n.rest (n.weight + 1 + ((scale / 4 + 1 : Nat) : Int)) = last at *
  -- What is left behind these groups is a whole number below one.
  have hvalue : ((m - digitsValue 0 n.whole * 10 ^ scale) * 10 ^ more : Int) = digitsValue 0 behind := by
    refine eq_of_eq_add ?_ hnonneg hlt
    push_cast
    rw [← habs, hsplit, ← hbehind, hpow]
    ring
  have hdigits : (m - digitsValue 0 n.whole * 10 ^ scale : Int) = digitsValue 0 n.fraction := by
    rw [hfraction, Int.natCast_ediv, ← hvalue, Nat.cast_pow, Nat.cast_ofNat,
      Int.mul_ediv_cancel _ (by positivity)]
  have hall : m = digitsValue 0 (n.whole ++ n.fraction) := by
    rw [Decimal.digitsValue_concat, length_fraction h.groups_lt, h.scale]
    zify
    omega
  rw [habs, hall]

/-! ## The text -/

theorem Sends.isNegative (h : n.Sends value scale) : n.isNegative = decide (value < 0) := by
  rw [Numeric.isNegative, h.sign]
  split
  · rename_i hvalue
    have hgroups : n.groups ≠ [] := by
      intro hnil
      have hzero := h.abs_value
      rw [hnil, groupsValue, abs_eq_zero] at hzero
      linarith
    obtain ⟨g, gs, hcons⟩ := List.exists_cons_of_ne_nil hgroups
    have hg : g ≠ 0 := fun hg => h.head_ne (by rw [hcons, hg]; rfl)
    simp [hcons, hg, hvalue]
  · rename_i hvalue
    simp [hvalue]

theorem Sends.special? (h : n.Sends value scale) : n.special? = none := by
  rw [Numeric.special?, h.sign]
  split <;> rfl

theorem Sends.text (h : n.Sends value scale) (hplaces : ∃ k : Int, value * 10 ^ scale = k) :
    ExactText value scale n.text := by
  have hdigit : ∀ c ∈ n.whole ++ n.fraction, c.isDigit = true := fun c hc =>
    (List.mem_append.1 hc).elim isDigit_of_mem_whole isDigit_of_mem_fraction
  refine ⟨n.whole, n.fraction, ?_, hdigit, n.whole_ne_nil, h.whole_of_zero, ?_, h.digits_eq hplaces⟩
  · simp only [Numeric.text, h.special?, h.isNegative, h.scale, decide_eq_true_eq, String.toList_ofList]
  · rw [length_fraction h.groups_lt, h.scale]

/-! ## Bytes -/

def bytes (n : Numeric) : List UInt8 :=
  (n.groups.length :: (n.weight % 65536).toNat :: n.sign :: n.scale :: n.groups).flatMap wordBytes

/-- Whether the parts of a number fit the words that they are sent in. -/
structure Fits (n : Numeric) : Prop where
  groups_lt : ∀ g ∈ n.groups, g < 65536
  length_lt : n.groups.length < 65536
  weight_ge : -32768 ≤ n.weight
  weight_lt : n.weight < 32768
  sign_lt : n.sign < 65536
  scale_lt : n.scale < 65536

theorem Fits.ofBytes?_bytes (h : n.Fits) : ofBytes? n.bytes = some n := by
  have hwords : words n.bytes =
      n.groups.length :: (n.weight % 65536).toNat :: n.sign :: n.scale :: n.groups := by
    refine words_flatMap fun w hw => ?_
    simp only [List.mem_cons] at hw
    rcases hw with rfl | rfl | rfl | rfl | hw
    · exact h.length_lt
    · omega
    · exact h.sign_lt
    · exact h.scale_lt
    · exact h.groups_lt w hw
  have hweight : (((n.weight % 65536).toNat : Int)).bmod (Nat.pow 2 16) = n.weight := by
    rw [Int.toNat_of_nonneg (by omega)]
    have hle := h.weight_ge
    have hlt := h.weight_lt
    change (n.weight % (65536 : Nat)).bmod 65536 = n.weight
    rw [Int.emod_bmod, Int.bmod_eq_of_le_mul_two (by omega) (by omega)]
  rw [ofBytes?, hwords]
  simp only [lt_irrefl, if_false, hweight, List.take_length]

/-- Reading fails exactly where bytes of the four words in front or of the announced groups are missing. -/
theorem ofBytes?_eq_none (bs : List UInt8) :
    ofBytes? bs = none ↔ bs.length < 8 ∨ bs.length < 8 + 2 * bigEndian (bs.take 2) := by
  rcases Nat.lt_or_ge bs.length 8 with hshort | hlong
  · have hwords : (words bs).length < 4 := by
      rw [length_words]
      omega
    simp only [hshort, true_or, iff_true]
    rw [ofBytes?]
    split
    · rename_i heq
      rw [heq] at hwords
      simp only [List.length_cons] at hwords
      omega
    · rfl
  · match bs, hlong with
    | a :: b :: c :: d :: e :: f :: g :: h :: rest, _ =>
      simp only [ofBytes?, words, List.take_succ_cons, List.take_zero, List.length_cons, length_words]
      split
      · rename_i hrest
        simp only [true_iff]
        omega
      · rename_i hrest
        simp only [reduceCtorEq, false_iff]
        omega

/-! ## The loop that writes the digits behind the point -/

/-- A round of the loop: while digits are missing, the group at the next place is written. -/
inductive Round (n : Numeric) : List Char × Int → List Char × Int → Prop
  | group {written : List Char} {place : Int} (hmissing : written.length < n.scale) :
      Round n (written, place) (written ++ Text.padded 4 (n.group place), place + 1)

/-- Each round writes at least four digits. -/
theorem wellFounded_round (n : Numeric) : WellFounded fun after before => n.Round before after := by
  refine Subrelation.wf ?_ (measure fun state : List Char × Int => n.scale - state.1.length).wf
  intro after before hround
  cases hround with
  | group hmissing =>
      rename_i written place
      have hpadded := Text.le_length_padded 4 (n.group place)
      change n.scale - (written ++ Text.padded 4 (n.group place)).length < n.scale - written.length
      rw [List.length_append]
      omega

theorem le_length_digitsFrom (n : Numeric) (place : Int) (count : Nat) :
    4 * count ≤ (n.digitsFrom place count).length := by
  induction count with
  | zero => exact Nat.zero_le _
  | succ count ih =>
      have hpadded := Text.le_length_padded 4 (n.group (place + (count : Nat)))
      rw [digitsFrom_succ, List.length_append]
      omega

/-- After so many rounds the groups from the first place on are written, and the last round was not one too many. -/
theorem Round.run {first : Int} {state : List Char × Int}
    (h : Relation.ReflTransGen n.Round ([], first) state) :
    ∃ count : Nat, state = (n.digitsFrom first count, first + (count : Nat)) ∧ count ≤ n.scale / 4 + 1 := by
  induction h with
  | refl => exact ⟨0, by simp [digitsFrom], Nat.zero_le _⟩
  | tail _ hround ih =>
      obtain ⟨count, rfl, _⟩ := ih
      cases hround with
      | group hmissing =>
          have hlength := n.le_length_digitsFrom first count
          refine ⟨count + 1, ?_, by omega⟩
          rw [digitsFrom_succ]
          push_cast
          rw [add_assoc]

theorem digitsFrom_prefix (n : Numeric) (place : Int) {count more : Nat} (h : count ≤ more) :
    n.digitsFrom place count <+: n.digitsFrom place more := by
  induction h with
  | refl => exact List.prefix_rfl
  | step _ ih =>
      rw [digitsFrom_succ]
      exact ih.trans (List.prefix_append ..)

/-- Cut to the places that are shown, the digits of the loop are those behind the point. -/
theorem Round.take_eq_fraction {written : List Char} {place : Int}
    (h : Relation.ReflTransGen n.Round ([], n.weight + 1) (written, place)) (hend : n.scale ≤ written.length) :
    written.take n.scale = n.fraction := by
  obtain ⟨count, hstate, hcount⟩ := Round.run h
  have hwritten : written = n.digitsFrom (n.weight + 1) count := congrArg Prod.fst hstate
  subst hwritten
  obtain ⟨more, hmore⟩ := n.digitsFrom_prefix (n.weight + 1) hcount
  rw [fraction_eq, ← hmore, List.take_append_of_le_length hend]

/-! ## Every decimal has a binary form -/

theorem groupsValue_append (weight : Int) (fs gs : List Nat) :
    groupsValue weight (fs ++ gs) = groupsValue weight fs + groupsValue (weight - (fs.length : Nat)) gs := by
  induction fs generalizing weight with
  | nil => simp [groupsValue]
  | cons f fs ih =>
      have hnext : weight - ((f :: fs).length : Nat) = weight - 1 - (fs.length : Nat) := by
        rw [List.length_cons]
        push_cast
        ring
      rw [List.cons_append, groupsValue, groupsValue, ih, hnext, add_assoc]

theorem groupsValue_reverse (last : Int) (gs : List Nat) :
    groupsValue (last + (gs.length : Nat) - 1) gs.reverse = 10000 ^ last * (Nat.ofDigits 10000 gs : Nat) := by
  induction gs generalizing last with
  | nil => simp [groupsValue]
  | cons g gs ih =>
      have hfront : last + ((g :: gs).length : Nat) - 1 = last + 1 + (gs.length : Nat) - 1 := by
        rw [List.length_cons]
        push_cast
        ring
      have hlast : last + 1 + (gs.length : Nat) - 1 - (gs.reverse.length : Nat) = last := by
        rw [List.length_reverse]
        ring
      rw [List.reverse_cons, groupsValue_append, hfront, ih, hlast, Nat.ofDigits_cons, groupsValue, groupsValue,
        zpow_add_one₀ (by norm_num)]
      push_cast
      ring

/-- Groups of zeros at the end are left out one after the other. -/
theorem exists_groups (m : Nat) (last : Int) : ∃ (gs : List Nat) (weight : Int),
    (∀ g ∈ gs, g < 10000) ∧ gs.head? ≠ some 0 ∧ gs.getLast? ≠ some 0 ∧ (gs = [] → weight = 0) ∧
      (m : ℚ) * 10000 ^ last = groupsValue weight gs := by
  induction m using Nat.strongRecOn generalizing last with
  | ind m ih =>
      rcases Nat.eq_zero_or_pos m with rfl | hpos
      · exact ⟨[], 0, by simp, by simp, by simp, fun _ => rfl, by simp [groupsValue]⟩
      -- the last group may not be zero: such a group goes into the weight instead
      · rcases Nat.eq_zero_or_pos (m % 10000) with hzero | hlast
        · obtain ⟨gs, weight, hgs⟩ := ih (m / 10000) (by omega) (last + 1)
          have hm : (m : ℚ) = (m / 10000 : Nat) * 10000 := by
            exact_mod_cast (Nat.div_mul_cancel (Nat.dvd_of_mod_eq_zero hzero)).symm
          refine ⟨gs, weight, hgs.1, hgs.2.1, hgs.2.2.1, hgs.2.2.2.1, ?_⟩
          rw [← hgs.2.2.2.2, zpow_add_one₀ (by norm_num), hm]
          ring
        · have hne : Nat.digits 10000 m ≠ [] := Nat.digits_ne_nil_iff_ne_zero.2 (by omega)
          refine ⟨(Nat.digits 10000 m).reverse, last + ((Nat.digits 10000 m).length : Nat) - 1, ?_, ?_, ?_, ?_, ?_⟩
          · intro g hg
            exact Nat.digits_lt_base (by decide) (List.mem_reverse.1 hg)
          · rw [List.head?_reverse, List.getLast?_eq_some_getLast hne]
            simpa using Nat.getLast_digit_ne_zero 10000 (by omega)
          · rw [List.getLast?_reverse, Nat.digits_of_two_le_of_pos (by decide) hpos]
            simp only [List.head?_cons, ne_eq, Option.some.injEq]
            omega
          · intro hnil
            exact absurd (List.reverse_eq_nil_iff.1 hnil) hne
          · rw [groupsValue_reverse, Nat.ofDigits_digits, mul_comm]

theorem exists_sends (hplaces : ∃ k : Int, value * 10 ^ scale = k) : ∃ n : Numeric, n.Sends value scale := by
  obtain ⟨m, hm⟩ := exists_abs_places hplaces
  obtain ⟨more, -, hpow⟩ := exists_more_places scale
  have habs : |value| = (m * 10 ^ more : Nat) * 10000 ^ (-((scale / 4 + 1 : Nat) : Int)) := by
    rw [zpow_neg, zpow_natCast, hpow]
    push_cast
    rw [← hm]
    field_simp
  obtain ⟨gs, weight, hlt, hhead, hlast, hzero, hvalue⟩ :=
    exists_groups (m * 10 ^ more) (-((scale / 4 + 1 : Nat) : Int))
  exact ⟨⟨gs, weight, if value < 0 then 0x4000 else 0, scale⟩, hlt, hhead, hlast, hzero, habs.trans hvalue, rfl, rfl⟩

/-- Every decimal number is read back from its bytes as its exact text. Reading fails exactly where announced bytes are
missing, and the loop that writes the digits behind the point comes to an end, whatever weight and scale are sent. -/
theorem decode_exact :
    (∀ (value : ℚ) (scale : Nat), (∃ k : Int, value * 10 ^ scale = k) →
      (∃ n : Numeric, n.Sends value scale) ∧
        ∀ n : Numeric, n.Sends value scale → n.Fits →
          ∃ text, (ofBytes? n.bytes).map Numeric.text = some text ∧ ExactText value scale text) ∧
    (∀ bs : List UInt8, (ofBytes? bs).map Numeric.text = none ↔
      bs.length < 8 ∨ bs.length < 8 + 2 * bigEndian (bs.take 2)) ∧
    ∀ n : Numeric, (WellFounded fun after before => n.Round before after) ∧
      ∀ (written : List Char) (place : Int), Relation.ReflTransGen n.Round ([], n.weight + 1) (written, place) →
        n.scale ≤ written.length → written.take n.scale = n.fraction := by
  refine ⟨fun value scale hplaces => ⟨exists_sends hplaces, ?_⟩, ?_, ?_⟩
  · intro n hsends hfits
    exact ⟨n.text, by rw [hfits.ofBytes?_bytes, Option.map_some], hsends.text hplaces⟩
  · intro bs
    rw [Option.map_eq_none_iff, ofBytes?_eq_none]
  · exact fun n => ⟨n.wellFounded_round, fun _ _ => Round.take_eq_fraction⟩

theorem decode_exact_small : (ofBytes? (bytes ⟨[42], -1, 0x4000, 4⟩)).map Numeric.text = some "-0.0042" ∧
    ExactText (-42 / 10000) 4 "-0.0042" := by
  have hplaces : ∃ k : Int, (-42 / 10000 : ℚ) * 10 ^ 4 = k := ⟨-42, by norm_num⟩
  have hsends : Sends ⟨[42], -1, 0x4000, 4⟩ (-42 / 10000) 4 := by
    refine ⟨by decide, by decide, by decide, by decide, ?_, ?_, rfl⟩
    · simp only [groupsValue]
      norm_num [abs_of_neg]
    · rw [if_pos (by norm_num)]
  obtain ⟨text, htext, hexact⟩ :=
    (decode_exact.1 _ _ hplaces).2 _ hsends ⟨by decide, by decide, by decide, by decide, by decide, by decide⟩
  have hsmall : (ofBytes? (bytes ⟨[42], -1, 0x4000, 4⟩)).map Numeric.text = some "-0.0042" := by decide
  rw [hsmall, Option.some_inj] at htext
  exact ⟨hsmall, htext ▸ hexact⟩

end Numeric

end Postgres

end SemanticLayer.Wire
