import SemanticLayer.Decimal.Notation
import SemanticLayer.Proofs.Decimal.Literal
import SemanticLayer.Proofs.Decimal.Shortest
/-!
The text that is written for a floating-point number stands for the shortest digits that are rounded to it.
-/
namespace SemanticLayer.Decimal

variable {ds fs : List Char} {x y : Float} {v : ℚ}

/-! ## Digits with a point or an exponent -/

theorem writes_power (d : Char) (hds : ∀ c ∈ d :: fs, c.isDigit = true) (power : Int) :
    Writes ((match d :: fs with
      | [] => []
      | [d] => [d]
      | d :: rest => d :: '.' :: rest) ++ 'e' :: (if power < 0 then '-' else '+') :: Text.digits power.natAbs)
      (digitsValue 0 (d :: fs) * 10 ^ (power - (fs.length : Int))) := by
  have hd : ∀ c ∈ [d], c.isDigit = true := fun c hc => hds c (by simp_all)
  have hfs : ∀ c ∈ fs, c.isDigit = true := fun c hc => hds c (by simp [hc])
  have hscaled (l : Literal) : l.scaled? ('e' :: (if power < 0 then '-' else '+') :: Text.digits power.natAbs) =
      some ⟨l.mantissa, l.exponent + power⟩ := by
    rw [Literal.scaled?, readInt?_signed]
    rfl
  cases fs with
  | nil =>
      refine ⟨isDigit_head_append (List.cons_ne_nil _ _) hd _, _,
        (read?_whole _ (List.cons_ne_nil _ _) hd (by simp)).trans (hscaled _), ?_⟩
      simp [Literal.value]
  | cons f fs =>
      have hread := read?_pointed ('e' :: (if power < 0 then '-' else '+') :: Text.digits power.natAbs)
        (List.append_ne_nil_of_left_ne_nil (List.cons_ne_nil d []) (f :: fs)) hd hfs (by simp)
      refine ⟨isDigit_head_append (List.cons_ne_nil _ _) hd ('.' :: _), _, hread.trans (hscaled _), ?_⟩
      rw [Literal.value]
      congr 2
      ring

theorem isDigit_of_mem_zeros {c : Char} {k : Nat} (h : c ∈ List.replicate k '0') : c.isDigit = true := by
  rw [List.eq_of_mem_replicate h]
  decide

theorem isDigit_of_mem_zero : ∀ c ∈ ['0'], c.isDigit = true :=
  List.all_eq_true.1 rfl

theorem writes_zeros (hne : ds ≠ []) (hds : ∀ c ∈ ds, c.isDigit = true) (k : Nat) :
    Writes (ds ++ List.replicate k '0' ++ ['.', '0']) (digitsValue 0 ds * 10 ^ (k : Int)) := by
  have hwrites := writes_pointed (List.append_ne_nil_of_left_ne_nil hne (List.replicate k '0'))
    (fun c hc => (List.mem_append.1 hc).elim (hds c) isDigit_of_mem_zeros) isDigit_of_mem_zero
  have hzeros : digitsValue 0 (ds ++ List.replicate k '0' ++ ['0']) = digitsValue 0 ds * 10 ^ (k + 1) := by
    have hnone := digitsValue_replicate (k + 1) []
    have hconcat := digitsValue_concat ds (List.replicate (k + 1) '0')
    rw [List.append_nil] at hnone
    rw [hnone, List.length_replicate, List.replicate_succ', ← List.append_assoc] at hconcat
    exact hconcat
  have hvalue : (digitsValue 0 (ds ++ List.replicate k '0' ++ ['0']) : ℚ) * 10 ^ (-((1 : Nat) : Int)) =
      digitsValue 0 ds * 10 ^ (k : Int) := by
    rw [hzeros, zpow_neg, zpow_natCast, zpow_natCast]
    push_cast
    rw [pow_succ]
    ring
  rw [← hvalue]
  exact hwrites

theorem writes_split (hds : ∀ c ∈ ds, c.isDigit = true) {k : Nat} (hk : k < ds.length) :
    Writes (ds.take (k + 1) ++ '.' :: ds.drop (k + 1))
      (digitsValue 0 ds * 10 ^ (-((ds.length - (k + 1) : Nat) : Int))) := by
  have hne : ds.take (k + 1) ≠ [] := by
    rw [ne_eq, List.take_eq_nil_iff]
    rintro (hzero | rfl)
    · omega
    · simp at hk
  have hwrites := writes_pointed hne (fun c hc => hds c (List.mem_of_mem_take hc))
    fun c hc => hds c (List.mem_of_mem_drop (i := k + 1) hc)
  rwa [List.take_append_drop, List.length_drop] at hwrites

theorem writes_fraction (hds : ∀ c ∈ ds, c.isDigit = true) (k : Nat) :
    Writes ('0' :: '.' :: (List.replicate k '0' ++ ds)) (digitsValue 0 ds * 10 ^ (-((k + ds.length : Nat) : Int))) := by
  have hwrites := writes_pointed (List.cons_ne_nil _ _) isDigit_of_mem_zero
    fun c hc => (List.mem_append.1 hc).elim (isDigit_of_mem_zeros (k := k)) (hds c)
  have hvalue : digitsValue 0 (['0'] ++ (List.replicate k '0' ++ ds)) = digitsValue 0 ds := by
    rw [← List.append_assoc]
    exact digitsValue_replicate (k + 1) ds
  rwa [hvalue, List.length_append, List.length_replicate] at hwrites

/-- In whichever form scaled digits are written, they are read as the same number. -/
theorem writes_writeScaled (form : Form) (s : Scaled) : Writes (form.writeScaled s) s.value := by
  obtain ⟨ds, hdigits⟩ : ∃ ds, Text.digits s.digits = ds := ⟨_, rfl⟩
  have hne : ds ≠ [] := hdigits ▸ Text.digits_ne_nil s.digits
  have hds : ∀ c ∈ ds, c.isDigit = true := fun c hc => Text.isDigit_of_mem_digits (hdigits.symm ▸ hc)
  have hvalue : s.value = digitsValue 0 ds * 10 ^ s.exponent := by
    rw [← hdigits, Text.digitsValue_digits]
    rfl
  have hdigits' : (toString s.digits).toList = ds := hdigits
  have hlength := List.length_pos_iff.2 hne
  rw [hvalue]
  simp only [Form.writeScaled, hdigits']
  split
  · split
    · rename_i hwhole
      obtain ⟨k, hk⟩ := Int.eq_ofNat_of_zero_le hwhole
      rw [hk]
      exact writes_zeros hne hds k
    · rename_i hwhole
      split
      · rename_i hlead
        obtain ⟨k, hk⟩ := Int.eq_ofNat_of_zero_le hlead
        have hexponent : s.exponent = -((ds.length - (k + 1) : Nat) : Int) := by omega
        rw [hk, hexponent]
        exact writes_split hds (by omega)
      · rename_i hlead
        obtain ⟨k, hk⟩ : ∃ k, (-(s.exponent + ds.length - 1) - 1).toNat = k := ⟨_, rfl⟩
        have hexponent : s.exponent = -((k + ds.length : Nat) : Int) := by omega
        rw [hk, hexponent]
        exact writes_fraction hds k
  · obtain ⟨d, fs, rfl⟩ := List.exists_cons_of_ne_nil hne
    have hwrites := writes_power d hds (s.exponent + (d :: fs).length - 1)
    have hexponent : s.exponent + (d :: fs).length - 1 - (fs.length : Int) = s.exponent := by
      rw [List.length_cons]
      push_cast
      ring
    rw [hexponent] at hwrites
    exact hwrites

/-! ## Finite numbers -/

/-- The number that a floating-point number is. -/
def Binary.value (b : Binary) : ℚ :=
  signedValue b.negative b.size

/-- The number that is written for the parts of a floating-point number. -/
def Binary.written (b : Binary) : ℚ :=
  signedValue b.negative (if b.mantissa = 0 then 0 else (shortest b).value)

theorem denotes_write (h : x.isFinite = true) : Denotes (write x) v ↔ v = (Binary.ofFloat x).written := by
  have hwrites : Writes (if (Binary.ofFloat x).mantissa = 0 then ['0', '.', '0']
      else Form.plain.writeScaled (shortest (Binary.ofFloat x)))
      (if (Binary.ofFloat x).mantissa = 0 then 0 else (shortest (Binary.ofFloat x)).value) := by
    split
    · exact ⟨by simp, ⟨0, -1⟩, by decide, by norm_num [Literal.value]⟩
    · exact writes_writeScaled _ _
  have htext : (write x).toList = signed (Binary.ofFloat x).negative
      (if (Binary.ofFloat x).mantissa = 0 then ['0', '.', '0']
        else Form.plain.writeScaled (shortest (Binary.ofFloat x))) := by
    rw [write, Form.write, Binary.isNaN_of_isFinite h, Binary.isInf_of_isFinite h]
    simp only [Bool.false_eq_true, if_false, String.toList_ofList]
    rfl
  exact hwrites.denotes_iff htext

/-- Of floating-point numbers with the same parts the same is written. -/
theorem write_congr (hx : x.isFinite = true) (hy : y.isFinite = true) (h : Binary.ofFloat x = Binary.ofFloat y) :
    write x = write y := by
  rw [write, write, Form.write, Form.write, Binary.isNaN_of_isFinite hx, Binary.isNaN_of_isFinite hy,
    Binary.isInf_of_isFinite hx, Binary.isInf_of_isFinite hy, h]

end SemanticLayer.Decimal
