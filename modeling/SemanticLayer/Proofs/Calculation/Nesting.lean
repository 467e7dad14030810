import SemanticLayer.Proofs.Calculation.Grammar
/-!
How tall the trees are that are read. The limit on nesting bounds the steps of a path that do not lead into a left
operand, whatever the length of the text. It does not bound the steps into left operands, one for each operator of a
chain, and so a tree is as tall as its longest chain, up to a factor.
-/
namespace SemanticLayer.Calculation

namespace Expression

/-- The most steps on a path from the root that do not lead into a left operand. -/
def sideSteps : Expression → Nat
  | number _ => 0
  | «variable» _ => 0
  | negate inner => inner.sideSteps + 1
  | binary _ left right => max left.sideSteps (right.sideSteps + 1)

def spine : Expression → Nat
  | number _ => 0
  | «variable» _ => 0
  | negate _ => 0
  | binary _ left _ => left.spine + 1

/-- The most steps into left operands that follow one another anywhere. -/
def longestChain : Expression → Nat
  | number _ => 0
  | «variable» _ => 0
  | negate inner => inner.longestChain
  | binary _ left right => max (left.spine + 1) (max left.longestChain right.longestChain)

theorem spine_le_longestChain (e : Expression) : e.spine ≤ e.longestChain := by
  cases e with
  | binary op left right => exact Nat.le_max_left _ _
  | _ => exact Nat.zero_le _

theorem spine_lt_height (e : Expression) : e.spine < e.height := by
  induction e with
  | binary op left right ihleft _ =>
      rw [spine, height]
      omega
  | _ => simp [spine, height]

theorem longestChain_lt_height (e : Expression) : e.longestChain < e.height := by
  induction e with
  | number value => exact Nat.one_pos
  | «variable» name => exact Nat.one_pos
  | negate inner ih => exact Nat.lt_succ_of_lt ih
  | binary op left right ihleft ihright =>
      have hspine := left.spine_lt_height
      rw [longestChain, height]
      omega

/-- Between two steps that do not lead to the left a path follows one chain. -/
theorem height_le_of_longestChain_le {e : Expression} {chain : Nat} (h : e.longestChain ≤ chain) :
    e.height ≤ e.spine + 1 + e.sideSteps * (chain + 1) := by
  induction e with
  | number value => exact Nat.le_add_right _ _
  | «variable» name => exact Nat.le_add_right _ _
  | negate inner ih =>
      have hinner := ih h
      have hspine := inner.spine_le_longestChain
      rw [longestChain] at h
      rw [height, spine, sideSteps, Nat.succ_mul]
      omega
  | binary op left right ihleft ihright =>
      obtain ⟨-, hrest⟩ := Nat.max_le.1 h
      obtain ⟨hleft, hright⟩ := Nat.max_le.1 hrest
      have hspine := right.spine_le_longestChain
      have htaller := ihleft hleft
      have hbeside := ihright hright
      have hstepsleft := Nat.mul_le_mul_right (chain + 1) (Nat.le_max_left left.sideSteps (right.sideSteps + 1))
      have hstepsright := Nat.mul_le_mul_right (chain + 1) (Nat.le_max_right left.sideSteps (right.sideSteps + 1))
      rw [Nat.succ_mul] at hstepsright
      rw [height, spine, sideSteps]
      omega

theorem height_le_sideSteps (e : Expression) : e.height ≤ (e.sideSteps + 1) * (e.longestChain + 1) := by
  have h := height_le_of_longestChain_le (Nat.le_refl e.longestChain)
  have hspine := e.spine_le_longestChain
  rw [Nat.succ_mul]
  omega

end Expression

variable {level : Level} {depth bound : Nat} {ts : List Token} {e : Expression} {text : String}

/-! ## The limit on nesting -/

/-- How many operators can stand around a part of an expression without parentheses or minus signs between them. -/
def Level.operators : Level → Nat
  | sum => 2
  | product => 1
  | unary => 0
  | primary => 0

theorem Derives.sideSteps_le (h : Derives level depth ts e) : e.sideSteps ≤ 2 * depth + level.operators := by
  induction h with
  | product h ih => exact Nat.le_succ_of_le ih
  | @added depth depth' ts us left right op hop hleft hright ihleft ihright =>
      rw [Expression.sideSteps]
      simp only [Level.operators] at ihleft ihright ⊢
      omega
  | unary h ih => exact Nat.le_succ_of_le ih
  | @multiplied depth depth' ts us left right op hop hleft hright ihleft ihright =>
      rw [Expression.sideSteps]
      simp only [Level.operators] at ihleft ihright ⊢
      omega
  | primary h ih => exact ih
  | negated h ih =>
      rw [Expression.sideSteps]
      simp only [Level.operators] at ih ⊢
      omega
  | number value => exact Nat.zero_le _
  | «variable» name => exact Nat.zero_le _
  | nested h ih =>
      simp only [Level.operators] at ih ⊢
      omega

theorem sideSteps_le_of_sum (h : Calculation.sum (.ofDepth bound) ts = .ok (e, [])) :
    e.sideSteps ≤ 2 * bound + 2 := by
  obtain ⟨depth, hdepth, hderives⟩ := sum_eq_ok_iff.1 h
  have hsteps := hderives.sideSteps_le
  simp only [Level.operators] at hsteps
  omega

/-- What is read has at most 130 steps on any path that do not lead into a left operand. So its height lies between
the length of its longest chain and 131 times that. -/
theorem height_of_parse (h : parse text = .ok e) :
    e.sideSteps ≤ 2 * maxDepth + 2 ∧ e.longestChain + 1 ≤ e.height ∧
      e.height ≤ (2 * maxDepth + 3) * (e.longestChain + 1) := by
  obtain ⟨ts, -, hread⟩ := parse_eq_ok.1 h
  have hsteps := sideSteps_le_of_sum hread
  refine ⟨hsteps, e.longestChain_lt_height, e.height_le_sideSteps.trans ?_⟩
  exact Nat.mul_le_mul_right _ (Nat.succ_le_succ hsteps)

/-- A minus sign, parentheses, a product on the right and a chain of two differences. -/
theorem height_of_parse_grouped :
    ∃ e, parse "-({a} - {b} * {a} - {c})" = .ok e ∧
      e.sideSteps = 3 ∧ 3 ≤ 2 * maxDepth + 2 ∧ e.height = 5 ∧ e.longestChain = 2 ∧
      e.height ≤ (2 * maxDepth + 3) * (e.longestChain + 1) := by
  let product : Expression := .binary .multiply (.variable "b") (.variable "a")
  let tree : Expression :=
    .negate (.binary .subtract (.binary .subtract (.variable "a") product) (.variable "c"))
  have hparse : parse "-({a} - {b} * {a} - {c})" = .ok tree := by rfl
  obtain ⟨hsteps, -, hheight⟩ := height_of_parse hparse
  exact ⟨tree, hparse, rfl, hsteps, rfl, rfl, hheight⟩

/-! ## Chains -/

def repeatedSum : Nat → Expression
  | 0 => .variable "a"
  | more + 1 => .binary .add (repeatedSum more) (.variable "a")

def repeatedText (more : Nat) : String :=
  String.ofList ("\x7ba\x7d".toList ++ (List.replicate more "+\x7ba\x7d".toList).flatten)

def repeatedTokens (more : Nat) : List Token :=
  .variable "a" :: (List.replicate more [.operator .add, .variable "a"]).flatten

theorem spells_repeatedTokens (more : Nat) : Spells (repeatedText more).toList (repeatedTokens more) := by
  have hvariable {s : List Char} {ts : List Token} (h : Spells s ts) :
      Spells ('\x7b' :: 'a' :: '\x7d' :: s) (.variable "a" :: ts) :=
    @Spells.variable ['a'] s ts (by decide) (by decide) h
  have hmore : Spells (List.replicate more "+\x7ba\x7d".toList).flatten
      (List.replicate more [Token.operator .add, .variable "a"]).flatten := by
    induction more with
    | zero => exact .nil
    | succ more ih =>
        rw [List.replicate_succ, List.flatten_cons, List.replicate_succ, List.flatten_cons]
        exact .operator .add (hvariable ih)
  rw [repeatedText, String.toList_ofList]
  exact hvariable hmore

theorem derives_repeatedSum (more : Nat) : Derives .sum 0 (repeatedTokens more) (repeatedSum more) := by
  have hvariable : Derives .product 0 [.variable "a"] (.variable "a") := .unary (.primary (.variable "a"))
  induction more with
  | zero => exact .product hvariable
  | succ more ih =>
      have htokens : repeatedTokens (more + 1) = repeatedTokens more ++ .operator .add :: [.variable "a"] := by
        simp [repeatedTokens, List.replicate_succ']
      rw [htokens]
      exact .added (.inl rfl) ih hvariable

theorem parse_repeatedText (more : Nat) : parse (repeatedText more) = .ok (repeatedSum more) :=
  parse_eq_ok.2 ⟨_, spells_repeatedTokens more, sum_eq_ok_iff.2 ⟨0, Nat.zero_le _, derives_repeatedSum more⟩⟩

theorem height_repeatedSum (more : Nat) : (repeatedSum more).height = more + 1 := by
  induction more with
  | zero => rfl
  | succ more ih =>
      rw [repeatedSum, Expression.height, ih, Expression.height]
      omega

/-- No bound holds for the height of all that is read. -/
theorem height_unbounded : ¬∃ bound, ∀ text e, parse text = .ok e → e.height ≤ bound := by
  rintro ⟨bound, h⟩
  have hheight := h _ _ (parse_repeatedText bound)
  rw [height_repeatedSum] at hheight
  exact absurd hheight (Nat.not_succ_le_self bound)

end SemanticLayer.Calculation
