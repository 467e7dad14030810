import SemanticLayer.Proofs.Sandbox.Lines
import SemanticLayer.Proofs.Sql.Inert
/-!
Words put into a T-SQL text: the gate makes of the text what it makes of it without them.
-/
namespace SemanticLayer.Sandbox

open Sql (Token LexicalRules)
open Sql.LexicalRules

variable {e : Ending} {stage : Stage} {previous t : Token} {tokens : List Token} {s u x y : List Char}
  {ok : Token → Prop}

/-! ## Behind a text -/

/-- The tokens of a list that ends with a token that is no gap and no semicolon. -/
def Settled (tokens : List Token) : Prop :=
  ∃ before t, withoutGaps tokens = before ++ [t] ∧ t ≠ .sign ";"

/-- A text that ends behind such a token, or deep inside a token, as far as what follows begins with a
space. -/
def Ready (u : List Char) : Prop :=
  ∃ (done : List Token) (stage : Stage),
    (∀ x, Spaced x → ∀ m, Reads mssql .gap (u ++ x) m ↔ ∃ more, stage.Reads mssql x more ∧ m = done ++ more) ∧
      ((∃ p, stage = .between p ∧ Settled done) ∨ ∃ e, stage = .inside e ∧ e.Deep)

/-- The tokens of a list that ends with one of some kind, gaps aside. -/
def LastIs (ok : Token → Prop) (tokens : List Token) : Prop :=
  ∃ before t, withoutGaps tokens = before ++ [t] ∧ ok t

/-- A text that ends behind a token of some kind, or deep inside a token, as far as what follows begins with a
space. -/
def EndsIn (ok : Token → Prop) (u : List Char) : Prop :=
  ∃ (done : List Token) (stage : Stage),
    (∀ x, Spaced x → ∀ m, Reads mssql .gap (u ++ x) m ↔ ∃ more, stage.Reads mssql x more ∧ m = done ++ more) ∧
      ((∃ p, stage = .between p ∧ LastIs ok done) ∨ ∃ e, stage = .inside e ∧ e.Deep)

theorem ready_iff : Ready u ↔ EndsIn (· ≠ .sign ";") u :=
  Iff.rfl

theorem reads_spaced (hx : Spaced x) (previous previous' : Token) :
    Reads mssql previous x tokens ↔ Reads mssql previous' x tokens := by
  rcases hx.cases with rfl | ⟨v, rfl⟩
  · rw [reads_nil_iff, reads_nil_iff]
  · rw [reads_plainGap rfl, reads_plainGap rfl]

/-- Where a text is cut in front of a space, it ends between two tokens or deep inside one. -/
theorem reads_append_spaced (previous : Token) (u : List Char) :
    ∃ (done : List Token) (stage : Stage),
      (∀ x, Spaced x → ∀ m, Reads mssql previous (u ++ x) m ↔
        ∃ more, stage.Reads mssql x more ∧ m = done ++ more) ∧
      ((∃ p, stage = .between p) ∨ ∃ e, stage = .inside e ∧ e.Deep) := by
  obtain ⟨done, stage, hvalid, hstage⟩ := @reads_append mssql previous u (by simp [mssql])
  cases stage with
  | between p => exact ⟨done, .between p, fun x hx => hstage x hx.apart, .inl ⟨p, rfl⟩⟩
  | inside e =>
      have hbehind {t : Token} (hafter : ∀ x, Spaced x → e.after mssql x = some (t, x)) :
          ∀ x, Spaced x → ∀ m, Reads mssql previous (u ++ x) m ↔
            ∃ more, (Stage.between t).Reads mssql x more ∧ m = done ++ [t] ++ more := by
        intro x hx m
        rw [hstage x hx.apart]
        simp [Stage.Reads, hafter x hx]
      rcases hvalid.1.cases hvalid.2 with hdeep | rfl | ⟨sign, -, rfl⟩
      · exact ⟨done, .inside e, fun x hx => hstage x hx.apart, .inr ⟨e, rfl, hdeep⟩⟩
      · refine ⟨done ++ [.gap], .between .gap, hbehind fun x hx => ?_, .inl ⟨_, rfl⟩⟩
        rcases hx.cases with rfl | ⟨v, rfl⟩ <;> rfl
      · refine ⟨done ++ [.sign sign], .between (.sign sign), hbehind fun x hx => ?_, .inl ⟨_, rfl⟩⟩
        rcases hx.cases with rfl | ⟨v, rfl⟩ <;> rfl

theorem reads_space_word (w : String) (hw : w.toList ≠ []) (hplain : w.toList.all isPlain = true)
    (hx : Spaced x) : Reads mssql previous (' ' :: (w.toList ++ x)) tokens ↔
      ∃ more, Reads mssql (.word w none) x more ∧ tokens = [.gap, .word w none] ++ more := by
  have hword (m : List Token) : Reads mssql .gap (w.toList ++ x) m ↔
      ∃ more, Reads mssql (.word w none) x more ∧ m = .word w none :: more :=
    @reads_word .mssql .gap x m w hw hplain hx.apart.head
  rw [reads_plainGap rfl]
  simp [hword]

/-- Tokens that a text takes up first. -/
theorem exists_append_iff {p : List Token → Prop} {q : List Token → Prop} {done pre : List Token}
    (h : ∀ m, p m ↔ ∃ more, q more ∧ m = pre ++ more) (m : List Token) :
    (∃ more, p more ∧ m = done ++ more) ↔ ∃ more, q more ∧ m = done ++ pre ++ more := by
  constructor
  · rintro ⟨more, hmore, rfl⟩
    obtain ⟨more', hmore', rfl⟩ := (h more).1 hmore
    exact ⟨more', hmore', (List.append_assoc _ _ _).symm⟩
  · rintro ⟨more', hmore', rfl⟩
    exact ⟨pre ++ more', (h _).2 ⟨more', hmore', rfl⟩, List.append_assoc _ _ _⟩

theorem EndsIn.start (w : String) (hw : w.toList ≠ []) (hplain : w.toList.all isPlain = true)
    (hok : ok (.word w none)) : EndsIn ok w.toList := by
  refine ⟨[.word w none], .between (.word w none), fun x hx m => ?_,
    .inl ⟨_, rfl, [], .word w none, rfl, hok⟩⟩
  have hword := @reads_word .mssql .gap x m w hw hplain hx.apart.head
  exact hword

theorem Stage.reads_settle (he : e.Deep) (hs : Inert s) (hempty : s ≠ []) (x : List Char) :
    (Stage.inside e).Reads mssql (s ++ x) tokens ↔ (Stage.inside e.settle).Reads mssql x tokens := by
  unfold Stage.Reads
  simp only [he.after_inert hs hempty x]

theorem EndsIn.word (u : List Char) (w : String) (hw : w.toList ≠ []) (hplain : w.toList.all isPlain = true)
    (hinert : Inert (' ' :: w.toList)) (hok : ok (.word w none)) : EndsIn ok (u ++ ' ' :: w.toList) := by
  obtain ⟨done, stage, hreads, hstage⟩ := reads_append_spaced .gap u
  have hspaced (x : List Char) : Spaced (' ' :: (w.toList ++ x)) := by simp [Spaced]
  rcases hstage with ⟨p, rfl⟩ | ⟨e, rfl, hdeep⟩
  · refine ⟨done ++ [.gap, .word w none], .between (.word w none), fun x hx m => ?_, .inl ⟨_, rfl, ?_⟩⟩
    · rw [List.append_assoc, List.cons_append, hreads _ (hspaced x)]
      exact exists_append_iff (fun m => reads_space_word w hw hplain hx) m
    · exact ⟨withoutGaps done, .word w none, by simp [withoutGaps], hok⟩
  · refine ⟨done, .inside e.settle, fun x hx m => ?_, .inr ⟨_, rfl, hdeep.settle⟩⟩
    rw [List.append_assoc, List.cons_append, hreads _ (hspaced x), ← List.cons_append]
    simp only [Stage.reads_settle hdeep hinert (by simp)]

theorem EndsIn.parenthesis (u : List Char) (hsign : ok (.sign ")")) (hname : ok (.word "" none)) :
    EndsIn ok (u ++ [')']) := by
  obtain ⟨done, stage, hvalid, hstage⟩ := @reads_append mssql .gap u (by simp [mssql])
  have hreads (x : List Char) (m : List Token) : Reads mssql .gap (u ++ [')'] ++ x) m ↔
      ∃ more, stage.Reads mssql (')' :: x) more ∧ m = done ++ more := by
    rw [List.append_assoc]
    exact hstage _ (apart_parenthesis x) m
  have hclose (previous : Token) (x : List Char) (m : List Token) : Reads mssql previous (')' :: x) m ↔
      ∃ more, Reads mssql (.sign ")") x more ∧ m = [.sign ")"] ++ more :=
    @reads_sign .mssql previous ')' x m (by simp)
  -- a token that is complete behind the parenthesis
  have hready (pre : List Token) (last : Token) (hpre : LastIs ok (done ++ pre))
      (h : ∀ x, Spaced x → ∀ m, stage.Reads mssql (')' :: x) m ↔
        ∃ more, Reads mssql last x more ∧ m = pre ++ more) : EndsIn ok (u ++ [')']) := by
    refine ⟨done ++ pre, .between last, fun x hx m => ?_, .inl ⟨_, rfl, hpre⟩⟩
    rw [hreads]
    exact exists_append_iff (h x hx) m
  cases stage with
  | between p =>
      refine hready [.sign ")"] (.sign ")") ⟨withoutGaps done, .sign ")", by simp [withoutGaps], hsign⟩ ?_
      exact fun x _ m => hclose p x m
  | inside e =>
      rcases hvalid.1.cases hvalid.2 with hdeep | rfl | ⟨sign, -, rfl⟩
      · refine ⟨done, .inside e.settle, fun x _ m => ?_, .inr ⟨_, rfl, hdeep.settle⟩⟩
        rw [hreads, ← List.singleton_append]
        simp only [Stage.reads_settle hdeep (show Inert [')'] by decide) (by simp)]
      · refine hready [.gap, .sign ")"] (.sign ")")
          ⟨withoutGaps done, .sign ")", by simp [withoutGaps], hsign⟩ fun x _ m => ?_
        have hafter : Ending.carriage.after mssql (')' :: x) = some (.gap, ')' :: x) := rfl
        rw [Stage.reads_inside_iff hafter]
        simp [hclose]
      · refine hready [.word "" none] (.word "" none)
          ⟨withoutGaps done, .word "" none, by simp [withoutGaps], hname⟩ fun x hx m => ?_
        have hafter : (Ending.signed sign).after mssql (')' :: x) = some (.word "" none, x) := by
          rcases hx.cases with rfl | ⟨v, rfl⟩ <;> rfl
        rw [Stage.reads_inside_iff hafter]
        simp

/-! ## Words behind it -/

theorem checkTokens_insert {done ins more : List Token} (hdone : Settled done)
    (hins : ∀ t ∈ ins, Harmless t) :
    checkTokens (withoutGaps (done ++ (ins ++ more))) = .ok () ↔
      checkTokens (withoutGaps (done ++ more)) = .ok () := by
  obtain ⟨before, t, heq, ht⟩ := hdone
  have hins' : ∀ t ∈ withoutGaps ins, Harmless t := fun t h => hins t (mem_withoutGaps.1 h).1
  -- what is put in stands behind a token that ends no statement
  have hrest (behind : List Token) (b : List Token) : checkRest (b ++ [t] ++ behind) = .ok () ↔
      (∀ u ∈ b, Harmless u) ∧ listed? blockedWords t = none ∧ checkRest behind = .ok () := by
    rw [List.append_assoc, checkRest_append (by simp), List.singleton_append, checkRest_cons ht]
  simp only [withoutGaps_append, heq]
  cases before with
  | nil =>
      simp only [List.nil_append, List.singleton_append, checkTokens]
      split
      · exact checkRest_harmless_append hins'
      · simp
  | cons o before =>
      simp only [List.cons_append, checkTokens]
      split
      · rw [hrest, hrest, checkRest_harmless_append hins']
      · simp

/-- Words behind a text, of which nothing depends that asks for the token in front of them only. -/
theorem EndsIn.insert (hu : EndsIn ok u) {ins : List Token} (hs : Inert s) (hempty : s ≠ [])
    (hspaced : ∀ x, Spaced (s ++ x))
    (hreads : ∀ previous x, Spaced x → ∀ m, Reads mssql previous (s ++ x) m ↔
      ∃ more, Reads mssql previous x more ∧ m = ins ++ more)
    {p : List Token → Prop} (hp : ∀ done more, LastIs ok done → (p (done ++ (ins ++ more)) ↔ p (done ++ more)))
    (hx : Spaced x) :
    (∃ m, Reads mssql .gap (u ++ (s ++ x)) m ∧ p m) ↔ ∃ m, Reads mssql .gap (u ++ x) m ∧ p m := by
  obtain ⟨done, stage, hu, hstage⟩ := hu
  simp only [hu _ (hspaced x), hu _ hx]
  rcases hstage with ⟨previous, rfl, hdone⟩ | ⟨e, rfl, hdeep⟩
  · constructor
    · rintro ⟨_, ⟨more, hmore, rfl⟩, h⟩
      obtain ⟨more', hmore', rfl⟩ := (hreads previous x hx more).1 hmore
      exact ⟨_, ⟨more', hmore', rfl⟩, (hp done more' hdone).1 h⟩
    · rintro ⟨_, ⟨more, hmore, rfl⟩, h⟩
      exact ⟨_, ⟨ins ++ more, (hreads previous x hx _).2 ⟨more, hmore, rfl⟩, rfl⟩, (hp done more hdone).2 h⟩
  · have hsettle (m : List Token) : (Stage.inside e).Reads mssql x m ↔
        (Stage.inside e.settle).Reads mssql x m := by
      unfold Stage.Reads
      simp only [hdeep.after_spaced hx]
    simp only [Stage.reads_settle hdeep hs hempty, hsettle]

/-- Harmless words behind a text that is ready for them. -/
theorem Ready.insert (hu : Ready u) {ins : List Token} (hs : Inert s) (hempty : s ≠ [])
    (hspaced : ∀ x, Spaced (s ++ x)) (hins : ∀ t ∈ ins, Harmless t)
    (hreads : ∀ previous x, Spaced x → ∀ m, Reads mssql previous (s ++ x) m ↔
      ∃ more, Reads mssql previous x more ∧ m = ins ++ more) (hx : Spaced x) :
    Passes .mssql (u ++ (s ++ x)) ↔ Passes .mssql (u ++ x) :=
  (ready_iff.1 hu).insert hs hempty hspaced hreads (fun _ _ hdone => checkTokens_insert hdone hins) hx

end SemanticLayer.Sandbox
