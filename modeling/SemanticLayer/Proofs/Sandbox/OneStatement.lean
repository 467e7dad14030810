import Mathlib.Data.List.Induction
import SemanticLayer.Proofs.Sandbox.Gate
/-!
When the tokens of a T-SQL text are those of one statement. No semicolon need stand between two statements, so a
second one is told by its SELECT alone: outside parentheses, nothing but a set operation goes on to another SELECT.
-/
namespace SemanticLayer.Sandbox

open Sql (Token LexicalRules)
open Sql.LexicalRules

variable {t u : Token} {tokens before behind done ins more : List Token} {words : List String}

/-- Whether a token spells one of some words, without quotes. -/
def Says (words : List String) (t : Token) : Prop :=
  (listed? words t).isSome = true

instance (words : List String) (t : Token) : Decidable (Says words t) :=
  inferInstanceAs (Decidable (_ = true))

/-- How deep in parentheses a text is behind a token. One that closes too much closes nothing. -/
def depthBehind (depth : Nat) (t : Token) : Nat :=
  if t = .sign "(" then depth + 1 else if t = .sign ")" then depth - 1 else depth

/-- How deep in parentheses a text ends. -/
def depth (tokens : List Token) : Nat :=
  tokens.foldl depthBehind 0

/-- Whether a SELECT stands outside parentheses. -/
def Selects (tokens : List Token) : Prop :=
  ∃ before t behind, tokens = before ++ t :: behind ∧ Says ["SELECT"] t ∧ depth before = 0

/-- Whether the last token says one of some words. -/
def EndsWith (words : List String) (tokens : List Token) : Prop :=
  ∃ before t, tokens = before ++ [t] ∧ Says words t

/-- Whether a text ends with the words by which a set operation goes on to its right side. -/
def Joins (tokens : List Token) : Prop :=
  EndsWith ["UNION", "INTERSECT", "EXCEPT"] tokens ∨
    ∃ before t, tokens = before ++ [t] ∧ Says ["ALL"] t ∧ EndsWith ["UNION"] before

/-- Outside parentheses every SELECT but the first stands directly behind the words of a set operation. The first one
is the main SELECT where common table expressions are in front. -/
def OneStatement (tokens : List Token) : Prop :=
  ∀ before t behind, tokens = before ++ t :: behind → Says ["SELECT"] t → depth before = 0 → Selects before →
    Joins before

/-! ## Token by token -/

theorem concat_eq_append_cons : tokens ++ [t] = before ++ u :: behind ↔
    (behind = [] ∧ before = tokens ∧ u = t) ∨
      ∃ behind', behind = behind' ++ [t] ∧ tokens = before ++ u :: behind' := by
  constructor
  · intro h
    rcases List.eq_nil_or_concat behind with rfl | ⟨behind', t', rfl⟩
    · obtain ⟨rfl, ht⟩ := List.append_inj' h rfl
      exact .inl ⟨rfl, rfl, (List.singleton_inj.1 ht).symm⟩
    · rw [List.concat_eq_append, ← List.cons_append, ← List.append_assoc] at h
      obtain ⟨rfl, ht⟩ := List.append_inj' h rfl
      exact .inr ⟨behind', by rw [List.concat_eq_append, List.singleton_inj.1 ht], rfl⟩
  · rintro (⟨rfl, rfl, rfl⟩ | ⟨behind', rfl, rfl⟩)
    · rfl
    · simp

theorem depth_concat : depth (tokens ++ [t]) = depthBehind (depth tokens) t := by
  simp [depth]

theorem endsWith_concat : EndsWith words (tokens ++ [t]) ↔ Says words t := by
  constructor
  · rintro ⟨before, u, heq, hu⟩
    obtain ⟨-, ht⟩ := List.append_inj' heq rfl
    rwa [List.singleton_inj.1 ht]
  · exact fun ht => ⟨tokens, t, rfl, ht⟩

theorem joins_concat : Joins (tokens ++ [t]) ↔
    Says ["UNION", "INTERSECT", "EXCEPT"] t ∨ Says ["ALL"] t ∧ EndsWith ["UNION"] tokens := by
  rw [Joins, endsWith_concat]
  refine or_congr_right ⟨?_, fun h => ⟨tokens, t, rfl, h⟩⟩
  rintro ⟨before, u, heq, hu, hbefore⟩
  obtain ⟨rfl, ht⟩ := List.append_inj' heq rfl
  rw [List.singleton_inj.1 ht]
  exact ⟨hu, hbefore⟩

theorem selects_concat : Selects (tokens ++ [t]) ↔ Selects tokens ∨ Says ["SELECT"] t ∧ depth tokens = 0 := by
  unfold Selects
  simp only [concat_eq_append_cons]
  constructor
  · rintro ⟨before, u, behind, ⟨rfl, rfl, rfl⟩ | ⟨behind', rfl, rfl⟩, hu, hdepth⟩
    · exact .inr ⟨hu, hdepth⟩
    · exact .inl ⟨before, u, behind', rfl, hu, hdepth⟩
  · rintro (⟨before, u, behind, rfl, hu, hdepth⟩ | ⟨ht, hdepth⟩)
    · exact ⟨before, u, behind ++ [t], .inr ⟨behind, rfl, rfl⟩, hu, hdepth⟩
    · exact ⟨tokens, t, [], .inl ⟨rfl, rfl, rfl⟩, ht, hdepth⟩

theorem oneStatement_concat : OneStatement (tokens ++ [t]) ↔ OneStatement tokens ∧
    (Says ["SELECT"] t → depth tokens = 0 → Selects tokens → Joins tokens) := by
  unfold OneStatement
  simp only [concat_eq_append_cons]
  constructor
  · intro h
    exact ⟨fun before u behind heq => h before u (behind ++ [t]) (.inr ⟨behind, rfl, heq⟩),
      h tokens t [] (.inl ⟨rfl, rfl, rfl⟩)⟩
  · rintro ⟨h, ht⟩ before u behind (⟨rfl, rfl, rfl⟩ | ⟨behind', rfl, heq⟩)
    · exact ht
    · exact h before u behind' heq

/-- Without a SELECT in it, what stands behind changes nothing. -/
theorem oneStatement_append (hmore : ∀ t ∈ more, ¬Says ["SELECT"] t) :
    OneStatement (done ++ more) ↔ OneStatement done := by
  induction more using List.reverseRecOn with
  | nil => rw [List.append_nil]
  | append_singleton more t ih =>
      rw [← List.append_assoc, oneStatement_concat, ih fun u hu => hmore u (List.mem_append_left _ hu)]
      exact and_iff_left fun ht => absurd ht (hmore t (by simp))

/-! ## In one pass -/

/-- How a text that has been read so far can go on to another SELECT. -/
inductive Joint where
  | apart
  /-- Behind `UNION`, where `ALL` may follow. -/
  | union
  | joined
  deriving DecidableEq

/-- How a text goes on behind a token. -/
def Joint.after (joint : Joint) (t : Token) : Joint :=
  if Says ["UNION"] t then .union
  else if Says ["INTERSECT", "EXCEPT"] t then .joined
  else if Says ["ALL"] t ∧ joint = .union then .joined
  else .apart

/-- What is known of a text from its tokens so far. -/
structure Trace where
  depth : Nat
  selects : Bool
  joint : Joint
  one : Bool

def Trace.step (r : Trace) (t : Token) : Trace where
  depth := depthBehind r.depth t
  selects := r.selects || decide (Says ["SELECT"] t ∧ r.depth = 0)
  joint := r.joint.after t
  one := r.one && !decide (Says ["SELECT"] t ∧ r.depth = 0 ∧ r.selects = true ∧ r.joint = .apart)

def trace (tokens : List Token) : Trace :=
  tokens.foldl Trace.step ⟨0, false, .apart, true⟩

theorem trace_append : trace (before ++ behind) = behind.foldl Trace.step (trace before) :=
  List.foldl_append

theorem trace_concat : trace (tokens ++ [t]) = (trace tokens).step t :=
  trace_append

theorem trace_depth (tokens : List Token) : (trace tokens).depth = depth tokens := by
  induction tokens using List.reverseRecOn with
  | nil => rfl
  | append_singleton tokens t ih => rw [trace_concat, Trace.step, ih, depth_concat]

theorem trace_selects (tokens : List Token) : (trace tokens).selects = true ↔ Selects tokens := by
  induction tokens using List.reverseRecOn with
  | nil => simp [trace, Selects]
  | append_singleton tokens t ih =>
      rw [trace_concat, selects_concat, ← ih, ← trace_depth]
      simp [Trace.step]

theorem says_cons {w : String} : Says (w :: words) t ↔ Says [w] t ∨ Says words t := by
  cases t with
  | word name quote =>
      cases quote with
      | none =>
          simp only [Says, listed?, List.find?_isSome, List.mem_cons, exists_eq_or_imp, List.not_mem_nil, or_false,
            exists_eq_left]
      | some quote => simp [Says, listed?]
  | _ => simp [Says, listed?]

theorem Says.mono {words' : List String} (h : Says words t) (hwords : words ⊆ words') : Says words' t := by
  cases t with
  | word name quote =>
      cases quote with
      | none =>
          simp only [Says, listed?, List.find?_isSome] at h ⊢
          obtain ⟨w, hw, hsame⟩ := h
          exact ⟨w, hwords hw, hsame⟩
      | some quote => simp [Says, listed?] at h
  | _ => simp [Says, listed?] at h

theorem trace_union (tokens : List Token) : (trace tokens).joint = .union ↔ EndsWith ["UNION"] tokens := by
  rcases List.eq_nil_or_concat tokens with rfl | ⟨tokens, t, rfl⟩
  · simp [trace, EndsWith]
  · rw [List.concat_eq_append, trace_concat, endsWith_concat]
    unfold Trace.step Joint.after
    dsimp only
    split
    · simp [*]
    · split
      · simp [*]
      · split <;> simp [*]

theorem trace_joint (tokens : List Token) : (trace tokens).joint ≠ .apart ↔ Joins tokens := by
  rcases List.eq_nil_or_concat tokens with rfl | ⟨tokens, t, rfl⟩
  · simp [trace, Joins, EndsWith]
  · rw [List.concat_eq_append, trace_concat, joins_concat, ← trace_union, says_cons]
    unfold Trace.step Joint.after
    dsimp only
    split
    · simp [*]
    · split
      · simp [*]
      · split <;> simp_all

theorem trace_one (tokens : List Token) : (trace tokens).one = true ↔ OneStatement tokens := by
  induction tokens using List.reverseRecOn with
  | nil => simp [trace, OneStatement]
  | append_singleton tokens t ih =>
      rw [trace_concat, oneStatement_concat, ← ih, ← trace_depth, ← trace_selects, ← trace_joint]
      simp only [Trace.step, Bool.and_eq_true, Bool.not_eq_true', decide_eq_false_iff_not, not_and, ne_eq]

instance (tokens : List Token) : Decidable (OneStatement tokens) :=
  decidable_of_iff _ (trace_one tokens)

/-! ## Words in between -/

/-- The words that a set operation is written with. -/
def joiningWords : List String :=
  ["UNION", "INTERSECT", "EXCEPT", "ALL"]

/-- A token that is no parenthesis, opens no SELECT and joins none. -/
def Idle (t : Token) : Prop :=
  t ≠ .sign "(" ∧ t ≠ .sign ")" ∧ ¬Says ("SELECT" :: joiningWords) t

instance (t : Token) : Decidable (Idle t) :=
  inferInstanceAs (Decidable (_ ∧ _ ∧ _))

theorem joint_after_eq_apart (joint : Joint) (ht : ¬Says joiningWords t) : joint.after t = .apart := by
  have hunion : ¬Says ["UNION"] t := fun h => ht (h.mono (by decide))
  have hjoined : ¬Says ["INTERSECT", "EXCEPT"] t := fun h => ht (h.mono (by decide))
  have hall : ¬Says ["ALL"] t := fun h => ht (h.mono (by decide))
  simp [Joint.after, hunion, hjoined, hall]

theorem Trace.step_idle (r : Trace) (ht : Idle t) : r.step t = { r with joint := .apart } := by
  obtain ⟨hopen, hclose, hwords⟩ := ht
  rw [says_cons, not_or] at hwords
  simp [Trace.step, depthBehind, hopen, hclose, hwords.1, joint_after_eq_apart r.joint hwords.2]

/-- Idle words behind a word that joins nothing change nothing. -/
theorem oneStatement_insert (ht : ¬Says joiningWords t) (hins : ∀ u ∈ ins, Idle u) :
    OneStatement (before ++ [t] ++ (ins ++ more)) ↔ OneStatement (before ++ [t] ++ more) := by
  have hstep (r : Trace) (hr : r.joint = .apart) : ins.foldl Trace.step r = r := by
    induction ins with
    | nil => rfl
    | cons u ins ih =>
        have hu : r.step u = r := by rw [r.step_idle (hins u (by simp)), ← hr]
        rw [List.foldl_cons, hu]
        exact ih fun v hv => hins v (by simp [hv])
  have hapart : (trace (before ++ [t])).joint = .apart := by
    rw [trace_concat]
    exact joint_after_eq_apart _ ht
  rw [← trace_one, ← trace_one, ← List.append_assoc, trace_append, trace_append, hstep _ hapart, ← trace_append]

/-! ## Texts -/

/-- Whether a T-SQL text is one statement. -/
def IsSingle (text : String) : Prop :=
  ∃ tokens, significant .mssql text.toList = .ok tokens ∧ OneStatement tokens

instance (text : String) : Decidable (IsSingle text) :=
  match h : significant .mssql text.toList with
  | .ok tokens => decidable_of_iff (OneStatement tokens) (by simp [IsSingle, h])
  | .error refusal => isFalse (by simp [IsSingle, h])

theorem says_shape (hwords : Lettered words) : Says words t.shape ↔ Says words t := by
  rw [Says, Says, hwords.listed?_shape]

theorem Trace.step_shape (r : Trace) (t : Token) : r.step t.shape = r.step t := by
  have hselect : Says ["SELECT"] t.shape ↔ Says ["SELECT"] t := says_shape (by decide)
  have hunion : Says ["UNION"] t.shape ↔ Says ["UNION"] t := says_shape (by decide)
  have hjoined : Says ["INTERSECT", "EXCEPT"] t.shape ↔ Says ["INTERSECT", "EXCEPT"] t := says_shape (by decide)
  have hall : Says ["ALL"] t.shape ↔ Says ["ALL"] t := says_shape (by decide)
  simp only [Trace.step, depthBehind, Joint.after, Token.shape_eq_sign_iff, hselect, hunion, hjoined, hall]

theorem oneStatement_shape (tokens : List Token) :
    OneStatement (tokens.map Token.shape) ↔ OneStatement tokens := by
  have htrace : trace (tokens.map Token.shape) = trace tokens := by
    simp only [trace, List.foldl_map, Trace.step_shape]
  rw [← trace_one, htrace, trace_one]

/-- Whether the shapes of the tokens of a text are those of one statement. -/
def Single (s : List Char) : Prop :=
  ∃ tokens, Reads mssql .gap s tokens ∧ OneStatement (withoutGaps tokens)

theorem isSingle_iff {text : String} : IsSingle text ↔ Single text.toList := by
  constructor
  · rintro ⟨found, hfound, hone⟩
    obtain ⟨all, hall, hshape⟩ := (significant_eq_ok_iff .mssql text.toList _).1 ⟨found, hfound, rfl⟩
    exact ⟨all, hall, by rwa [hshape, oneStatement_shape]⟩
  · rintro ⟨all, hall, hone⟩
    obtain ⟨found, hfound, hshape⟩ := (significant_eq_ok_iff .mssql text.toList _).2 ⟨all, hall, rfl⟩
    exact ⟨found, hfound, by rwa [← hshape, oneStatement_shape] at hone⟩

end SemanticLayer.Sandbox
