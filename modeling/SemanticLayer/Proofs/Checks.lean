import Mathlib.Data.List.Forall2
import SemanticLayer.Failure
/-!
When checks that are made one after another succeed.
-/
namespace SemanticLayer

variable {ε α β : Type}

@[simp] theorem ok_bind {a : α} {f : α → Except ε β} : Except.ok a >>= f = f a := rfl

@[simp] theorem error_bind {e : ε} {f : α → Except ε β} : Except.error e >>= f = .error e := rfl

@[simp] theorem bind_eq_ok_iff {x : Except ε α} {f : α → Except ε β} {b : β} :
    x >>= f = .ok b ↔ ∃ a, x = .ok a ∧ f a = .ok b := by
  cases x with
  | error e => simp [bind, Except.bind]
  | ok a => simp [bind, Except.bind]

theorem bind_eq_error_iff {x : Except ε α} {f : α → Except ε β} {e : ε} :
    x >>= f = .error e ↔ x = .error e ∨ ∃ a, x = .ok a ∧ f a = .error e := by
  cases x with
  | error e' => simp [bind, Except.bind]
  | ok a => simp [bind, Except.bind]

@[simp high] theorem bind_unit_eq_ok_iff {x : Except ε Unit} {f : Unit → Except ε β} {b : β} :
    x >>= f = .ok b ↔ x = .ok () ∧ f () = .ok b := by
  rw [bind_eq_ok_iff]
  exact ⟨fun ⟨_, hx, hf⟩ => ⟨hx, hf⟩, fun ⟨hx, hf⟩ => ⟨(), hx, hf⟩⟩

@[simp] theorem map_eq_ok_iff {x : Except ε α} {f : α → β} {b : β} :
    f <$> x = .ok b ↔ ∃ a, x = .ok a ∧ f a = b := by
  cases x with
  | error e => simp [Functor.map, Except.map]
  | ok a => simp [Functor.map, Except.map]

@[simp] theorem mapError_eq_ok_iff {ε' : Type} {x : Except ε α} {f : ε → ε'} {a : α} :
    x.mapError f = .ok a ↔ x = .ok a := by
  cases x <;> simp [Except.mapError]

@[simp] theorem pure_eq_ok_iff {a b : α} : (pure a : Except ε α) = .ok b ↔ a = b := by
  simp [pure, Except.pure]

@[simp] theorem throw_ne_ok {e : ε} {a : α} : (throw e : Except ε α) ≠ .ok a := by
  simp [throw, throwThe, MonadExceptOf.throw]

@[simp] theorem throw_bind {e : ε} {f : α → Except ε β} : (throw e : Except ε α) >>= f = .error e := rfl

theorem eq_ok_of_toOption {x : Except ε α} {a : α} (h : x.toOption = some a) : x = .ok a := by
  cases x with
  | error e => simp [Except.toOption] at h
  | ok b => simpa [Except.toOption] using h

@[simp] theorem forM_eq_ok_iff {check : α → Except ε Unit} {items : List α} :
    forM items check = .ok () ↔ ∀ a ∈ items, check a = .ok () := by
  induction items with
  | nil => simp
  | cons a items ih => simp [ih]

theorem mapM_eq_ok_iff {f : α → Except ε β} {items : List α} {results : List β} :
    items.mapM f = .ok results ↔ List.Forall₂ (fun a b => f a = .ok b) items results := by
  induction items generalizing results with
  | nil =>
      rw [List.mapM_nil, pure_eq_ok_iff, List.forall₂_nil_left_iff]
      exact eq_comm
  | cons a items ih =>
      rw [List.mapM_cons, bind_eq_ok_iff]
      constructor
      · rintro ⟨b, hb, h⟩
        obtain ⟨more, hmore, rfl⟩ := by simpa using h
        exact List.Forall₂.cons hb (ih.1 hmore)
      · rintro (_ | ⟨hb, hmore⟩)
        exact ⟨_, hb, by simpa using ih.2 hmore⟩

theorem exists_mem_of_forall₂ {R : α → β → Prop} {as : List α} {bs : List β}
    (h : List.Forall₂ R as bs) : (∀ a ∈ as, ∃ b ∈ bs, R a b) ∧ (∀ b ∈ bs, ∃ a ∈ as, R a b) := by
  induction h with
  | nil => simp
  | @cons a b as bs hab _ ih =>
      constructor
      · rintro x (_ | ⟨_, hx⟩)
        · exact ⟨b, by simp, hab⟩
        · obtain ⟨y, hy, hxy⟩ := ih.1 x hx
          exact ⟨y, List.mem_cons_of_mem _ hy, hxy⟩
      · rintro y (_ | ⟨_, hy⟩)
        · exact ⟨a, by simp, hab⟩
        · obtain ⟨x, hx, hxy⟩ := ih.2 y hy
          exact ⟨x, List.mem_cons_of_mem _ hx, hxy⟩

/-- A list of results is there if there is one for each item. -/
theorem exists_forall₂_iff {R : α → β → Prop} {as : List α} :
    (∃ bs, List.Forall₂ R as bs) ↔ ∀ a ∈ as, ∃ b, R a b := by
  induction as with
  | nil => simp
  | cons a as ih =>
      rw [List.forall_mem_cons, ← ih]
      constructor
      · rintro ⟨_, _ | ⟨hab, hmore⟩⟩
        exact ⟨⟨_, hab⟩, _, hmore⟩
      · rintro ⟨⟨b, hab⟩, bs, hmore⟩
        exact ⟨b :: bs, .cons hab hmore⟩

theorem filterMap_eq_of_forall₂ {γ : Type} {R : α → β → Prop} {f : α → Option γ} {g : β → Option γ}
    {as : List α} {bs : List β} (h : List.Forall₂ R as bs) (hfg : ∀ a b, R a b → f a = g b) :
    as.filterMap f = bs.filterMap g := by
  induction h with
  | nil => rfl
  | cons hab _ ih => rw [List.filterMap_cons, List.filterMap_cons, hfg _ _ hab, ih]

/-! ## The first of its kind -/

/-- Whether a list has an item of which `P` is true with the items in front of it. -/
def Met (P : List α → α → Prop) (items : List α) : Prop :=
  ∃ before a behind, items = before ++ a :: behind ∧ P before a

variable {P : List α → α → Prop} {items more : List α} {a : α}

theorem not_met_nil : ¬Met P [] := by
  simp [Met]

theorem met_cons : Met P (a :: items) ↔ P [] a ∨ Met (fun before => P (a :: before)) items := by
  constructor
  · rintro ⟨_ | ⟨c, before⟩, b, behind, heq, h⟩
    · obtain ⟨rfl, rfl⟩ := List.cons.inj heq
      exact .inl h
    · obtain ⟨rfl, rfl⟩ := List.cons.inj heq
      exact .inr ⟨before, b, behind, rfl, h⟩
  · rintro (h | ⟨before, b, behind, rfl, h⟩)
    · exact ⟨[], a, items, rfl, h⟩
    · exact ⟨a :: before, b, behind, rfl, h⟩

theorem met_append : Met P (items ++ more) ↔ Met P items ∨ Met (fun before => P (items ++ before)) more := by
  induction items generalizing P with
  | nil => simp [not_met_nil]
  | cons a items ih => simp only [List.cons_append, met_cons, ih, or_assoc]

theorem met_map {P : List β → β → Prop} (f : α → β) :
    Met P (items.map f) ↔ Met (fun before a => P (before.map f) (f a)) items := by
  induction items generalizing P with
  | nil => simp [not_met_nil]
  | cons a items ih => simp only [List.map_cons, met_cons, List.map_nil, ih]

theorem met_congr {Q : List α → α → Prop} (h : ∀ before a, P before a ↔ Q before a) :
    Met P items ↔ Met Q items := by
  simp only [Met, h]

end SemanticLayer
