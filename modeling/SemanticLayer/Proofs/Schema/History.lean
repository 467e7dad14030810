import Mathlib.Data.List.Basic
import Mathlib.Data.List.Induction
import SemanticLayer.Proofs.Lookup
import SemanticLayer.Schema.Cache
/-!
What a cache holds after any history. It is never over its capacity; a value that it gives is the last that was put
under the key and was not dropped since; and a live entry makes room for another one only if all are live, the oldest
first.
-/
namespace SemanticLayer.Cache

/-! ## What was put there -/

section Entries

variable {κ α : Type} [DecidableEq κ] {c : Cache κ α} {now : Nat} {key other : κ} {value : α} {entry : Cached α}

theorem mem_of_get? (h : c.get? now key = some value) : ∃ entry, (key, entry) ∈ c.entries ∧ entry.value = value := by
  obtain ⟨entry, hentry, hvalue⟩ := Option.map_eq_some_iff.1 h
  exact ⟨entry, mem_of_lookup (Option.filter_eq_some_iff.1 hentry).1, hvalue⟩

theorem mem_erase : (key, entry) ∈ (c.erase other).entries ↔ (key, entry) ∈ c.entries ∧ key ≠ other := by
  simp [erase]

theorem get?_erase_self : (c.erase key).get? now key = none := by
  rw [Option.eq_none_iff_forall_ne_some]
  intro value h
  obtain ⟨entry, hentry, -⟩ := mem_of_get? h
  exact (mem_erase.1 hentry).2 rfl

theorem makeRoom_subset : (c.makeRoom now).entries ⊆ c.entries := by
  have hlive : (c.dropExpired now).entries ⊆ c.entries := List.filter_subset_self _
  unfold makeRoom
  split
  · exact List.Subset.refl _
  · dsimp only
    split
    · exact hlive
    · unfold dropSoonest
      split
      · exact List.Subset.trans (List.filter_subset_self _) hlive
      · exact hlive

theorem mem_insert (h : (key, entry) ∈ (c.insert now other value).entries) :
    (key, entry) ∈ c.entries ∨ key = other ∧ entry.value = value := by
  unfold insert at h
  split at h
  · exact .inl h
  · rcases List.mem_cons.1 h with heq | hmem
    · obtain ⟨rfl, rfl⟩ := Prod.mk.inj heq
      exact .inr ⟨rfl, rfl⟩
    · left
      have hroomy := (mem_erase.1 hmem).1
      split at hroomy
      · exact hroomy
      · exact makeRoom_subset hroomy

theorem get?_insert_self {later : Nat} (hcapacity : c.capacity ≠ 0) (hlater : later < now + c.lifetime) :
    (c.insert now key value).get? later key = some value := by
  have hlive : Cached.isLive ⟨value, now + c.lifetime⟩ later = true := decide_eq_true hlater
  rw [insert, if_neg hcapacity, get?, entry?, List.lookup_cons_self, Option.filter_some, if_pos hlive]
  rfl

end Entries

variable {κ α : Type} {capacity lifetime now time : Nat} {key other : κ} {value : α} {entry : Cached α}
  {entries : List (κ × Cached α)} {e : κ × Cached α}

/-! ## The entry that is to expire first -/

theorem soonest?_eq_none_iff : soonest? entries = none ↔ entries = [] := by
  cases entries with
  | nil => simp [soonest?]
  | cons e entries =>
      simp only [soonest?, reduceCtorEq, iff_false]
      split
      · simp
      · split <;> simp

theorem soonest?_spec (h : soonest? entries = some e) : e ∈ entries ∧ ∀ f ∈ entries, e.2.expires ≤ f.2.expires := by
  induction entries generalizing e with
  | nil => simp [soonest?] at h
  | cons first entries ih =>
      rw [soonest?] at h
      split at h
      · rename_i hnone
        obtain rfl := Option.some.inj h
        simp [soonest?_eq_none_iff.1 hnone]
      · rename_i f hf
        obtain ⟨hmem, hle⟩ := ih hf
        split at h
        · rename_i hlt
          obtain rfl := Option.some.inj h
          exact ⟨List.mem_cons_of_mem _ hmem, List.forall_mem_cons.2 ⟨Nat.le_of_lt hlt, hle⟩⟩
        · rename_i hge
          obtain rfl := Option.some.inj h
          refine ⟨List.mem_cons_self, List.forall_mem_cons.2 ⟨Nat.le_refl _, fun g hg => ?_⟩⟩
          exact Nat.le_trans (Nat.not_lt.1 hge) (hle g hg)

/-! ## Keys and size -/

/-- Every key has one entry, and there are no more entries than the capacity allows. -/
structure WellFormed (c : Cache κ α) : Prop where
  keys : (c.entries.map Prod.fst).Nodup
  size_le : c.size ≤ c.capacity

variable {c : Cache κ α}

/-- Entries can be taken out. -/
theorem WellFormed.of_sublist (h : c.WellFormed) (hentries : entries.Sublist c.entries) :
    { c with entries := entries }.WellFormed :=
  ⟨h.keys.sublist (hentries.map Prod.fst), Nat.le_trans hentries.length_le h.size_le⟩

/-- No entry has expired. -/
def AllLive (c : Cache κ α) (now : Nat) : Prop :=
  ∀ e ∈ c.entries, e.2.isLive now = true

theorem dropExpired_of_allLive (h : c.AllLive now) : c.dropExpired now = c := by
  have hentries : c.entries.filter (fun e => e.2.isLive now) = c.entries := List.filter_eq_self.2 h
  rw [dropExpired, hentries]

theorem size_dropExpired_lt (h : ¬ c.AllLive now) : (c.dropExpired now).size < c.size := by
  refine List.length_filter_lt_length_iff_exists.2 ?_
  simpa [AllLive] using h

/-! ## What is asked of a cache -/

/-- What is asked of a cache. -/
inductive Action (κ α : Type)
  | insert (key : κ) (value : α)
  | get (key : κ)
  | invalidate (key : κ)
  | evictExpired
  | clear

/-- An action neither puts anything under a key nor takes it away by name. -/
def Action.Spares (key : κ) : Action κ α → Prop
  | .insert other _ => other ≠ key
  | .get _ => True
  | .invalidate other => other ≠ key
  | .evictExpired => True
  | .clear => False

/-- A value was the last that came under a key, at a time, and since then the key was neither invalidated nor the cache
cleared. -/
def LastInsert (history : List (Nat × Action κ α)) (key : κ) (time : Nat) (value : α) : Prop :=
  ∃ before behind, history = before ++ (time, .insert key value) :: behind ∧ ∀ step ∈ behind, step.2.Spares key

variable {history : List (Nat × Action κ α)} {action : Action κ α}

theorem lastInsert_append_iff : LastInsert (history ++ [(now, action)]) key time value ↔
    (now = time ∧ action = .insert key value) ∨ (action.Spares key ∧ LastInsert history key time value) := by
  constructor
  · rintro ⟨before, behind, heq, hbehind⟩
    rcases List.eq_nil_or_concat behind with rfl | ⟨behind, step, rfl⟩
    · obtain ⟨-, hstep⟩ := List.append_inj' heq rfl
      obtain ⟨rfl, rfl⟩ := Prod.mk.inj (List.singleton_inj.1 hstep)
      exact .inl ⟨rfl, rfl⟩
    · rw [List.concat_eq_append] at heq hbehind
      have heq : history ++ [(now, action)] = (before ++ (time, .insert key value) :: behind) ++ [step] := by simp [heq]
      obtain ⟨hhistory, hstep⟩ := List.append_inj' heq rfl
      obtain rfl := List.singleton_inj.1 hstep
      obtain ⟨hbehind, hlast⟩ := List.forall_mem_append.1 hbehind
      exact .inr ⟨hlast _ List.mem_cons_self, before, behind, hhistory, hbehind⟩
  · rintro (⟨rfl, rfl⟩ | ⟨hspares, before, behind, rfl, hbehind⟩)
    · exact ⟨history, [], rfl, by simp⟩
    · refine ⟨before, behind ++ [(now, action)], by simp, List.forall_mem_append.2 ⟨hbehind, ?_⟩⟩
      exact List.forall_mem_singleton.2 hspares

theorem LastInsert.unique {time' : Nat} {value' : α} (h : LastInsert history key time value)
    (h' : LastInsert history key time' value') : time = time' ∧ value = value' := by
  induction history using List.reverseRecOn with
  | nil => obtain ⟨before, behind, heq, -⟩ := h; simp at heq
  | append_singleton history step ih =>
      obtain ⟨now, action⟩ := step
      rcases lastInsert_append_iff.1 h with ⟨rfl, rfl⟩ | ⟨hspares, h⟩
      · rcases lastInsert_append_iff.1 h' with ⟨rfl, heq⟩ | ⟨hspares, -⟩
        · cases heq
          exact ⟨rfl, rfl⟩
        · exact absurd rfl hspares
      · rcases lastInsert_append_iff.1 h' with ⟨-, rfl⟩ | ⟨-, h'⟩
        · exact absurd rfl hspares
        · exact ih h h'

/-! ## Look-up -/

variable [DecidableEq κ]

theorem WellFormed.erase (h : c.WellFormed) (key : κ) : (c.erase key).WellFormed :=
  h.of_sublist List.filter_sublist

theorem WellFormed.lookup_eq_some_iff (h : c.WellFormed) : c.entry? key = some entry ↔ (key, entry) ∈ c.entries :=
  lookup_eq_some_iff_mem h.keys

theorem lookup_erase : entry? (c.erase key) other = if other = key then none else c.entry? other :=
  lookup_filter_ne c.entries key other

theorem WellFormed.lookup_dropExpired (h : c.WellFormed) (now : Nat) (key : κ) :
    entry? (c.dropExpired now) key = (c.entry? key).filter fun entry => entry.isLive now :=
  lookup_filter_value (fun entry : Cached α => entry.isLive now) h.keys key

theorem size_erase_le (c : Cache κ α) (key : κ) : (c.erase key).size ≤ c.size :=
  List.length_filter_le _ _

theorem size_erase_lt (h : (c.entry? key).isSome) : (c.erase key).size < c.size := by
  obtain ⟨entry, hentry⟩ := Option.isSome_iff_exists.1 h
  refine List.length_filter_lt_length_iff_exists.2 ⟨(key, entry), mem_of_lookup hentry, ?_⟩
  simp

/-! ## Room for one more entry -/

theorem makeRoom_of_lt (h : c.size < c.capacity) : c.makeRoom now = c :=
  if_pos h

theorem WellFormed.makeRoom_of_expired (h : c.WellFormed) (hfull : c.capacity ≤ c.size) (hlive : ¬ c.AllLive now) :
    c.makeRoom now = c.dropExpired now := by
  have hroom : (c.dropExpired now).size < (c.dropExpired now).capacity :=
    Nat.lt_of_lt_of_le (size_dropExpired_lt hlive) h.size_le
  rw [makeRoom, if_neg (Nat.not_lt.2 hfull)]
  exact if_pos hroom

theorem makeRoom_of_allLive (hfull : c.capacity ≤ c.size) (hlive : c.AllLive now) :
    c.makeRoom now = c.dropSoonest := by
  rw [makeRoom, if_neg (Nat.not_lt.2 hfull)]
  simp only [dropExpired_of_allLive hlive]
  exact if_neg (Nat.not_lt.2 hfull)

theorem WellFormed.dropSoonest (h : c.WellFormed) (hpos : 0 < c.size) : ∃ oldest entry,
    c.entry? oldest = some entry ∧ c.dropSoonest = c.erase oldest ∧
      ∀ other entry', c.entry? other = some entry' → entry.expires ≤ entry'.expires := by
  have hne : c.entries ≠ [] := List.length_pos_iff.1 hpos
  obtain ⟨e, he⟩ := Option.ne_none_iff_exists'.1 (mt soonest?_eq_none_iff.1 hne)
  obtain ⟨hmem, hle⟩ := soonest?_spec he
  refine ⟨e.1, e.2, h.lookup_eq_some_iff.2 hmem, ?_, ?_⟩
  · rw [Cache.dropSoonest, he]
  · intro other entry' hentry'
    exact hle _ (h.lookup_eq_some_iff.1 hentry')

/-- There is room where there is any capacity at all. -/
theorem WellFormed.makeRoom (h : c.WellFormed) (hcapacity : c.capacity ≠ 0) (now : Nat) :
    (c.makeRoom now).entries.Sublist c.entries ∧ (c.makeRoom now).size < c.capacity := by
  by_cases hfull : c.size < c.capacity
  · rw [makeRoom_of_lt hfull]
    exact ⟨List.Sublist.refl _, hfull⟩
  have hfull := Nat.not_lt.1 hfull
  by_cases hlive : c.AllLive now
  · obtain ⟨oldest, entry, hentry, hdrop, -⟩ := h.dropSoonest (Nat.lt_of_lt_of_le (Nat.pos_of_ne_zero hcapacity) hfull)
    rw [makeRoom_of_allLive hfull hlive, hdrop]
    refine ⟨List.filter_sublist, Nat.lt_of_lt_of_le (size_erase_lt ?_) h.size_le⟩
    rw [hentry]
    rfl
  · rw [h.makeRoom_of_expired hfull hlive]
    exact ⟨List.filter_sublist, Nat.lt_of_lt_of_le (size_dropExpired_lt hlive) h.size_le⟩


theorem makeRoom_eq (c : Cache κ α) (now : Nat) : c.makeRoom now = { c with entries := (c.makeRoom now).entries } := by
  unfold makeRoom
  split
  · rfl
  · dsimp only
    split
    · rfl
    · unfold Cache.dropSoonest
      split <;> rfl

/-! ## An insertion -/

theorem insert_of_capacity_eq_zero (h : c.capacity = 0) : c.insert now key value = c :=
  if_pos h

theorem insert_of_isSome (hcapacity : c.capacity ≠ 0) (h : (c.entry? key).isSome) : c.insert now key value =
    { c with entries := (key, ⟨value, now + c.lifetime⟩) :: (c.erase key).entries } := by
  simp only [insert, if_neg hcapacity, if_pos h]

theorem insert_of_isNone (hcapacity : c.capacity ≠ 0) (h : ¬ (c.entry? key).isSome) : c.insert now key value =
    { c with entries := (key, ⟨value, now + c.lifetime⟩) :: ((c.makeRoom now).erase key).entries } := by
  rw [insert, if_neg hcapacity]
  simp only [if_neg h]
  rw [makeRoom_eq]

theorem WellFormed.insert (h : c.WellFormed) (now : Nat) (key : κ) (value : α) :
    (c.insert now key value).WellFormed := by
  by_cases hcapacity : c.capacity = 0
  · rw [insert_of_capacity_eq_zero hcapacity]
    exact h
  have hcons {d : Cache κ α} (hd : d.WellFormed) (hsize : (d.erase key).size < c.capacity) :
      { c with entries := (key, ⟨value, now + c.lifetime⟩) :: (d.erase key).entries }.WellFormed := by
    refine ⟨List.nodup_cons.2 ⟨?_, (hd.erase key).keys⟩, hsize⟩
    simp [Cache.erase]
  by_cases hkey : (c.entry? key).isSome
  · rw [insert_of_isSome hcapacity hkey]
    exact hcons h (Nat.lt_of_lt_of_le (size_erase_lt hkey) h.size_le)
  · rw [insert_of_isNone hcapacity hkey]
    obtain ⟨hsublist, hsize⟩ := h.makeRoom hcapacity now
    refine hcons ?_ (Nat.lt_of_le_of_lt (size_erase_le _ _) hsize)
    rw [makeRoom_eq]
    exact h.of_sublist hsublist

theorem lookup_insert_self (hcapacity : c.capacity ≠ 0) :
    entry? (c.insert now key value) key = some ⟨value, now + c.lifetime⟩ := by
  rw [Cache.insert, if_neg hcapacity, entry?, List.lookup_cons_self]

theorem WellFormed.lookup_of_insert (h : c.WellFormed) (hne : other ≠ key)
    (hentry : entry? (c.insert now key value) other = some entry) : c.entry? other = some entry := by
  rcases mem_insert (mem_of_lookup hentry) with hmem | ⟨heq, -⟩
  · exact h.lookup_eq_some_iff.2 hmem
  · exact absurd heq hne

theorem insert_settings (c : Cache κ α) (now : Nat) (key : κ) (value : α) :
    (c.insert now key value).capacity = c.capacity ∧ (c.insert now key value).lifetime = c.lifetime := by
  by_cases hcapacity : c.capacity = 0
  · rw [insert_of_capacity_eq_zero hcapacity]
    exact ⟨rfl, rfl⟩
  · by_cases hkey : (c.entry? key).isSome
    · rw [insert_of_isSome hcapacity hkey]
      exact ⟨rfl, rfl⟩
    · rw [insert_of_isNone hcapacity hkey]
      exact ⟨rfl, rfl⟩

/-! ## Histories -/

def perform (c : Cache κ α) (now : Nat) : Action κ α → Cache κ α
  | .insert key value => c.insert now key value
  | .get _ => c
  | .invalidate key => c.erase key
  | .evictExpired => c.dropExpired now
  | .clear => c.clear

def after (capacity lifetime : Nat) (history : List (Nat × Action κ α)) : Cache κ α :=
  history.foldl (fun c step => c.perform step.1 step.2) (empty capacity lifetime)

/-- What holds of a cache with a history: its entries are the last insertions. -/
structure Records (c : Cache κ α) (history : List (Nat × Action κ α)) : Prop where
  wellFormed : c.WellFormed
  lastInsert {key : κ} {entry : Cached α} : c.entry? key = some entry →
    ∃ time, LastInsert history key time entry.value ∧ entry.expires = time + c.lifetime

theorem Records.narrow {d : Cache κ α} (h : c.Records history) (hd : d.WellFormed)
    (hlifetime : d.lifetime = c.lifetime)
    (hspared : ∀ key entry, d.entry? key = some entry → c.entry? key = some entry ∧ action.Spares key) (now : Nat) :
    d.Records (history ++ [(now, action)]) := by
  refine ⟨hd, fun {key entry} hentry => ?_⟩
  obtain ⟨hentry, hspares⟩ := hspared key entry hentry
  obtain ⟨time, hlast, hexpires⟩ := h.lastInsert hentry
  exact ⟨time, lastInsert_append_iff.2 (.inr ⟨hspares, hlast⟩), by rw [hexpires, hlifetime]⟩

theorem Records.insert (h : c.Records history) (now : Nat) (key : κ) (value : α) :
    (c.insert now key value).Records (history ++ [(now, .insert key value)]) := by
  refine ⟨h.wellFormed.insert now key value, fun {other entry} hentry => ?_⟩
  rw [(insert_settings ..).2]
  by_cases hcapacity : c.capacity = 0
  · rw [insert_of_capacity_eq_zero hcapacity] at hentry
    have hpos := List.length_pos_of_mem (mem_of_lookup hentry)
    exact absurd (Nat.lt_of_lt_of_le hpos h.wellFormed.size_le) (by rw [hcapacity]; exact Nat.lt_irrefl 0)
  by_cases hother : other = key
  · obtain rfl := hother
    obtain rfl := Option.some.inj ((lookup_insert_self hcapacity).symm.trans hentry)
    exact ⟨now, lastInsert_append_iff.2 (.inl ⟨rfl, rfl⟩), rfl⟩
  · obtain ⟨time, hlast, hexpires⟩ := h.lastInsert (h.wellFormed.lookup_of_insert hother hentry)
    exact ⟨time, lastInsert_append_iff.2 (.inr ⟨Ne.symm hother, hlast⟩), hexpires⟩

theorem Records.perform (h : c.Records history) (now : Nat) (action : Action κ α) :
    (c.perform now action).Records (history ++ [(now, action)]) := by
  cases action with
  | insert key value => exact h.insert now key value
  | get key =>
      refine h.narrow h.wellFormed rfl (fun _ _ hentry => ⟨hentry, ?_⟩) now
      exact trivial
  | invalidate key =>
      refine h.narrow (h.wellFormed.erase key) rfl (fun other entry hentry => ?_) now
      rw [lookup_erase] at hentry
      split at hentry
      · cases hentry
      · rename_i hne
        exact ⟨hentry, Ne.symm hne⟩
  | evictExpired =>
      refine h.narrow (h.wellFormed.of_sublist List.filter_sublist) rfl (fun key entry hentry => ?_) now
      rw [← Cache.dropExpired, h.wellFormed.lookup_dropExpired, Option.filter_eq_some_iff] at hentry
      exact ⟨hentry.1, trivial⟩
  | clear => exact h.narrow (h.wellFormed.of_sublist (List.nil_sublist _)) rfl (fun _ _ hentry => by cases hentry) now

end SemanticLayer.Cache
