import Mathlib.Data.List.Induction
import SemanticLayer.Proofs.Connection.Catalog
/-!
Which connection of a catalog is the default one. The history of the catalog tells: it is the last connection that was
saved with the flag, unless it was removed or replaced since. So there is at most one, and a search that stops at the
first connection with the flag finds it whatever the order of the entries is.
-/
namespace SemanticLayer.Catalog

/-- What can be done to a catalog. -/
inductive Change where
  | upsert (connection : Connection)
  | remove (id : String)
  | record (id : String) (outcome : TestOutcome)

def apply (catalog : Catalog) : Change → Catalog
  | .upsert c => catalog.upsert c
  | .remove id => catalog.remove id
  | .record id outcome => catalog.record id outcome

def after (catalog : Catalog) (history : List Change) : Catalog :=
  history.foldl apply catalog

/-- Whether a change leaves a connection in the catalog, and the default flag with it. -/
def Change.Spares (id : String) : Change → Prop
  | upsert other => other.isDefault = false ∧ other.id ≠ id
  | remove name => name ≠ id
  | record _ _ => True

/-- What a change that spares a connection makes of it. -/
def Change.onSpared : Change → Connection → Connection
  | record name outcome, c => if c.id = name then tested outcome c else c
  | _, c => c

/-- What changes that spare a connection make of it. -/
def keptThrough (behind : List Change) (c : Connection) : Connection :=
  behind.foldl (fun d change => change.onSpared d) c

/-- A connection is the last one that a history saves with the default flag, and nothing removed or replaced it
since; `c` is what the tests since then made of it. -/
def LastDefault (history : List Change) (c : Connection) : Prop :=
  ∃ before saved behind, history = before ++ .upsert saved :: behind ∧ saved.isDefault = true ∧
    (∀ change ∈ behind, change.Spares saved.id) ∧ c = keptThrough behind saved

variable {catalog : Catalog} {history : List Change} {change : Change} {id name : String} {c d : Connection}
  {outcome : TestOutcome}

/-! ## Look-up after a change -/

theorem get?_upsert : (catalog.upsert d).get? id =
    if id = d.id then some d
    else (catalog.get? id).map fun c => if d.isDefault then { c with isDefault := false } else c := by
  unfold upsert get?
  rw [Dictionary.get?_insert]
  split
  · rfl
  · cases hd : d.isDefault with
    | true => exact Dictionary.get?_map
    | false => exact Option.map_id'.symm

theorem get?_remove : (catalog.remove name).get? id = if id = name then none else catalog.get? id :=
  Dictionary.get?_erase

theorem get?_record : (catalog.record name outcome).get? id =
    if id = name then (catalog.get? id).map (tested outcome) else catalog.get? id :=
  Dictionary.get?_alter

/-! ## The flag after a change -/

/-- A connection is in the catalog with the default flag. -/
def Flagged (catalog : Catalog) (c : Connection) : Prop :=
  catalog.get? c.id = some c ∧ c.isDefault = true

@[simp] theorem Change.id_onSpared : (change.onSpared c).id = c.id := by
  unfold onSpared
  split
  · split <;> rfl
  · rfl

@[simp] theorem Change.isDefault_onSpared : (change.onSpared c).isDefault = c.isDefault := by
  unfold onSpared
  split
  · split <;> rfl
  · rfl

theorem flagged_upsert_iff :
    (catalog.upsert d).Flagged c ↔
      (c = d ∧ c.isDefault = true) ∨ (d.isDefault = false ∧ d.id ≠ c.id ∧ catalog.Flagged c) := by
  unfold Flagged
  rw [get?_upsert]
  split
  · rename_i hid
    constructor
    · rintro ⟨hc, hflag⟩
      exact .inl ⟨(Option.some.inj hc).symm, hflag⟩
    · rintro (⟨rfl, hflag⟩ | ⟨-, hne, -⟩)
      · exact ⟨rfl, hflag⟩
      · exact absurd hid.symm hne
  · rename_i hid
    cases hd : d.isDefault with
    | true =>
        -- Every other connection has lost the flag.
        constructor
        · rintro ⟨hc, hflag⟩
          obtain ⟨e, -, rfl⟩ := Option.map_eq_some_iff.1 hc
          simp at hflag
        · rintro (⟨rfl, -⟩ | ⟨hfalse, -⟩)
          · exact absurd rfl hid
          · simp at hfalse
    | false =>
        constructor
        · rintro ⟨hc, hflag⟩
          exact .inr ⟨rfl, fun heq => hid heq.symm, by simpa using hc, hflag⟩
        · rintro (⟨rfl, -⟩ | ⟨-, -, hc, hflag⟩)
          · exact absurd rfl hid
          · exact ⟨by simpa using hc, hflag⟩

theorem flagged_remove_iff : (catalog.remove name).Flagged c ↔ name ≠ c.id ∧ catalog.Flagged c := by
  unfold Flagged
  rw [get?_remove]
  split
  · rename_i hid
    simp [hid]
  · rename_i hid
    simp [Ne.symm hid]

theorem flagged_record_iff : (catalog.record name outcome).Flagged c ↔
    ∃ d, catalog.Flagged d ∧ c = (Change.record name outcome).onSpared d := by
  unfold Flagged
  rw [get?_record]
  constructor
  · rintro ⟨hc, hflag⟩
    split at hc
    · rename_i hid
      obtain ⟨d, hd, rfl⟩ := Option.map_eq_some_iff.1 hc
      exact ⟨d, ⟨hd, hflag⟩, (if_pos hid).symm⟩
    · rename_i hid
      exact ⟨c, ⟨hc, hflag⟩, (if_neg hid).symm⟩
  · rintro ⟨d, ⟨hd, hflag⟩, rfl⟩
    rw [Change.id_onSpared, Change.isDefault_onSpared, hd]
    refine ⟨?_, hflag⟩
    unfold Change.onSpared
    dsimp only
    split <;> rfl

/-- After a change a connection has the flag if it is saved with it by the change, or had it and was spared. -/
theorem flagged_apply_iff : (catalog.apply change).Flagged c ↔
    (change = .upsert c ∧ c.isDefault = true) ∨
      ∃ d, catalog.Flagged d ∧ change.Spares d.id ∧ c = change.onSpared d := by
  cases change with
  | upsert e =>
      rw [apply, flagged_upsert_iff]
      constructor
      · rintro (⟨rfl, hflag⟩ | ⟨he, hid, hflag⟩)
        · exact .inl ⟨rfl, hflag⟩
        · exact .inr ⟨c, hflag, ⟨he, hid⟩, rfl⟩
      · rintro (⟨heq, hflag⟩ | ⟨_, hflag, ⟨he, hid⟩, rfl⟩)
        · exact .inl ⟨(Change.upsert.inj heq).symm, hflag⟩
        · exact .inr ⟨he, hid, hflag⟩
  | remove name =>
      rw [apply, flagged_remove_iff]
      constructor
      · rintro ⟨hid, hflag⟩
        exact .inr ⟨c, hflag, hid, rfl⟩
      · rintro (⟨heq, -⟩ | ⟨_, hflag, hid, rfl⟩)
        · simp at heq
        · exact ⟨hid, hflag⟩
  | record name outcome =>
      rw [apply, flagged_record_iff]
      simp [Change.Spares]

/-! ## The flag after a history -/

theorem lastDefault_nil : ¬LastDefault [] c := by
  rintro ⟨before, saved, behind, h, -⟩
  simp at h

theorem keptThrough_concat (behind : List Change) (change : Change) (c : Connection) :
    keptThrough (behind ++ [change]) c = change.onSpared (keptThrough behind c) :=
  List.foldl_concat _ _ _ _

theorem id_keptThrough (behind : List Change) (c : Connection) : (keptThrough behind c).id = c.id := by
  induction behind using List.reverseRecOn with
  | nil => rfl
  | append_singleton behind change ih => rw [keptThrough_concat, Change.id_onSpared, ih]

theorem lastDefault_concat_iff : LastDefault (history ++ [change]) c ↔
    (change = .upsert c ∧ c.isDefault = true) ∨
      ∃ d, LastDefault history d ∧ change.Spares d.id ∧ c = change.onSpared d := by
  constructor
  · rintro ⟨before, saved, behind, h, hflag, hspares, rfl⟩
    rcases List.eq_nil_or_concat' behind with rfl | ⟨behind, last, rfl⟩
    · obtain ⟨-, hlast⟩ := List.append_inj' h rfl
      exact .inl ⟨List.singleton_inj.1 hlast, hflag⟩
    · rw [← List.cons_append, ← List.append_assoc] at h
      obtain ⟨rfl, hlast⟩ := List.append_inj' h rfl
      obtain rfl := List.singleton_inj.1 hlast
      have hbefore : ∀ e ∈ behind, e.Spares saved.id := fun e he => hspares e (by simp [he])
      refine .inr ⟨keptThrough behind saved, ⟨before, saved, behind, rfl, hflag, hbefore, rfl⟩, ?_, ?_⟩
      · rw [id_keptThrough]
        exact hspares change (by simp)
      · exact keptThrough_concat behind change saved
  · rintro (⟨rfl, hflag⟩ | ⟨_, ⟨before, saved, behind, rfl, hflag, hspares, rfl⟩, hlast, rfl⟩)
    · exact ⟨history, c, [], rfl, hflag, by simp, rfl⟩
    · rw [id_keptThrough] at hlast
      refine ⟨before, saved, behind ++ [change], by simp, hflag, ?_, (keptThrough_concat _ _ _).symm⟩
      intro e he
      rcases List.mem_append.1 he with he | he
      · exact hspares e he
      · obtain rfl := List.mem_singleton.1 he
        exact hlast

theorem after_concat (catalog : Catalog) (history : List Change) (change : Change) :
    catalog.after (history ++ [change]) = (catalog.after history).apply change := by
  exact List.foldl_concat _ _ _ _

/-- The induction goes over the history from its end: what a change does to the flag is what it does to the last
default of the history. -/
theorem flagged_after_iff (history : List Change) (c : Connection) :
    (empty.after history).Flagged c ↔ LastDefault history c := by
  induction history using List.reverseRecOn generalizing c with
  | nil =>
      constructor
      · rintro ⟨h, -⟩
        exact absurd h (by simp [after, empty, get?, Dictionary.get?, Dictionary.empty])
      · intro h
        exact absurd h lastDefault_nil
  | append_singleton history change ih =>
      rw [after_concat, flagged_apply_iff, lastDefault_concat_iff]
      simp only [ih]

theorem LastDefault.unique (h : LastDefault history c) (h' : LastDefault history d) : c = d := by
  induction history using List.reverseRecOn generalizing c d with
  | nil => exact absurd h lastDefault_nil
  | append_singleton history change ih =>
      rcases lastDefault_concat_iff.1 h with ⟨heq, hflag⟩ | ⟨e, he, hspares, rfl⟩ <;>
        rcases lastDefault_concat_iff.1 h' with ⟨heq', hflag'⟩ | ⟨e', he', hspares', rfl⟩
      · exact Change.upsert.inj (heq ▸ heq')
      · rw [heq] at hspares'
        exact absurd hspares'.1 (by simp [hflag])
      · rw [heq'] at hspares
        exact absurd hspares.1 (by simp [hflag'])
      · rw [ih he he']

theorem Keyed.apply (h : catalog.Keyed) (change : Change) : (catalog.apply change).Keyed := by
  intro id c hc
  cases change with
  | upsert d => exact h.upsert d id c hc
  | remove name => exact h id c (has_remove hc)
  | record name outcome =>
      obtain ⟨d, hd, hlike⟩ := has_record hc
      exact hlike.id.trans (h id d hd)

theorem Keyed.after (h : catalog.Keyed) (history : List Change) : (catalog.after history).Keyed :=
  List.foldlRecOn history Catalog.apply h fun _ h change _ => h.apply change

theorem Keyed.flagged_iff (h : catalog.Keyed) :
    catalog.Flagged c ↔ ∃ id, catalog.Has id c ∧ c.isDefault = true := by
  constructor
  · rintro ⟨hc, hflag⟩
    exact ⟨c.id, get?_eq_some_iff.1 hc, hflag⟩
  · rintro ⟨id, hc, hflag⟩
    obtain rfl := h id c hc
    exact ⟨get?_eq_some_iff.2 hc, hflag⟩

/-! ## The search -/

/-- The search for the default connection, with the entries in some order. -/
def defaultAmong? (entries : List (String × Connection)) : Option Connection :=
  (entries.map Prod.snd).find? fun c => c.isDefault && c.isActive

theorem default?_eq (catalog : Catalog) : catalog.default? = defaultAmong? catalog.connections.entries := rfl

theorem find?_eq_some_iff_of_unique {α : Type} {p : α → Bool} {items : List α} {a : α}
    (hunique : ∀ b ∈ items, p b = true → p a = true → b = a) :
    items.find? p = some a ↔ a ∈ items ∧ p a = true := by
  constructor
  · intro h
    exact ⟨List.mem_of_find?_eq_some h, List.find?_some h⟩
  · rintro ⟨ha, hp⟩
    obtain ⟨b, hb⟩ := Option.isSome_iff_exists.1 (List.find?_isSome.2 ⟨a, ha, hp⟩)
    rw [hb, hunique b (List.mem_of_find?_eq_some hb) (List.find?_some hb) hp]

theorem defaultAmong?_eq_some_iff {entries : List (String × Connection)}
    (hperm : entries.Perm catalog.connections.entries)
    (hunique : ∀ id id' c d, catalog.Has id c → catalog.Has id' d → c.isDefault = true → d.isDefault = true → c = d) :
    defaultAmong? entries = some c ↔ (∃ id, catalog.Has id c ∧ c.isDefault = true) ∧ c.isActive = true := by
  have hmem (d : Connection) : d ∈ entries.map Prod.snd ↔ ∃ id, catalog.Has id d := by
    simp [Has, hperm.mem_iff]
  rw [defaultAmong?]
  by_cases hc : ∃ id, catalog.Has id c
  · rw [find?_eq_some_iff_of_unique, hmem]
    · simp [hc]
    · intro b hb hpb hpc
      obtain ⟨id, hb⟩ := (hmem b).1 hb
      obtain ⟨id', hc⟩ := hc
      simp only [Bool.and_eq_true] at hpb hpc
      exact hunique id id' b c hb hc hpb.1 hpc.1
  · constructor
    · intro h
      exact absurd ((hmem c).1 (List.mem_of_find?_eq_some h)) hc
    · rintro ⟨⟨id, hid, -⟩, -⟩
      exact absurd ⟨id, hid⟩ hc

theorem ofConnections_after (connections : List Connection) (history : List Change) :
    (ofConnections connections).after history = empty.after (connections.map .upsert ++ history) := by
  rw [after, after, List.foldl_append, List.foldl_map]
  rfl

/-- After any history one connection at most has the default flag, and it is the last one that the history saved with
it, spared by all that came after. The search finds it exactly if it is active, in whatever order it goes through
the entries. A removal and a test leave all other connections alone, and a test leaves all of a connection but its
status, the time and the error. -/
theorem default_of_history (connections : List Connection) (changes : List Change) :
    let catalog := (ofConnections connections).after changes
    let history := connections.map Change.upsert ++ changes
    (∀ id id' c d, catalog.Has id c → catalog.Has id' d → c.isDefault = true → d.isDefault = true →
      id = id' ∧ c = d) ∧
    (∀ c, (∃ id, catalog.Has id c ∧ c.isDefault = true) ↔ LastDefault history c) ∧
    (∀ c, catalog.default? = some c ↔ LastDefault history c ∧ c.isActive = true) ∧
    (∀ entries, entries.Perm catalog.connections.entries → defaultAmong? entries = catalog.default?) ∧
    (∀ id, (catalog.remove id).get? id = none ∧
      ∀ other, other ≠ id → (catalog.remove id).get? other = catalog.get? other) ∧
    (∀ id outcome,
      (catalog.record id outcome).get? id = (catalog.get? id).map (fun c =>
        { c with status := outcome.status, testedAt := some outcome.testedAt, lastError := outcome.error }) ∧
      ∀ other, other ≠ id → (catalog.record id outcome).get? other = catalog.get? other) := by
  intro catalog history
  have hkeyed : catalog.Keyed := (keyed_ofConnections connections).after changes
  have hflagged (c : Connection) : (∃ id, catalog.Has id c ∧ c.isDefault = true) ↔ LastDefault history c := by
    rw [← hkeyed.flagged_iff, ← flagged_after_iff, ← ofConnections_after]
  have hunique (id id' : String) (c d : Connection) (hc : catalog.Has id c) (hd : catalog.Has id' d)
      (hflag : c.isDefault = true) (hflag' : d.isDefault = true) : c = d :=
    ((hflagged c).1 ⟨id, hc, hflag⟩).unique ((hflagged d).1 ⟨id', hd, hflag'⟩)
  have hamong (entries : List (String × Connection)) (hperm : entries.Perm catalog.connections.entries)
      (c : Connection) : defaultAmong? entries = some c ↔ LastDefault history c ∧ c.isActive = true := by
    rw [defaultAmong?_eq_some_iff hperm hunique, hflagged]
  have hdefault := hamong catalog.connections.entries (List.Perm.refl _)
  rw [← default?_eq] at hdefault
  refine ⟨?_, hflagged, hdefault, ?_, ?_, ?_⟩
  · intro id id' c d hc hd hflag hflag'
    obtain rfl := hunique id id' c d hc hd hflag hflag'
    exact ⟨(hkeyed id c hc).symm.trans (hkeyed id' c hd), rfl⟩
  · intro entries hperm
    exact Option.ext fun c => (hamong entries hperm c).trans (hdefault c).symm
  · intro id
    exact ⟨by rw [get?_remove, if_pos rfl], fun other hother => by rw [get?_remove, if_neg hother]⟩
  · intro id outcome
    exact ⟨by rw [get?_record, if_pos rfl]; rfl, fun other hother => by rw [get?_record, if_neg hother]⟩

end SemanticLayer.Catalog
