import Mathlib.Data.List.Forall2
import Mathlib.Data.Option.Basic
import SemanticLayer.Document
import SemanticLayer.Proofs.Dictionary
import SemanticLayer.Proofs.ResultSet
/-!
What decoding finds in data: the fields of a structure under their names or at their places, and the entries of a
map, of which the last one counts where a name is repeated.
-/
namespace SemanticLayer

theorem mapM_eq_some_iff {α β : Type} {f : α → Option β} {items : List α} {results : List β} :
    items.mapM f = some results ↔ List.Forall₂ (fun a b => f a = some b) items results := by
  induction items generalizing results with
  | nil => simp [eq_comm]
  | cons a items ih =>
      rw [List.mapM_cons, Option.bind_eq_bind, Option.bind_eq_some_iff]
      constructor
      · rintro ⟨b, hb, h⟩
        obtain ⟨more, hmore, heq⟩ := Option.bind_eq_some_iff.1 h
        obtain rfl := Option.some.inj heq
        exact .cons hb (ih.1 hmore)
      · rintro (_ | ⟨hb, hmore⟩)
        exact ⟨_, hb, by rw [ih.2 hmore]; rfl⟩

namespace Document

variable {α : Type} {d e : Document} {f : Fields} {names : List String} {name : String} {value default : α}
  {decode : Document → Option α} {ms : List (String × Document)} {r : Record}

/-! ## Fields -/

/-- What data gives for one of the names of a structure: the member of that name, or in a list the item at the place
of the name. -/
def given? (names : List String) (name : String) (d : Document) : Option Document :=
  match d.mapping? with
  | some ms => ms.lookup (some name)
  | none => d.list?.bind fun xs => xs[names.idxOf name]?

theorem named?_eq_some_iff : d.named? = some ms ↔ d.mapping? = some (ms.map fun m => (some m.1, m.2)) := by
  unfold named?
  rw [Option.bind_eq_some_iff]
  have hmapM (all : List (Option String × Document)) :
      (all.mapM fun m => m.1.map (·, m.2)) = some ms ↔ all = ms.map fun m => (some m.1, m.2) := by
    rw [mapM_eq_some_iff]
    constructor
    · intro h
      induction h with
      | nil => rfl
      | @cons m n all ms hmn _ ih =>
          obtain ⟨key, hkey, rfl⟩ := Option.map_eq_some_iff.1 hmn
          rw [ih, List.map_cons, ← hkey]
    · rintro rfl
      rw [List.forall₂_map_left_iff]
      exact List.forall₂_same.2 fun m _ => rfl
  simp [hmapM]

theorem lookup_zip (hname : name ∈ names) (xs : List Document) :
    (names.zip xs).lookup name = xs[names.idxOf name]? := by
  induction names generalizing xs with
  | nil => simp at hname
  | cons n names ih =>
      cases xs with
      | nil => simp
      | cons x xs =>
          rw [List.zip_cons_cons, List.lookup_cons]
          by_cases hn : name = n
          · simp [hn]
          · rw [beq_false_of_ne hn, List.idxOf_cons_ne _ (Ne.symm hn), List.getElem?_cons_succ]
            exact ih (List.mem_of_ne_of_mem hn hname) xs

/-- The fields that are taken are those that the data gives. -/
theorem lookup_given (h : d.fields? names = some f) (hname : name ∈ names) :
    f.given.lookup name = d.given? names name := by
  unfold fields? at h
  unfold given?
  cases hms : d.mapping? with
  | some ms =>
      rw [hms] at h
      obtain ⟨named, hnamed, hf⟩ := Option.bind_eq_some_iff.1 h
      rw [named?_eq_some_iff, hms] at hnamed
      obtain rfl := Option.some.inj hnamed
      obtain ⟨-, hfields⟩ := Option.ite_none_right_eq_some.1 hf
      obtain rfl := Option.some.inj hfields
      have hmap := lookup_map (Option.some_injective String) (fun _ d => d) named name
      dsimp only
      rw [lookup_filter names.contains named name, if_pos (List.contains_iff_mem.2 hname), hmap, Option.map_id']
  | none =>
      rw [hms] at h
      obtain ⟨xs, hxs, hf⟩ := Option.bind_eq_some_iff.1 h
      obtain ⟨-, hfields⟩ := Option.ite_none_left_eq_some.1 hf
      obtain rfl := Option.some.inj hfields
      dsimp only
      rw [hxs]
      exact lookup_zip hname xs

theorem orElse_eq (h : d.fields? names = some f) (hname : name ∈ names) :
    f.orElse name default decode = ((d.given? names name).map decode).getD (some default) := by
  rw [Fields.orElse, lookup_given h hname]
  cases d.given? names name <;> rfl

theorem orElse_eq_some (h : d.fields? names = some f) (hname : name ∈ names)
    (hvalue : f.orElse name default decode = some value) :
    value = ((d.given? names name).bind decode).getD default := by
  rw [orElse_eq h hname] at hvalue
  cases hgiven : d.given? names name with
  | none =>
      rw [hgiven] at hvalue
      exact (Option.some.inj hvalue).symm
  | some e =>
      rw [hgiven, Option.map_some, Option.getD_some] at hvalue
      rw [Option.bind_some, hvalue, Option.getD_some]

/-! ## Maps -/

/-- What a map gives for a name; of repeated members the last one counts. -/
def under? (name : String) (d : Document) : Option Document :=
  d.named?.bind fun ms => ms.reverse.lookup name

theorem dictionaryOf?_eq_some_iff {dictionary : Dictionary α} : dictionaryOf? decode d = some dictionary ↔
    ∃ ms entries, d.named? = some ms ∧
      List.Forall₂ (fun m e => (decode m.2).map (m.1, ·) = some e) ms entries ∧ dictionary = .ofList entries := by
  unfold dictionaryOf?
  simp only [Option.bind_eq_bind, Option.bind_eq_some_iff, mapM_eq_some_iff, Option.pure_def, Option.some.injEq]
  constructor
  · rintro ⟨ms, hms, entries, hentries, rfl⟩
    exact ⟨ms, entries, hms, hentries, rfl⟩
  · rintro ⟨ms, entries, hms, hentries, rfl⟩
    exact ⟨ms, hms, entries, hentries, rfl⟩

theorem lookup_decoded {entries : List (String × α)}
    (h : List.Forall₂ (fun m e => (decode m.2).map (m.1, ·) = some e) ms entries) (name : String) :
    (ms.lookup name).map decode = (entries.lookup name).map some := by
  induction h with
  | nil => rfl
  | @cons m e ms entries hme _ ih =>
      obtain ⟨value, hvalue, rfl⟩ := Option.map_eq_some_iff.1 hme
      rw [List.lookup_cons, List.lookup_cons]
      split
      · rw [Option.map_some, Option.map_some, hvalue]
      · exact ih

/-- Every entry of a map is decoded. -/
theorem map_under? {dictionary : Dictionary α} (h : dictionaryOf? decode d = some dictionary) (name : String) :
    (d.under? name).map decode = (dictionary.get? name).map some := by
  obtain ⟨ms, entries, hms, hentries, rfl⟩ := dictionaryOf?_eq_some_iff.1 h
  rw [under?, hms, Dictionary.get?_ofList]
  exact lookup_decoded (List.forall₂_reverse_iff.2 hentries) name

/-! ## Objects of JSON -/

theorem given?_obj (names : List String) (r : Record) (name : String) :
    (json (.obj r)).given? names name = (r.get? name).map json := by
  exact lookup_map (Option.some_injective String) (fun _ value => json value) r name

/-- The fields of an object are its members. -/
theorem fields?_obj (names : List String) (h : r.keys.Nodup) :
    ∃ f, (json (.obj r)).fields? names = some f ∧ ∀ name ∈ names, f.given.lookup name = (r.get? name).map json := by
  have hnamed : (json (.obj r)).named? = some (r.map fun m => (m.1, json m.2)) := by
    rw [named?_eq_some_iff, List.map_map]
    rfl
  have hmapping : (json (.obj r)).mapping? = some (r.map fun m => (some m.1, json m.2)) := rfl
  have hknown : (((r.map fun m => (m.1, json m.2)).filter fun m => names.contains m.1).map Prod.fst).Nodup := by
    refine (List.filter_sublist.map Prod.fst).nodup ?_
    rw [List.map_map]
    exact h
  have hfields : (json (.obj r)).fields? names =
      some ⟨(r.map fun m => (m.1, json m.2)).filter fun m => names.contains m.1, false⟩ := by
    rw [fields?, hmapping, hnamed]
    exact if_pos hknown
  exact ⟨_, hfields, fun name hname => by rw [lookup_given hfields hname, given?_obj]⟩

end Document

end SemanticLayer
