import SemanticLayer.Connection.Catalog
import SemanticLayer.Proofs.Dictionary
/-!
What changes in a catalog. Connections come in under their ids, and to one that stays nothing happens that matters to
those who connect.
-/
namespace SemanticLayer

/-- Whether two connections differ in flags and test results only. -/
structure Connection.Alike (c d : Connection) : Prop where
  id : c.id = d.id
  endpoint : c.endpoint = d.endpoint

namespace Catalog

variable {catalog : Catalog} {id : String} {c d : Connection} {outcome : TestOutcome}

/-- A connection is in a catalog, under a name. -/
def Has (catalog : Catalog) (id : String) (c : Connection) : Prop :=
  (id, c) ∈ catalog.connections.entries

theorem get?_eq_some_iff : catalog.get? id = some c ↔ catalog.Has id c :=
  Dictionary.get?_eq_some_iff

theorem has_map {f : String → Connection → Connection} (hf : ∀ id c, (f id c).Alike c)
    (h : Has ⟨catalog.connections.map f⟩ id c) : ∃ d, catalog.Has id d ∧ c.Alike d := by
  obtain ⟨entry, hentry, heq⟩ := List.mem_map.1 h
  obtain ⟨rfl, rfl⟩ := Prod.mk.inj heq
  exact ⟨entry.2, hentry, hf entry.1 entry.2⟩

theorem has_withoutDefault (h : catalog.withoutDefault.Has id c) : ∃ d, catalog.Has id d ∧ c.Alike d :=
  has_map (f := fun _ d => { d with isDefault := false }) (fun _ _ => ⟨rfl, rfl⟩) h

theorem has_upsert (h : (catalog.upsert d).Has id c) : (c = d ∧ id = d.id) ∨ ∃ d, catalog.Has id d ∧ c.Alike d := by
  rcases Dictionary.mem_place h with heq | hmem
  · obtain ⟨rfl, rfl⟩ := Prod.mk.inj heq
    exact .inl ⟨rfl, rfl⟩
  · right
    split at hmem
    · exact has_withoutDefault hmem
    · exact ⟨c, hmem, rfl, rfl⟩

theorem has_remove {name : String} (h : (catalog.remove name).Has id c) : catalog.Has id c :=
  List.mem_of_mem_filter h

theorem has_record {name : String} (h : (catalog.record name outcome).Has id c) :
    ∃ d, catalog.Has id d ∧ c.Alike d := by
  refine has_map (fun id c => ?_) h
  split <;> exact ⟨rfl, rfl⟩

/-- Connections are in a catalog under their ids. -/
def Keyed (catalog : Catalog) : Prop :=
  ∀ id c, catalog.Has id c → c.id = id

theorem keyed_empty : empty.Keyed := by
  intro id c h
  exact absurd h List.not_mem_nil

theorem Keyed.upsert (h : catalog.Keyed) (c : Connection) : (catalog.upsert c).Keyed := by
  intro id d hd
  rcases has_upsert hd with ⟨rfl, rfl⟩ | ⟨d', hd', hlike⟩
  · rfl
  · exact hlike.id.trans (h id d' hd')

theorem keyed_ofConnections (connections : List Connection) : (ofConnections connections).Keyed :=
  List.foldlRecOn connections Catalog.upsert keyed_empty fun _ h c _ => h.upsert c

end Catalog

end SemanticLayer
