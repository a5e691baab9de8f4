import AgentDb.Introspect.CatalogV2

/-!
# What a catalog without schemas shows

SQLite and MySQL are introspected one schema at a time, and the tables they return have none. A
snapshot knows the table that a foreign key refers to by schema and name (`Table.refersTo`), so a
foreign key into another schema must say so, or it is taken for one to a table of this catalog.
-/

namespace AgentDb
namespace Introspect

open Protocol Sorting

/-- The snapshot of a table has a foreign key to another table of the catalog. -/
def Table.refersTo (t u : Table) : Prop :=
  ∃ constraint ∈ (tableToRelation t).constraints, ∃ object,
    constraint.referencedRelation = some object ∧
      object.namespace_ = (tableToRelation u).object.namespace_ ∧
      object.name = (tableToRelation u).object.name

theorem Table.refersTo_iff {t u : Table} : t.refersTo u ↔
    ∃ f ∈ t.foreignKeys, f.referencesSchema = u.schema ∧ f.referencesTable = u.name := by
  have hperm := sortBy_perm foreignKeyKey t.foreignKeys
  constructor
  · rintro ⟨constraint, hmem, object, hobject, hnamespace, hname⟩
    rcases List.mem_append.1 hmem with hmem | hmem
    · split at hmem
      · exact absurd hmem List.not_mem_nil
      · rw [List.mem_singleton.1 hmem] at hobject
        cases hobject
    · obtain ⟨i, hi, rfl⟩ := List.mem_mapIdx.1 hmem
      cases hobject
      exact ⟨_, hperm.subset (List.getElem_mem hi), hnamespace, hname⟩
  · rintro ⟨f, hf, hschema, hname⟩
    obtain ⟨i, hi, heq⟩ := List.mem_iff_getElem.1 (hperm.symm.subset hf)
    refine ⟨foreignConstraint t i f, List.mem_append_right _ ?_, _, rfl, hschema, hname⟩
    exact List.mem_mapIdx.2 ⟨i, hi, by rw [heq]⟩

/-- The tables show their sources: each once, nothing else, and no foreign key is attributed to a
table it is not one to. -/
structure Shown {σ : Type} (sources : List σ) (shows : σ → Table → Prop)
    (refers : σ → String → Prop) (tables : List Table) : Prop where
  once : (tables.map Table.name).Nodup
  all : ∀ s ∈ sources, ∃ t ∈ tables, shows s t
  only : ∀ t ∈ tables, ∃ s ∈ sources, shows s t
  attributed : ∀ t ∈ tables, ∀ u ∈ tables, t.refersTo u → ∃ s ∈ sources, shows s t ∧ refers s u.name

/-- Entries that are made of pairs in two ways, of which one does not depend on some of the pairs:
they are the same up to order only if the other does not either. -/
theorem eq_of_map_perm {α β γ : Type} {l : List α} {f g : α → β} {t : β → γ} {k : γ}
    {p : α → Bool} (h : (l.map f).Perm (l.map g)) (hsame : ∀ a ∈ l, p a = false → f a = g a)
    (hf : ∀ a ∈ l, p a = true → t (f a) = k) : ∀ a ∈ l, p a = true → t (g a) = k := by
  have hsplit := (List.filter_append_perm p l).symm
  have hperm : ((l.filter p).map f ++ (l.filter fun a => !p a).map f).Perm
      ((l.filter p).map g ++ (l.filter fun a => !p a).map g) := by
    rw [← List.map_append, ← List.map_append]
    exact ((hsplit.map f).symm.trans h).trans (hsplit.map g)
  have hrest : (l.filter fun a => !p a).map f = (l.filter fun a => !p a).map g := by
    refine List.map_congr_left fun a ha => ?_
    obtain ⟨hmem, hp⟩ := List.mem_filter.1 ha
    exact hsame a hmem (by simpa using hp)
  rw [hrest, List.perm_append_right_iff] at hperm
  intro a ha hp
  obtain ⟨b, hb, heq⟩ := List.mem_map.1
    (hperm.symm.subset (List.mem_map_of_mem (List.mem_filter.2 ⟨ha, hp⟩)))
  obtain ⟨hb, hpb⟩ := List.mem_filter.1 hb
  rw [← heq, hf b hb hpb]

end Introspect
end AgentDb
