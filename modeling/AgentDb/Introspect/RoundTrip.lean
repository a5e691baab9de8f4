import AgentDb.Introspect.CatalogV2

/-!
# What a stored catalog shows

A catalog that is stored and read back is the same one in another order: the tables, the objects,
the foreign keys and the indexes are moved, the columns stay where they are. Two catalogs have one
fingerprint exactly when they are the same in that sense, row estimates apart.

The columns stay because they are numbered. The numbers are those of a `u32` and stop at the
greatest one, so this holds of tables with fewer than `2 ^ 32` columns; `wide` is a table with
that many, whose last two columns change places.
-/

namespace AgentDb
namespace Introspect

open Protocol Sorting

/-! ### The same catalog -/

/-- The same table in another order: the columns and the columns of an index keep theirs. -/
structure SameTableSchema (a b : Table) : Prop where
  schema : a.schema = b.schema
  name : a.name = b.name
  kind : a.kind = b.kind
  columns : a.columns = b.columns
  foreignKeys : a.foreignKeys.Perm b.foreignKeys
  indexes : a.indexes.Perm b.indexes

/-- The same table in another order, with its row estimate. -/
structure SameTable (a b : Table) : Prop extends SameTableSchema a b where
  rowEstimate : a.rowEstimate = b.rowEstimate

/-- The same tables, as far as `Same` tells, and the same objects in another order. -/
structure SameUpTo (Same : Table → Table → Prop) (a b : Catalog) : Prop where
  tables : ∃ l, a.tables.Perm l ∧ List.Forall₂ Same l b.tables
  objects : a.objects.Perm b.objects

/-- The same catalog in another order. -/
abbrev SameCatalog : Catalog → Catalog → Prop := SameUpTo SameTable

/-- The same catalog in another order, row estimates apart. -/
abbrev SameSchema : Catalog → Catalog → Prop := SameUpTo SameTableSchema

theorem SameTableSchema.symm {a b : Table} (h : SameTableSchema a b) : SameTableSchema b a :=
  ⟨h.schema.symm, h.name.symm, h.kind.symm, h.columns.symm, h.foreignKeys.symm, h.indexes.symm⟩

theorem SameTableSchema.trans {a b c : Table} (h : SameTableSchema a b)
    (h' : SameTableSchema b c) : SameTableSchema a c :=
  ⟨h.schema.trans h'.schema, h.name.trans h'.name, h.kind.trans h'.kind,
    h.columns.trans h'.columns, h.foreignKeys.trans h'.foreignKeys, h.indexes.trans h'.indexes⟩

/-- A table as introspection returns it. -/
structure Introspected (t : Table) : Prop where
  kind : t.kind = "table" ∨ t.kind = "view"
  distinct : (t.columns.map (·.name)).Nodup

/-- The columns of a table are few enough to be numbered. -/
def Numbered (t : Table) : Prop := t.columns.length < 2 ^ 32

theorem foreignKeyKey_injective : Function.Injective foreignKeyKey := by
  intro a b h
  cases a
  cases b
  simp only [foreignKeyKey, EmbeddingLike.apply_eq_iff_eq, Prod.mk.injEq,
    textKey_injective.eq_iff] at h
  simp [h]

/-! ### One table there and back -/

section Table

variable {t : Table}

/-- The columns of the primary key. -/
def primaryColumns (t : Table) : List String := (t.columns.filter (·.pk)).map (·.name)

theorem constraints_primary (t : Table) (name : String) :
    name ∈ ((tableToRelation t).constraints.filter (·.kind = .primary)).flatMap (·.columns) ↔
      name ∈ primaryColumns t := by
  have hforeign : ∀ l : List ForeignKey,
      (l.mapIdx (foreignConstraint t)).filter (·.kind = .primary) = [] := by
    intro l
    refine List.filter_eq_nil_iff.2 fun constraint h => ?_
    obtain ⟨i, hi, rfl⟩ := List.mem_mapIdx.1 h
    simp [foreignConstraint]
  rw [tableToRelation, List.filter_append, hforeign, List.append_nil, ← primaryColumns]
  by_cases hempty : primaryColumns t = []
  · rw [if_pos hempty, hempty]
    simp
  · rw [if_neg hempty]
    simp [primaryConstraint]

theorem constraints_foreign (t : Table) :
    ((tableToRelation t).constraints.filter (·.kind = .foreign)).flatMap constraintForeignKeys =
      sortBy foreignKeyKey t.foreignKeys := by
  have hprimary : ∀ columns, (if primaryColumns t = [] then []
      else [primaryConstraint t columns]).filter (·.kind = .foreign) = [] := by
    intro columns
    split
    · rfl
    · simp [primaryConstraint]
  have hforeign : ∀ l : List ForeignKey, (l.mapIdx (foreignConstraint t)).filter
      (·.kind = .foreign) = l.mapIdx (foreignConstraint t) := by
    intro l
    refine List.filter_eq_self.2 fun constraint h => ?_
    obtain ⟨i, hi, rfl⟩ := List.mem_mapIdx.1 h
    simp [foreignConstraint]
  have hback : ∀ l : List ForeignKey,
      (l.mapIdx (foreignConstraint t)).map constraintForeignKeys = l.map ([·]) := by
    intro l
    refine List.ext_getElem? fun i => ?_
    rw [List.getElem?_map, List.getElem?_map, List.getElem?_mapIdx]
    cases l[i]? <;> rfl
  rw [tableToRelation, List.filter_append, ← primaryColumns, hprimary, hforeign, List.nil_append,
    List.flatMap_def, hback, ← List.flatMap_def, List.flatMap_singleton']

/-- Numbered columns are in their order already. -/
theorem sortBy_columns (hnumbered : Numbered t) :
    sortBy columnKey (t.columns.mapIdx toColumn) = t.columns.mapIdx toColumn := by
  refine sortBy_of_pairwise (List.pairwise_iff_getElem.2 fun i j hi hj hij => ?_)
  rw [List.length_mapIdx] at hj
  have hnumbers : (toColumn i t.columns[i]).ordinal < (toColumn j t.columns[j]).ordinal := by
    unfold Numbered at hnumbered
    simp only [toColumn]
    omega
  rw [List.getElem_mapIdx, List.getElem_mapIdx]
  exact (Prod.Lex.toLex_lt_toLex.2 (.inl hnumbers)).le

/-- A column is in the primary key when its name is, if no other one has its name. -/
theorem mem_primaryColumns (hdistinct : (t.columns.map (·.name)).Nodup) {column : Column}
    (hcolumn : column ∈ t.columns) : column.name ∈ primaryColumns t ↔ column.pk = true := by
  rw [primaryColumns, List.mem_map]
  constructor
  · rintro ⟨other, hother, hname⟩
    obtain ⟨hmem, hpk⟩ := List.mem_filter.1 hother
    rw [← List.inj_on_of_nodup_map hdistinct hmem hcolumn hname]
    exact hpk
  · exact fun hpk => ⟨column, List.mem_filter.2 ⟨hcolumn, hpk⟩, rfl⟩

theorem objectKindName_objectKind {kind : String} (h : kind = "table" ∨ kind = "view") :
    objectKindName (objectKind kind) = kind := by
  obtain rfl | rfl := h <;> decide

/-- **A table that is stored is read back as it was.** -/
theorem sameTable_relationToTable (ht : Introspected t) (hnumbered : Numbered t) :
    SameTable (relationToTable (canonicalizeRelation (tableToRelation t))) t := by
  have hperm := sortBy_perm constraintKey (tableToRelation t).constraints
  refine ⟨⟨rfl, rfl, objectKindName_objectKind ht.kind, ?_, ?_, ?_⟩, rfl⟩
  · have hpk : ∀ name, name ∈ ((sortBy constraintKey (tableToRelation t).constraints).filter
        (·.kind = .primary)).flatMap (·.columns) ↔ name ∈ primaryColumns t := fun name =>
      ((hperm.filter _).flatMap_right _).mem_iff.trans (constraints_primary t name)
    simp only [relationToTable, canonicalizeRelation, hpk]
    rw [tableToRelation, sortBy_columns hnumbered]
    refine List.ext_getElem? fun i => ?_
    rw [List.getElem?_map, List.getElem?_mapIdx, Option.map_map]
    cases hi : t.columns[i]? with
    | none => rfl
    | some column =>
      have hmem := mem_primaryColumns ht.distinct (List.mem_of_getElem? hi)
      simp [toColumn, hmem]
  · calc ((sortBy constraintKey (tableToRelation t).constraints).filter
            (·.kind = .foreign)).flatMap constraintForeignKeys
        |>.Perm (((tableToRelation t).constraints.filter
            (·.kind = .foreign)).flatMap constraintForeignKeys) :=
          (hperm.filter _).flatMap_right _
      _ = sortBy foreignKeyKey t.foreignKeys := constraints_foreign t
      List.Perm _ t.foreignKeys := sortBy_perm _ _
  · have hback : (t.indexes.map toIndex).map (fun index : Protocol.Index =>
        (⟨index.name, index.keys.filterMap (·.column), index.unique⟩ : Index)) = t.indexes := by
      rw [List.map_map]
      refine (List.map_congr_left fun index _ => ?_).trans (List.map_id _)
      simp [toIndex, List.filterMap_map]
    have hindexes := (sortBy_perm indexKey (t.indexes.map toIndex)).map
      (fun index : Protocol.Index =>
        (⟨index.name, index.keys.filterMap (·.column), index.unique⟩ : Index))
    rwa [hback] at hindexes

/-- Without the row estimate a table is what the fingerprint covers of it. -/
theorem sameRelation_tableToRelation {t t' : Table} (ht : Introspected t) (ht' : Introspected t')
    (hnumbered : Numbered t) (hnumbered' : Numbered t') :
    SameRelation (tableToRelation t) (tableToRelation t') ↔ SameTableSchema t t' := by
  constructor
  · intro h
    have hpayload := payload_canonicalizeRelation.2 h
    have hback : ∀ r : Relation, SameTableSchema (relationToTable r)
        (relationToTable ((relationFingerprintPayload r).relation none)) := fun r =>
      ⟨rfl, rfl, rfl, rfl, .refl _, .refl _⟩
    have hleft := (sameTable_relationToTable ht hnumbered).symm.trans (hback _)
    have hright := (sameTable_relationToTable ht' hnumbered').symm.trans (hback _)
    rw [hpayload] at hleft
    exact hleft.trans hright.symm
  · intro h
    have hforeignKeys : sortBy foreignKeyKey t.foreignKeys = sortBy foreignKeyKey t'.foreignKeys :=
      (sortBy_eq_iff foreignKeyKey_injective).2 h.foreignKeys
    have hconstraints : (tableToRelation t).constraints = (tableToRelation t').constraints := by
      have hprimary : primaryConstraint t = primaryConstraint t' := by
        funext columns
        rw [primaryConstraint, primaryConstraint, h.name]
      have hforeign : foreignConstraint t = foreignConstraint t' := by
        funext index foreignKey
        rw [foreignConstraint, foreignConstraint, h.name]
      simp only [tableToRelation, h.columns, hforeignKeys, hprimary, hforeign]
    refine ⟨?_, rfl, rfl, .refl _, ?_, ?_, h.indexes.map _⟩
    · simp only [tableToRelation, h.schema, h.name, h.kind]
    · rw [tableToRelation, tableToRelation, h.columns]
    · rw [hconstraints]

end Table

/-! ### A whole catalog -/

theorem routineToObject_toRoutine (object : DatabaseObject) :
    routineToObject (toRoutine object) = object := by
  simp [routineToObject, toRoutine]

theorem otherToObject_toDatabaseObject (object : DatabaseObject) :
    otherToObject (toDatabaseObject object) = object := by
  simp [otherToObject, toDatabaseObject]

/-- The routines and the other objects of a snapshot are the objects of the catalog. -/
theorem objects_perm {objects : List DatabaseObject} {routines : List Routine}
    {others : List Protocol.DatabaseObject}
    (hroutines : routines.Perm ((objects.filter isRoutine).map toRoutine))
    (hothers : others.Perm
      ((objects.filter fun object => ¬ isRoutine object).map toDatabaseObject)) :
    (routines.map routineToObject ++ others.map otherToObject).Perm objects := by
  have hback := hroutines.map routineToObject
  have hback' := hothers.map otherToObject
  rw [List.map_map, funext routineToObject_toRoutine (f := routineToObject ∘ toRoutine) (g := id),
    List.map_id] at hback
  rw [List.map_map,
    funext otherToObject_toDatabaseObject (f := otherToObject ∘ toDatabaseObject) (g := id),
    List.map_id] at hback'
  refine (hback.append hback').trans ?_
  simpa using List.filter_append_perm isRoutine objects

/-- The schemas of a catalog do not depend on the order. -/
theorem schemas_eq {c c' : Catalog} (h : SameSchema c c') : schemas c = schemas c' := by
  obtain ⟨⟨l, hperm, hforall⟩, hobjects⟩ := h
  have htables : l.filterMap (·.schema) = c'.tables.filterMap (·.schema) := by
    have hmap : l.map (·.schema) = c'.tables.map (·.schema) :=
      map_eq_map_iff.2 (hforall.imp fun _ _ h => h.schema)
    have hid : ∀ m : List Table, m.filterMap (·.schema) = (m.map (·.schema)).filterMap id := by
      intro m
      rw [List.filterMap_map]
      rfl
    rw [hid, hid, hmap]
  rw [schemas, schemas, sortBy_eq_iff Function.injective_id, ← htables]
  exact ((hperm.filterMap _).append (hobjects.filterMap _)).dedup

/-- **The contents of two snapshots agree when the catalogs do.** -/
theorem sameContents_toContents {c c' : Catalog} (hc : ∀ t ∈ c.tables, Introspected t)
    (hc' : ∀ t ∈ c'.tables, Introspected t) (hnumbered : ∀ t ∈ c.tables, Numbered t)
    (hnumbered' : ∀ t ∈ c'.tables, Numbered t) :
    SameContents (toContents c) (toContents c') ↔ SameSchema c c' := by
  have hcode : (∃ l, (toContents c).relations.Perm l ∧
      List.Forall₂ SameRelation l (toContents c').relations) ↔
      ∃ l, c.tables.Perm l ∧ List.Forall₂ SameTableSchema l c'.tables := by
    rw [← payloads_canonical_relations, map_sortBy_eq_iff (objectKey_injective _ _) relationKey_eq,
      toContents, toContents, List.map_map, List.map_map, List.map_map, List.map_map,
      map_perm_map_iff]
    refine exists_congr fun l => and_congr_right fun hperm => ?_
    have hmem : ∀ t ∈ l, t ∈ c.tables := fun t ht => hperm.symm.subset ht
    have hagree : ∀ t ∈ l, ∀ t' ∈ c'.tables,
        (relationFingerprintPayload (canonicalizeRelation (tableToRelation t)) =
          relationFingerprintPayload (canonicalizeRelation (tableToRelation t')) ↔
        SameTableSchema t t') := fun t ht t' ht' =>
      payload_canonicalizeRelation.trans (sameRelation_tableToRelation (hc t (hmem t ht))
        (hc' t' ht') (hnumbered t (hmem t ht)) (hnumbered' t' ht'))
    simp only [List.forall₂_iff_get, Function.comp_apply]
    refine and_congr_right fun _ => forall₃_congr fun i hi hi' => ?_
    exact hagree _ (List.get_mem _ _) _ (List.get_mem _ _)
  constructor
  · intro h
    refine ⟨hcode.1 h.relations, ?_⟩
    exact (objects_perm (.refl _) (.refl _)).symm.trans (objects_perm h.routines h.otherObjects)
  · intro h
    refine ⟨?_, hcode.2 h.tables, ?_, ?_⟩
    · rw [toContents, toContents, schemas_eq h]
    · exact (h.objects.filter _).map _
    · exact (h.objects.filter _).map _

theorem engine_injective : Function.Injective engine := by
  intro a b h
  cases a <;> cases b <;> first | rfl | exact absurd h (by decide)

section Snapshot

variable {sha256 : List UInt8 → Vector UInt8 32} {now now' : DateTime}
  {profile profile' : Store.ConnectionProfile} {c c' : Catalog} {s s' : CatalogSnapshot}

theorem capture_of_toSnapshot (h : toSnapshot sha256 now profile c = .ok s) :
    CatalogSnapshot.capture sha256 profile.id (engine profile.engine) profile.database now
      (toContents c) = .ok s := by
  unfold toSnapshot at h
  cases hcapture : CatalogSnapshot.capture sha256 profile.id (engine profile.engine)
      profile.database now (toContents c) with
  | error e =>
    rw [hcapture] at h
    cases h
  | ok snapshot =>
    rw [hcapture] at h
    exact congrArg Except.ok (Except.ok.inj h)

/-- A catalog of a database with a name can be stored. -/
theorem exists_toSnapshot (sha256 : List UInt8 → Vector UInt8 32) (now : DateTime)
    (profile : Store.ConnectionProfile) (c : Catalog) (h : isBlank profile.database = false) :
    ∃ s, toSnapshot sha256 now profile c = .ok s := by
  unfold toSnapshot
  rw [CatalogSnapshot.capture_eq, if_neg (by simp [h])]
  exact ⟨_, rfl⟩

/-- **What is read back is what was stored.** -/
theorem sameCatalog_fromSnapshot (hc : ∀ t ∈ c.tables, Introspected t)
    (hnumbered : ∀ t ∈ c.tables, Numbered t) (h : toSnapshot sha256 now profile c = .ok s) :
    SameCatalog (fromSnapshot s) c := by
  obtain ⟨rfl, -⟩ := CatalogSnapshot.of_capture_eq_ok (capture_of_toSnapshot h)
  refine ⟨⟨_, (sortBy_perm _ _).map relationToTable, ?_⟩, ?_⟩
  · rw [toContents, List.map_map, List.map_map, List.forall₂_map_left_iff, List.forall₂_same]
    exact fun t ht => sameTable_relationToTable (hc t ht) (hnumbered t ht)
  · exact objects_perm (sortBy_perm _ _) (sortBy_perm _ _)

theorem fingerprint_eq_iff_sameSchema (hc : ∀ t ∈ c.tables, Introspected t)
    (hnumbered : ∀ t ∈ c.tables, Numbered t) (h : toSnapshot sha256 now profile c = .ok s)
    (hc' : ∀ t ∈ c'.tables, Introspected t) (hnumbered' : ∀ t ∈ c'.tables, Numbered t)
    (h' : toSnapshot sha256 now' profile' c' = .ok s')
    (hsha256 : Set.InjOn sha256
      {fingerprintText (engine profile.engine) (canonicalizeContents (toContents c)),
        fingerprintText (engine profile'.engine) (canonicalizeContents (toContents c'))}) :
    s.fingerprint = s'.fingerprint ↔ profile.engine = profile'.engine ∧ SameSchema c c' := by
  obtain ⟨rfl, -⟩ := CatalogSnapshot.of_capture_eq_ok (capture_of_toSnapshot h)
  obtain ⟨rfl, -⟩ := CatalogSnapshot.of_capture_eq_ok (capture_of_toSnapshot h')
  calc catalogFingerprint sha256 (engine profile.engine) (canonicalizeContents (toContents c)) =
        catalogFingerprint sha256 (engine profile'.engine) (canonicalizeContents (toContents c'))
      ↔ sha256 (fingerprintText (engine profile.engine) (canonicalizeContents (toContents c))) =
        sha256 (fingerprintText (engine profile'.engine) (canonicalizeContents (toContents c'))) :=
        catalogFingerprint_eq_iff
    _ ↔ fingerprintText (engine profile.engine) (canonicalizeContents (toContents c)) =
        fingerprintText (engine profile'.engine) (canonicalizeContents (toContents c')) :=
      hsha256.eq_iff (Set.mem_insert _ _) (Set.mem_insert_of_mem _ rfl)
    _ ↔ engine profile.engine = engine profile'.engine ∧
        SameContents (toContents c) (toContents c') := fingerprintText_canonical_eq_iff
    _ ↔ profile.engine = profile'.engine ∧ SameSchema c c' := by
      rw [engine_injective.eq_iff, sameContents_toContents hc hc' hnumbered hnumbered']

end Snapshot

/-- **A stored catalog is the catalog.** It is read back as it was, in another order, and its
fingerprint is that of the catalogs of the same schema on the same engine and of no others, unless
the hash confuses the two. -/
theorem toSnapshot_keeps (sha256 : List UInt8 → Vector UInt8 32) (now : DateTime)
    (profile : Store.ConnectionProfile) (c : Catalog) (hc : ∀ t ∈ c.tables, Introspected t)
    (hnumbered : ∀ t ∈ c.tables, Numbered t) (s : CatalogSnapshot)
    (h : toSnapshot sha256 now profile c = .ok s) :
    SameCatalog (fromSnapshot s) c ∧
      ∀ now' profile' c' s', (∀ t ∈ c'.tables, Introspected t) → (∀ t ∈ c'.tables, Numbered t) →
        toSnapshot sha256 now' profile' c' = .ok s' →
        Set.InjOn sha256
          {fingerprintText (engine profile.engine) (canonicalizeContents (toContents c)),
            fingerprintText (engine profile'.engine) (canonicalizeContents (toContents c'))} →
        (s.fingerprint = s'.fingerprint ↔
          profile.engine = profile'.engine ∧ SameSchema c c') := by
  refine ⟨sameCatalog_fromSnapshot hc hnumbered h, ?_⟩
  intro now' profile' c' s' hc' hnumbered' h' hsha256
  exact fingerprint_eq_iff_sameSchema hc hnumbered h hc' hnumbered' h' hsha256

/-- A profile with a database. -/
def sampleProfile : Store.ConnectionProfile :=
  ⟨.ofByte 1, "app", .postgres, .auto, none, "localhost", 5432, "app", "user", "disable",
    "\x7b\x7d", true, false, none, none, none, .local_, .local_⟩

/-- A table with a key and two references, a procedure and a trigger. -/
def sampleCatalog (foreignKeys : List ForeignKey) (rowEstimate : ℤ) : Catalog where
  tables := [⟨some "public", "events", "table", [⟨"id", "uuid", false, true⟩,
    ⟨"user_id", "uuid", true, false⟩], foreignKeys, [⟨"events_user", ["user_id"], false⟩],
    some rowEstimate⟩]
  objects := [⟨some "public", "rebuild", "procedure", some "(target text)", none⟩,
    ⟨some "public", "events_updated", "trigger", some "BEFORE UPDATE", some "events"⟩]

def sampleReference (table : String) : ForeignKey := ⟨"user_id", table, "id", some "public"⟩

/-- The references in another order and another row estimate do not change the fingerprint. -/
theorem toSnapshot_keeps_sample : ∃ s s',
    toSnapshot Sha256.sha256 (.ofDay 1) sampleProfile
      (sampleCatalog [sampleReference "users", sampleReference "accounts"] 3) = .ok s ∧
    toSnapshot Sha256.sha256 (.ofDay 2) sampleProfile
      (sampleCatalog [sampleReference "accounts", sampleReference "users"] 4) = .ok s' ∧
    SameCatalog (fromSnapshot s)
      (sampleCatalog [sampleReference "users", sampleReference "accounts"] 3) ∧
    s.fingerprint = s'.fingerprint := by
  have hintrospected : ∀ l n, ∀ t ∈ (sampleCatalog l n).tables, Introspected t := by
    intro l n
    refine List.forall_mem_singleton.2 ⟨.inl rfl, ?_⟩
    show ["id", "user_id"].Nodup
    decide
  have hnumbered : ∀ l n, ∀ t ∈ (sampleCatalog l n).tables, Numbered t := by
    intro l n
    refine List.forall_mem_singleton.2 ?_
    show 2 < 2 ^ 32
    decide
  have hsame : SameSchema (sampleCatalog [sampleReference "users", sampleReference "accounts"] 3)
      (sampleCatalog [sampleReference "accounts", sampleReference "users"] 4) := by
    refine ⟨⟨_, .refl _, .cons ?_ .nil⟩, .refl _⟩
    exact ⟨rfl, rfl, rfl, rfl, .swap _ _ _, .refl _⟩
  obtain ⟨s, hs⟩ := exists_toSnapshot Sha256.sha256 (.ofDay 1) sampleProfile
    (sampleCatalog [sampleReference "users", sampleReference "accounts"] 3) (by decide)
  obtain ⟨s', hs'⟩ := exists_toSnapshot Sha256.sha256 (.ofDay 2) sampleProfile
    (sampleCatalog [sampleReference "accounts", sampleReference "users"] 4) (by decide)
  obtain ⟨hback, hfingerprint⟩ := toSnapshot_keeps Sha256.sha256 (.ofDay 1) sampleProfile _
    (hintrospected _ _) (hnumbered _ _) s hs
  refine ⟨s, s', hs, hs', hback, (hfingerprint _ _ _ _ (hintrospected _ _) (hnumbered _ _) hs'
    ?_).2 ⟨rfl, hsame⟩⟩
  rw [fingerprintText_canonical_iff.2 ((sameContents_toContents (hintrospected _ _)
    (hintrospected _ _) (hnumbered _ _) (hnumbered _ _)).2 hsame), Set.pair_eq_singleton]
  exact Set.injOn_singleton _ _

/-! ### A table with too many columns -/

/-- Two columns with one number are ordered by their names. -/
theorem columns_ne_of_tie {t : Table} (hdistinct : (t.columns.map (·.name)).Nodup) {i j : ℕ}
    (hij : i < j) (hj : j < t.columns.length) (htie : 2 ^ 32 - 1 ≤ i + 1)
    (hname : t.columns[j].name < t.columns[i].name) :
    (relationToTable (canonicalizeRelation (tableToRelation t))).columns ≠ t.columns := by
  intro hkept
  obtain ⟨sorted, hsorted⟩ : ∃ sorted, sorted = sortBy columnKey (t.columns.mapIdx toColumn) :=
    ⟨_, rfl⟩
  have hnames : sorted.map (·.name) = t.columns.map (·.name) := by
    rw [← hkept, hsorted, relationToTable, List.map_map]
    rfl
  -- What stands at a place of the sorted list has the name of the column there, so it is that one.
  have hplace : ∀ (k : ℕ) (hk : k < t.columns.length),
      sorted[k]? = some (toColumn k t.columns[k]) := by
    intro k hk
    have hname : (sorted.map (·.name))[k]? = some t.columns[k].name := by
      rw [hnames, List.getElem?_map, List.getElem?_eq_getElem hk, Option.map_some]
    rw [List.getElem?_map] at hname
    obtain ⟨column, hcolumn, hname⟩ := Option.map_eq_some_iff.1 hname
    have hmem : column ∈ t.columns.mapIdx toColumn := by
      refine (sortBy_perm columnKey _).subset ?_
      rw [← hsorted]
      exact List.mem_of_getElem? hcolumn
    obtain ⟨l, hl, rfl⟩ := List.mem_mapIdx.1 hmem
    have hsame : (t.columns.map (·.name))[l]? = (t.columns.map (·.name))[k]? := by
      rw [List.getElem?_map, List.getElem?_map, List.getElem?_eq_getElem hl,
        List.getElem?_eq_getElem hk, Option.map_some, Option.map_some, ← hname]
      rfl
    obtain rfl : l = k := (List.getElem?_inj (by simpa using hl) hdistinct).1 hsame
    exact hcolumn
  have horder : columnKey (toColumn i t.columns[i]) ≤ columnKey (toColumn j t.columns[j]) := by
    obtain ⟨hi, hati⟩ := List.getElem?_eq_some_iff.1 (hplace i (hij.trans hj))
    obtain ⟨hj, hatj⟩ := List.getElem?_eq_some_iff.1 (hplace j hj)
    have hpairwise := pairwise_sortBy columnKey (t.columns.mapIdx toColumn)
    rw [← hsorted] at hpairwise
    rw [← hati, ← hatj]
    exact List.pairwise_iff_getElem.1 hpairwise i j hi hj hij
  have hnumber : (toColumn i t.columns[i]).ordinal = (toColumn j t.columns[j]).ordinal :=
    (Nat.min_eq_right htie).trans (Nat.min_eq_right (htie.trans (by omega))).symm
  rw [columnKey, columnKey, hnumber, Prod.Lex.toLex_le_toLex, Prod.Lex.toLex_le_toLex] at horder
  rcases horder with hlt | ⟨-, hlt | ⟨heq, -⟩⟩
  · exact absurd hlt (lt_irrefl _)
  · exact absurd hlt hname.asymm
  · exact absurd heq hname.ne'

theorem columns_of_single {sha256 : List UInt8 → Vector UInt8 32} {now : DateTime}
    {profile : Store.ConnectionProfile} {t : Table} {s : CatalogSnapshot}
    (h : toSnapshot sha256 now profile ⟨[t], []⟩ = .ok s)
    (hsame : SameCatalog (fromSnapshot s) ⟨[t], []⟩) :
    (relationToTable (canonicalizeRelation (tableToRelation t))).columns = t.columns := by
  obtain ⟨rfl, -⟩ := CatalogSnapshot.of_capture_eq_ok (capture_of_toSnapshot h)
  obtain ⟨⟨l, hperm, hforall⟩, -⟩ := hsame
  have hrelations : sortBy relationKey [canonicalizeRelation (tableToRelation t)] =
      [canonicalizeRelation (tableToRelation t)] := List.perm_singleton.1 (sortBy_perm _ _)
  have htables : [relationToTable (canonicalizeRelation (tableToRelation t))].Perm l := by
    rw [← List.map_singleton (f := relationToTable), ← hrelations]
    exact hperm
  rw [List.perm_singleton.1 htables.symm] at hforall
  exact (List.forall₂_cons.1 hforall).1.columns

/-- A table of `n` columns, which are named by the numbers down to one. -/
def wide (n : ℕ) : Table where
  schema := none
  name := "wide"
  kind := "table"
  columns := (List.range n).map fun i =>
    ⟨String.ofList (TextCode.decimal (n - i)), "text", false, false⟩
  foreignKeys := []
  indexes := []
  rowEstimate := none

theorem introspected_wide (n : ℕ) : Introspected (wide n) := by
  refine ⟨.inl rfl, ?_⟩
  rw [wide, List.map_map]
  refine List.nodup_range.map_on fun i hi j hj h => ?_
  have hnumber := TextCode.decimal_injective (String.ofList_inj.1 h)
  rw [List.mem_range] at hi hj
  omega

/-- The last two columns of a table that is too wide change places. -/
theorem columns_wide_ne {n : ℕ} (hn : 2 ^ 32 ≤ n) :
    (relationToTable (canonicalizeRelation (tableToRelation (wide n)))).columns ≠
      (wide n).columns := by
  have hlength : (wide n).columns.length = n := by simp [wide]
  have hname : ∀ k, (hk : k < (wide n).columns.length) → (wide n).columns[k].name =
      String.ofList (TextCode.decimal (n - k)) := by
    intro k hk
    simp [wide]
  refine columns_ne_of_tie (introspected_wide n).distinct (i := n - 2) (j := n - 1) (by omega)
    (by omega) (by omega) ?_
  rw [hname, hname, show n - (n - 2) = 2 by omega, show n - (n - 1) = 1 by omega]
  decide +kernel

theorem toSnapshot_wide : ¬ ∀ (sha256 : List UInt8 → Vector UInt8 32) (now : DateTime)
    (profile : Store.ConnectionProfile) (c : Catalog), (∀ t ∈ c.tables, Introspected t) →
    ∀ s, toSnapshot sha256 now profile c = .ok s → SameCatalog (fromSnapshot s) c := by
  intro h
  obtain ⟨s, hs⟩ := exists_toSnapshot Sha256.sha256 (.ofDay 1) sampleProfile
    ⟨[wide (2 ^ 32)], []⟩ (by decide)
  exact columns_wide_ne le_rfl (columns_of_single hs (h _ _ _ _
    (List.forall_mem_singleton.2 (introspected_wide _)) s hs))

end Introspect
end AgentDb
