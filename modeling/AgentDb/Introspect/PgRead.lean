import AgentDb.Introspect.Pg

/-!
# What `introspect/pg.rs` shows of a catalog

The rows of a relation are found again among the rows of a query by its schema and its name, which
are its own. `introspect_iff` says when the tables that are made of them show every relation of the
user: when each has a column, and no foreign key shares the name of a primary key next to it and a
column with its table.
-/

namespace AgentDb
namespace Introspect
namespace Pg

open QueryRows Sorting
open Services (eqIgnoreAsciiCase)

namespace PgCatalog

variable {cat : PgCatalog} {c c' : PgClass} {a : PgAttribute}

/-! ### Joins that find one row -/

theorem exists_namespacesOf (hcat : cat.WellFormed) (hc : c ∈ cat.classes) :
    ∃ n ∈ cat.namespaces, n.oid = c.relnamespace ∧ cat.namespacesOf c = [n] ∧
      cat.schema c = n.nspname := by
  obtain ⟨n, hn, hoid⟩ := hcat.namespaced c hc
  have hsingle : cat.namespacesOf c = [n] := by
    rw [namespacesOf, ← hoid]
    exact filter_key_eq hcat.namespaceOids hn
  exact ⟨n, hn, hoid, hsingle, by rw [schema, hsingle]; rfl⟩

/-- A join with the schema of a relation. -/
theorem flatMap_namespacesOf {β : Type} (hcat : cat.WellFormed) (hc : c ∈ cat.classes)
    (f : String → List β) :
    ((cat.namespacesOf c).flatMap fun n => f n.nspname) = f (cat.schema c) := by
  obtain ⟨n, -, -, hsingle, hschema⟩ := exists_namespacesOf hcat hc
  rw [hsingle, hschema, List.flatMap_singleton]

theorem classesOf_eq (hcat : cat.WellFormed) (hc : c ∈ cat.classes) : cat.classesOf c.oid = [c] :=
  filter_key_eq hcat.classOids hc

theorem relname_eq (hcat : cat.WellFormed) (hc : c ∈ cat.classes) :
    cat.relname c.oid = c.relname := by
  rw [relname, classesOf_eq hcat hc]
  rfl

theorem schemaOf_eq (hcat : cat.WellFormed) (hc : c ∈ cat.classes) :
    cat.schemaOf c.oid = cat.schema c := by
  rw [schemaOf, classesOf_eq hcat hc]
  rfl

theorem class_eq_of_oid (hcat : cat.WellFormed) (hc : c ∈ cat.classes) (hc' : c' ∈ cat.classes)
    (h : c.oid = c'.oid) : c = c' :=
  List.inj_on_of_nodup_map hcat.classOids hc hc' h

theorem attributesOf_eq (hcat : cat.WellFormed) (ha : a ∈ cat.attributes) :
    cat.attributesOf a.attrelid a.attnum = [a] := by
  rw [attributesOf, ← filter_key_eq hcat.attnums ha]
  refine List.filter_congr fun b _ => ?_
  simp only [Prod.mk.injEq]

theorem attname_eq (hcat : cat.WellFormed) (ha : a ∈ cat.attributes) :
    cat.attname a.attrelid a.attnum = a.attname := by
  rw [attname, attributesOf_eq hcat ha]
  rfl

/-! ### Relations by their names -/

/-- What a relation is found by. -/
def keyOf (cat : PgCatalog) (c : PgClass) : Option String × String :=
  (some (cat.schema c), c.relname)

theorem class_eq_of_key (hcat : cat.WellFormed) (hc : c ∈ cat.classes) (hc' : c' ∈ cat.classes)
    (h : cat.keyOf c = cat.keyOf c') : c = c' := by
  obtain ⟨n, hn, hoid, -, hschema⟩ := exists_namespacesOf hcat hc
  obtain ⟨n', hn', hoid', -, hschema'⟩ := exists_namespacesOf hcat hc'
  simp only [keyOf, hschema, hschema', Prod.mk.injEq, Option.some.injEq] at h
  have hnamespace : n = n' := List.inj_on_of_nodup_map hcat.namespaceNames hn hn' h.1
  refine List.inj_on_of_nodup_map hcat.classNames hc hc' ?_
  rw [← hoid, ← hoid', hnamespace, h.2]

theorem nodup_keyOf (hcat : cat.WellFormed) {l : List PgClass} (hl : l.Sublist cat.classes) :
    (l.map cat.keyOf).Nodup := by
  refine (hl.nodup hcat.classOids.of_map).map_on fun c hc c' hc' h => ?_
  exact class_eq_of_key hcat (hl.subset hc) (hl.subset hc') h

/-- The condition on `pg_depend` is about the relation itself. -/
theorem isExtensionNamed_eq (hcat : cat.WellFormed) (hc : c ∈ cat.classes) :
    cat.isExtensionNamed (cat.schema c) c.relname = cat.isExtensionOwned c := by
  rw [Bool.eq_iff_iff, isExtensionNamed, isExtensionOwned, List.any_eq_true, List.any_eq_true]
  refine exists_congr fun dep => and_congr_right fun _ => ?_
  rw [List.any_eq_true]
  constructor
  · rintro ⟨pc, hpc, hany⟩
    obtain ⟨hpc, hoid⟩ := List.mem_filter.1 hpc
    obtain ⟨n, -, -, hsingle, hschema⟩ := exists_namespacesOf hcat hpc
    rw [hsingle, List.any_cons, List.any_nil, Bool.or_false, decide_eq_true_eq] at hany
    obtain ⟨htype, hclass, hname, hrel⟩ := hany
    obtain rfl : pc = c := by
      refine class_eq_of_key hcat hpc hc ?_
      rw [keyOf, keyOf, hschema, hname, hrel]
    exact decide_eq_true ⟨htype, hclass, (of_decide_eq_true hoid).symm⟩
  · intro h
    obtain ⟨htype, hclass, hoid⟩ := of_decide_eq_true h
    obtain ⟨n, -, -, hsingle, hschema⟩ := exists_namespacesOf hcat hc
    refine ⟨c, by rw [hoid, classesOf_eq hcat hc]; exact List.mem_singleton_self c, ?_⟩
    rw [hsingle, List.any_cons, List.any_nil, Bool.or_false]
    exact decide_eq_true ⟨htype, hclass, hschema.symm, rfl⟩

theorem mem_userRelations : c ∈ cat.userRelations ↔ c ∈ cat.classes ∧
    c.relkind.isTabular = true ∧ cat.schema c ∉ systemSchemas ∧
      cat.isExtensionOwned c = false := by
  rw [userRelations, List.mem_filter]
  simp

end PgCatalog

/-! ### Regrouping -/

def ColsRow.key (r : ColsRow) : Option String × String := (some r.tableSchema, r.tableName)

def FkRow.key (r : FkRow) : Option String × String := (some r.tableSchema, r.tableName)

def IdxRow.key (r : IdxRow) : Option String × String := (some r.tableSchema, r.tableName)

theorem foldl_kind (rows : List KindRow) (t : Table) :
    ∃ kind, rows.foldl (fun t r => r.mark t) t = { t with kind } := by
  induction rows generalizing t with
  | nil => exact ⟨t.kind, rfl⟩
  | cons r rows ih =>
    rw [List.foldl_cons, KindRow.mark]
    split_ifs
    · exact ih { t with kind := "view" }
    · exact ih t

theorem foldl_est (rows : List EstRow) (t : Table) :
    ∃ rowEstimate, rows.foldl (fun t r => r.mark t) t = { t with rowEstimate } := by
  induction rows generalizing t with
  | nil => exact ⟨t.rowEstimate, rfl⟩
  | cons r rows ih => exact ih (r.mark t)

theorem key_mark (r : KindRow) (t : Table) : (r.mark t).key = t.key := by
  rw [KindRow.mark]
  split_ifs <;> rfl

/-- The tables once the columns are in. -/
def Answers.opened (a : Answers) : List Table :=
  a.cols.foldl (fun tables r =>
    enter Table.key Table.opened r.key (Table.pushColumn r.column) tables) []

/-- What the later loops make of a table. -/
def Answers.finish (a : Answers) (t : Table) : Table :=
  let t := (a.kinds.filter fun r => (some r.tableSchema, r.tableName) = t.key).foldl
    (fun t r => r.mark t) t
  let t := (a.fks.filter fun r => r.key = t.key).foldl (fun t r => t.pushForeignKey r.foreignKey) t
  let t := (a.idxs.filter fun r => r.key = t.key).foldl (fun t r => t.pushIndexPart r.part) t
  (a.ests.filter fun r => (some r.tableSchema, r.tableName) = t.key).foldl (fun t r => r.mark t) t

theorem introspect_eq (a : Answers) : introspect a = a.opened.map a.finish := by
  have hfk : ∀ (r : FkRow) t, (Table.pushForeignKey r.foreignKey t).key = t.key := fun _ _ => rfl
  have hidx : ∀ (r : IdxRow) t, (Table.pushIndexPart r.part t).key = t.key := fun _ _ => rfl
  have hest : ∀ (r : EstRow) t, (r.mark t).key = t.key := fun _ _ => rfl
  rw [introspect, foldl_change key_mark, foldl_change hfk, foldl_change hidx, foldl_change hest,
    List.map_map, List.map_map, List.map_map]
  refine List.map_congr_left fun t _ => ?_
  obtain ⟨kind, hkind⟩ := foldl_kind
    (a.kinds.filter fun r => (some r.tableSchema, r.tableName) = t.key) t
  simp only [Answers.finish, Function.comp, hkind, foldl_pushForeignKey, foldl_pushIndexPart]
  rfl

theorem finish_eq (a : Answers) (t : Table) : ∃ kind rowEstimate, a.finish t =
    { t with
      kind
      rowEstimate
      foreignKeys :=
        t.foreignKeys ++ (a.fks.filter fun r => r.key = t.key).map FkRow.foreignKey
      indexes := ((a.idxs.filter fun r => r.key = t.key).map IdxRow.part).foldl pushIndexPart
        t.indexes } := by
  obtain ⟨kind, hkind⟩ := foldl_kind
    (a.kinds.filter fun r => (some r.tableSchema, r.tableName) = t.key) t
  rw [Answers.finish, hkind, foldl_pushForeignKey, foldl_pushIndexPart]
  dsimp only
  obtain ⟨rowEstimate, hest⟩ := foldl_est
    (a.ests.filter fun r => (some r.tableSchema, r.tableName) = t.key) _
  exact ⟨kind, rowEstimate, hest⟩

/-- **What the loops make of the rows**: a table for every relation that has a column, with the rows
of its name. -/
theorem introspect_spec (a : Answers) : ((introspect a).map Table.key).Nodup ∧
    (∀ k, k ∈ (introspect a).map Table.key ↔ k ∈ a.cols.map ColsRow.key) ∧
    ∀ t ∈ introspect a,
      t.columns = (a.cols.filter fun r => r.key = t.key).map ColsRow.column ∧
      t.foreignKeys = (a.fks.filter fun r => r.key = t.key).map FkRow.foreignKey ∧
      t.indexes = ((a.idxs.filter fun r => r.key = t.key).map IdxRow.part).foldl
        pushIndexPart [] := by
  have hgathered : Gathered Table.key Table.opened ColsRow.key (fun r t => t.pushColumn r.column)
      a.cols a.opened :=
    gathered_foldl (f := fun (r : ColsRow) t => Table.pushColumn r.column t) (fun _ => rfl)
      (fun _ _ => rfl) a.cols
  have hkeys : (introspect a).map Table.key = a.opened.map Table.key := by
    rw [introspect_eq, List.map_map]
    refine List.map_congr_left fun t _ => ?_
    obtain ⟨kind, rowEstimate, heq⟩ := finish_eq a t
    exact (congrArg Table.key heq).trans rfl
  rw [hkeys]
  refine ⟨hgathered.nodup, hgathered.mem_iff, fun t' ht' => ?_⟩
  rw [introspect_eq] at ht'
  obtain ⟨t, ht, rfl⟩ := List.mem_map.1 ht'
  have hopened := hgathered.eq t ht
  rw [foldl_pushColumn] at hopened
  obtain ⟨kind, rowEstimate, heq⟩ := finish_eq a t
  rw [heq, hopened]
  exact ⟨rfl, rfl, rfl⟩

namespace PgCatalog

variable {cat : PgCatalog} {c : PgClass}

/-- Rows that are listed relation by relation, and one of the relations. -/
theorem filter_rows {ρ : Type} {R : PgClass → List ρ} {key : ρ → Option String × String}
    {p : ρ → Bool} (hcat : cat.WellFormed)
    (hkey : ∀ c ∈ cat.classes, ∀ r ∈ R c, key r = cat.keyOf c) (hc : c ∈ cat.classes)
    (hp : ∀ r, key r = cat.keyOf c → p r = true) :
    ((cat.classes.flatMap R).filter p).filter (fun r => key r = cat.keyOf c) = R c := by
  rw [List.filter_comm, filter_flatMap_key (nodup_keyOf hcat (.refl _)) hkey hc]
  exact List.filter_eq_self.2 fun r hr => hp r (hkey c hc r hr)

theorem not_mem_systemSchemas {schema : String} (hc : c ∈ cat.userRelations)
    (h : schema = cat.schema c) : schema ∉ systemSchemas := by
  rw [h]
  exact (mem_userRelations.1 hc).2.2.1

/-! ### Foreign keys -/

theorem mem_of_mem_unnest {con : PgConstraint} {k : (ℤ × ℤ) × ℕ} (h : k ∈ unnest con) :
    k.1.1 ∈ con.conkey ∧ k.1.2 ∈ con.confkey := by
  refine List.of_mem_zip ?_
  rw [← List.zipIdx_map_fst 1 (con.conkey.zip con.confkey)]
  exact List.mem_map_of_mem h

theorem mem_constraints {con : PgConstraint} (h : con ∈ cat.constraints.filter fun con =>
    con.conrelid = c.oid ∧ con.contype = .foreign) :
    con ∈ cat.constraints ∧ con.conrelid = c.oid ∧ con.contype = .foreign := by
  obtain ⟨hmem, hcon⟩ := List.mem_filter.1 h
  exact ⟨hmem, of_decide_eq_true hcon⟩

theorem fkRows_eq (hcat : cat.WellFormed) (hc : c ∈ cat.classes) : cat.fkRows c =
    (cat.constraints.filter fun con => con.conrelid = c.oid ∧ con.contype = .foreign).flatMap
      fun con => (unnest con).map fun k =>
        ⟨cat.schema c, c.relname, cat.attname con.conrelid k.1.1, cat.schemaOf con.confrelid,
          cat.relname con.confrelid, cat.attname con.confrelid k.1.2, con.conname, k.2⟩ := by
  obtain ⟨n, -, -, hsingle, hschema⟩ := exists_namespacesOf hcat hc
  rw [fkRows, hsingle, List.flatMap_singleton, hschema]
  refine List.flatMap_congr fun con hcon => ?_
  obtain ⟨hcon, hrel, htype⟩ := mem_constraints hcon
  obtain ⟨-, ⟨fcl, hfcl, hoid⟩, hconfkey⟩ := hcat.confkey con hcon htype
  have hconkey := (hcat.conkey con hcon (by simp [htype])).2
  obtain ⟨fn, -, -, hfsingle, hfschema⟩ := exists_namespacesOf hcat hfcl
  rw [← hoid, classesOf_eq hcat hfcl, List.flatMap_singleton, hfsingle, List.flatMap_singleton,
    schemaOf_eq hcat hfcl, relname_eq hcat hfcl, hfschema, List.map_eq_flatMap]
  refine List.flatMap_congr fun k hk => ?_
  obtain ⟨hlocal, hforeign⟩ := mem_of_mem_unnest hk
  obtain ⟨att, hatt, hattrel, hattnum, -⟩ := hconkey _ hlocal
  obtain ⟨fatt, hfatt, hfattrel, hfattnum⟩ := hconfkey _ hforeign
  rw [← hattrel, ← hattnum, ← hfattnum, hoid, ← hfattrel, attributesOf_eq hcat hatt,
    attributesOf_eq hcat hfatt, attname_eq hcat hatt, attname_eq hcat hfatt]
  rfl

theorem key_of_mem_fkRows (hcat : cat.WellFormed) : ∀ c ∈ cat.classes, ∀ r ∈ cat.fkRows c,
    r.key = cat.keyOf c := by
  intro c hc r hr
  rw [fkRows_eq hcat hc] at hr
  obtain ⟨con, -, hr⟩ := List.mem_flatMap.1 hr
  obtain ⟨k, -, rfl⟩ := List.mem_map.1 hr
  rfl

theorem map_fkRows (hcat : cat.WellFormed) (hc : c ∈ cat.classes) :
    (cat.fkRows c).map FkRow.foreignKey = cat.foreignKeysOf c := by
  rw [fkRows_eq hcat hc, List.map_flatMap, foreignKeysOf]
  refine List.flatMap_congr fun con _ => ?_
  rw [pairsOf, List.map_map, ← List.zipIdx_map_fst 1 (con.conkey.zip con.confkey), List.map_map]
  rfl

/-- **The foreign keys of a relation.** -/
theorem foreignKeys_perm {a : Answers} (hcat : cat.WellFormed) (ha : a.Of cat)
    (hc : c ∈ cat.userRelations) :
    ((a.fks.filter fun r => r.key = cat.keyOf c).map FkRow.foreignKey).Perm
      (cat.foreignKeysOf c) := by
  have hclass := (mem_userRelations.1 hc).1
  have hfilter : cat.fkSql.filter (fun r => r.key = cat.keyOf c) = cat.fkRows c := by
    refine filter_rows hcat (key_of_mem_fkRows hcat) hclass fun r hr => ?_
    exact decide_eq_true (not_mem_systemSchemas hc (Option.some.inj (congrArg Prod.fst hr)))
  rw [← map_fkRows hcat hclass, ← hfilter]
  exact (ha.fks.perm.filter _).map _

/-! ### Indexes -/

/-- The rows of one index. -/
def indexRows (cat : PgCatalog) (c : PgClass) (i : PgIndex) : List IdxRow :=
  (i.indkey.zipIdx 1).map fun k =>
    ⟨cat.schema c, c.relname, cat.relname i.indexrelid, i.indisunique,
      if k.1 = 0 then "(expression)" else cat.attname i.indrelid k.1, k.2⟩

theorem mem_indexes {i : PgIndex}
    (h : i ∈ cat.indexes.filter fun i => i.indrelid = c.oid ∧ ¬ i.indisprimary) :
    i ∈ cat.indexes ∧ i.indrelid = c.oid := by
  obtain ⟨hmem, hi⟩ := List.mem_filter.1 h
  exact ⟨hmem, (of_decide_eq_true hi).1⟩

theorem keyTexts_eq (hcat : cat.WellFormed) {relid : ℕ} {num : ℤ}
    (h : num = 0 ∨ ∃ a ∈ cat.attributes, a.attrelid = relid ∧ a.attnum = num) :
    cat.keyTexts relid num = [if num = 0 then "(expression)" else cat.attname relid num] := by
  by_cases hnum : num = 0
  · have hnone : cat.attributesOf relid num = [] := by
      refine List.filter_eq_nil_iff.2 fun a ha heq => hcat.attnum_ne a ha ?_
      exact (of_decide_eq_true heq).2.trans hnum
    rw [keyTexts, hnone, if_pos hnum]
    rfl
  · obtain ⟨a, ha, rfl, rfl⟩ := h.resolve_left hnum
    rw [keyTexts, attributesOf_eq hcat ha, if_neg hnum, attname_eq hcat ha]
    rfl

theorem idxRows_eq (hcat : cat.WellFormed) (hc : c ∈ cat.classes) : cat.idxRows c =
    (cat.indexes.filter fun i => i.indrelid = c.oid ∧ ¬ i.indisprimary).flatMap
      (cat.indexRows c) := by
  obtain ⟨n, -, -, hsingle, hschema⟩ := exists_namespacesOf hcat hc
  rw [idxRows, hsingle, List.flatMap_singleton]
  refine List.flatMap_congr fun i hi => ?_
  obtain ⟨hi, hrel⟩ := mem_indexes hi
  obtain ⟨-, -, -, ic, hic, hoid, -⟩ := hcat.index i hi
  rw [← hoid, classesOf_eq hcat hic, List.flatMap_singleton, indexRows, List.map_eq_flatMap]
  refine List.flatMap_congr fun k hk => ?_
  have hmem : k.1 ∈ i.indkey := by
    rw [← List.zipIdx_map_fst 1 i.indkey]
    exact List.mem_map_of_mem hk
  rw [keyTexts_eq hcat (hrel ▸ (hcat.indkey i hi).2 _ hmem), ← hoid, relname_eq hcat hic, hrel,
    hschema]
  rfl

theorem key_of_mem_idxRows (hcat : cat.WellFormed) : ∀ c ∈ cat.classes, ∀ r ∈ cat.idxRows c,
    r.key = cat.keyOf c := by
  intro c hc r hr
  rw [idxRows_eq hcat hc] at hr
  obtain ⟨i, -, hr⟩ := List.mem_flatMap.1 hr
  obtain ⟨k, -, rfl⟩ := List.mem_map.1 hr
  rfl

theorem map_indexRows (i : PgIndex) :
    (cat.indexRows c i).map IdxRow.part = (cat.indexOf i).parts := by
  rw [indexRows, List.map_map, Index.parts, indexOf]
  simp only [List.map_map]
  conv_rhs => rw [← List.zipIdx_map_fst 1 i.indkey, List.map_map]
  rfl

/-- An index is in the schema of its table, and so no other index of it has its name. -/
theorem nodup_indexNames (hcat : cat.WellFormed) (hc : c ∈ cat.classes) :
    ((cat.indexes.filter fun i => i.indrelid = c.oid ∧ ¬ i.indisprimary).map
      fun i => cat.relname i.indexrelid).Nodup := by
  refine (hcat.indexOids.of_map.filter _).map_on fun i hi j hj hname => ?_
  obtain ⟨himem, hrel⟩ := mem_indexes hi
  obtain ⟨hjmem, hjrel⟩ := mem_indexes hj
  obtain ⟨t, ht, htoid, ic, hic, hoid, hspace⟩ := hcat.index i himem
  obtain ⟨u, hu, huoid, jc, hjc, hjoid, hjspace⟩ := hcat.index j hjmem
  obtain rfl : t = c := class_eq_of_oid hcat ht hc (htoid.trans hrel)
  obtain rfl : u = t := class_eq_of_oid hcat hu hc (huoid.trans hjrel)
  rw [← hoid, ← hjoid, relname_eq hcat hic, relname_eq hcat hjc] at hname
  obtain rfl : ic = jc := by
    refine List.inj_on_of_nodup_map hcat.classNames hic hjc ?_
    rw [hspace, hjspace, hname]
  exact List.inj_on_of_nodup_map hcat.indexOids himem hjmem (hoid.symm.trans hjoid)

/-- The indexes of a relation by their names. -/
def indexesByName (cat : PgCatalog) (c : PgClass) : List PgIndex :=
  sortBy (fun i => cat.relname i.indexrelid)
    (cat.indexes.filter fun i => i.indrelid = c.oid ∧ ¬ i.indisprimary)

theorem pairwise_indexRows (hcat : cat.WellFormed) (hc : c ∈ cat.classes) :
    ((cat.indexesByName c).flatMap (cat.indexRows c)).Pairwise fun a b => a.order < b.order := by
  refine List.pairwise_flatMap.2 ⟨fun i _ => ?_, ?_⟩
  · refine List.pairwise_map.2 ((pairwise_zipIdx _ _).imp fun {k l} hkl => ?_)
    simpa [IdxRow.order, Prod.Lex.toLex_lt_toLex] using hkl
  · refine (pairwise_lt_sortBy (nodup_indexNames hcat hc)).imp fun {i j} hij x hx y hy => ?_
    obtain ⟨k, -, rfl⟩ := List.mem_map.1 hx
    obtain ⟨l, -, rfl⟩ := List.mem_map.1 hy
    simp [IdxRow.order, Prod.Lex.toLex_lt_toLex, hij]

/-- **The indexes of a relation.** -/
theorem indexes_perm {a : Answers} (hcat : cat.WellFormed) (ha : a.Of cat)
    (hc : c ∈ cat.userRelations) :
    (((a.idxs.filter fun r => r.key = cat.keyOf c).map IdxRow.part).foldl pushIndexPart []).Perm
      (cat.indexesOf c) := by
  have hclass := (mem_userRelations.1 hc).1
  have hsorted := sortBy_perm (fun i => cat.relname i.indexrelid)
    (cat.indexes.filter fun i => i.indrelid = c.oid ∧ ¬ i.indisprimary)
  have hfilter : cat.idxSql.filter (fun r => r.key = cat.keyOf c) = cat.idxRows c := by
    refine filter_rows hcat (key_of_mem_idxRows hcat) hclass fun r hr => ?_
    exact decide_eq_true (not_mem_systemSchemas hc (Option.some.inj (congrArg Prod.fst hr)))
  have hrows : a.idxs.filter (fun r => r.key = cat.keyOf c) =
      (cat.indexesByName c).flatMap (cat.indexRows c) := by
    refine ha.idxs.filter_eq_of_lt ?_ (pairwise_indexRows hcat hclass)
    rw [hfilter, idxRows_eq hcat hclass]
    exact (hsorted.flatMap_right _).symm
  have hparts : ∀ i ∈ cat.indexesByName c, (cat.indexOf i).columns ≠ [] := by
    intro i hi
    simpa [indexOf] using (hcat.indkey i (mem_indexes (hsorted.subset hi)).1).1
  have hnames : ((cat.indexesByName c).map fun i => (cat.indexOf i).name).Nodup :=
    (hsorted.map _).nodup_iff.2 (nodup_indexNames hcat hclass)
  rw [hrows, foldl_map_flatMap (fun i _ => map_indexRows i) hparts hnames]
  exact hsorted.map _

/-! ### Rows of columns -/

/-- The row of a column. -/
def columnRow (cat : PgCatalog) (c : PgClass) (a : PgAttribute) : ColumnRow :=
  ⟨cat.schema c, c.relname, a.attname, a.attnum, a.dataType, if a.isNullable then "YES" else "NO"⟩

theorem columnsOf_perm (cat : PgCatalog) (c : PgClass) : (cat.columnsOf c).Perm
    (cat.attributes.filter fun a => a.attrelid = c.oid ∧ a.isVisible) :=
  sortBy_perm _ _

theorem columnRows_eq (hcat : cat.WellFormed) (hc : c ∈ cat.classes) : cat.columnRows c =
    (cat.attributes.filter fun a => a.attrelid = c.oid ∧ a.isVisible).map (cat.columnRow c) := by
  obtain ⟨n, -, -, hsingle, hschema⟩ := exists_namespacesOf hcat hc
  rw [columnRows, hsingle, List.flatMap_singleton, ← hschema]
  rfl

/-- What `pk` has of a column. -/
def pksOf (cat : PgCatalog) (x : ColumnRow) : List (String × String × String) :=
  cat.primaryKeyRows.filter fun pk => pk = (x.tableSchema, x.tableName, x.columnName)

theorem markedRows_eq (x : ColumnRow) : cat.markedRows x =
    if cat.pksOf x = [] then [⟨x, false⟩] else (cat.pksOf x).map fun _ => ⟨x, true⟩ := rfl

theorem eq_of_mem_markedRows {x : ColumnRow} {r : ColsRow} (hr : r ∈ cat.markedRows x) :
    r = ⟨x, !(cat.pksOf x).isEmpty⟩ := by
  rw [markedRows_eq] at hr
  cases hpks : cat.pksOf x with
  | nil =>
    rw [hpks, if_pos rfl] at hr
    exact List.mem_singleton.1 hr
  | cons pk pks =>
    rw [hpks, if_neg (List.cons_ne_nil _ _)] at hr
    obtain ⟨-, -, rfl⟩ := List.mem_map.1 hr
    rfl

/-- A column is shown as it is when `pk` has it once, if it belongs to the key, and not at all
else. -/
theorem map_markedRows_iff {a : PgAttribute} :
    (cat.markedRows (cat.columnRow c a)).map ColsRow.column = [cat.columnOf c a] ↔
      (cat.pksOf (cat.columnRow c a)).length = if cat.inPrimaryKey c a then 1 else 0 := by
  have hnullable : eqIgnoreAsciiCase (if a.isNullable then "YES" else "NO") "YES" =
      a.isNullable := by
    cases a.isNullable <;> decide
  have hcolumn : ∀ isPk, ColsRow.column ⟨cat.columnRow c a, isPk⟩ =
      ⟨a.attname, a.dataType, a.isNullable, isPk⟩ := by
    intro isPk
    rw [ColsRow.column, ← hnullable]
    rfl
  rw [markedRows_eq, columnOf]
  cases cat.pksOf (cat.columnRow c a) with
  | nil =>
    rw [if_pos rfl, List.map_singleton, hcolumn]
    cases cat.inPrimaryKey c a <;> simp
  | cons pk pks =>
    rw [if_neg (List.cons_ne_nil _ _), List.map_map]
    cases pks with
    | nil => cases cat.inPrimaryKey c a <;> simp [hcolumn]
    | cons pk' pks => cases cat.inPrimaryKey c a <;> simp

/-- The rows of a relation in `COLS_SQL`. -/
def colsRows (cat : PgCatalog) (c : PgClass) : List ColsRow :=
  ((cat.columnRows c).filter fun r =>
    r.tableSchema ∉ systemSchemas ∧ ¬ cat.isExtensionNamed r.tableSchema r.tableName).flatMap
      cat.markedRows

theorem colsSql_eq : cat.colsSql =
    (cat.classes.filter (·.relkind.isTabular)).flatMap cat.colsRows := by
  rw [colsSql, columns, List.filter_flatMap, List.flatMap_assoc]
  rfl

theorem key_of_mem_colsRows (hcat : cat.WellFormed) (hc : c ∈ cat.classes) {r : ColsRow}
    (hr : r ∈ cat.colsRows c) : r.key = cat.keyOf c := by
  obtain ⟨x, hx, hr⟩ := List.mem_flatMap.1 hr
  have hmem := (List.mem_filter.1 hx).1
  rw [columnRows_eq hcat hc] at hmem
  obtain ⟨a, -, rfl⟩ := List.mem_map.1 hmem
  rw [eq_of_mem_markedRows hr]
  rfl

/-- `COLS_SQL` leaves out what is not the user's. -/
theorem colsRows_eq (hcat : cat.WellFormed) (hc : c ∈ cat.classes)
    (htab : c.relkind.isTabular = true) : cat.colsRows c =
      if c ∈ cat.userRelations then (cat.columnRows c).flatMap cat.markedRows else [] := by
  have huser : c ∈ cat.userRelations ↔
      cat.schema c ∉ systemSchemas ∧ ¬ cat.isExtensionNamed (cat.schema c) c.relname = true := by
    rw [mem_userRelations, isExtensionNamed_eq hcat hc, Bool.not_eq_true]
    exact ⟨fun h => h.2.2, fun h => ⟨hc, htab, h⟩⟩
  have hrow : ∀ r ∈ cat.columnRows c, r.tableSchema = cat.schema c ∧ r.tableName = c.relname := by
    intro r hr
    rw [columnRows_eq hcat hc] at hr
    obtain ⟨a, -, rfl⟩ := List.mem_map.1 hr
    exact ⟨rfl, rfl⟩
  split_ifs with hmem
  · rw [colsRows, List.filter_eq_self.2 fun r hr => ?_]
    rw [(hrow r hr).1, (hrow r hr).2]
    exact decide_eq_true (huser.1 hmem)
  · rw [colsRows, List.filter_eq_nil_iff.2 fun r hr h => hmem (huser.2 ?_)]
    · rfl
    · rw [← (hrow r hr).1, ← (hrow r hr).2]
      exact of_decide_eq_true h

theorem filter_colsSql (hcat : cat.WellFormed) (hc : c ∈ cat.userRelations) :
    cat.colsSql.filter (fun r => r.key = cat.keyOf c) =
      (cat.columnRows c).flatMap cat.markedRows := by
  obtain ⟨hclass, htab, -⟩ := mem_userRelations.1 hc
  have hsub : (cat.classes.filter (·.relkind.isTabular)).Sublist cat.classes := List.filter_sublist
  rw [colsSql_eq, filter_flatMap_key (nodup_keyOf hcat hsub)
    (fun c hc r hr => key_of_mem_colsRows hcat (hsub.subset hc) hr)
    (List.mem_filter.2 ⟨hclass, htab⟩), colsRows_eq hcat hclass htab, if_pos hc]

/-- Every row of `COLS_SQL` is of a relation of the user, and of a column of it. -/
theorem exists_of_mem_colsSql (hcat : cat.WellFormed) {r : ColsRow} (hr : r ∈ cat.colsSql) :
    ∃ c ∈ cat.userRelations, r.key = cat.keyOf c ∧ cat.columnsOf c ≠ [] := by
  rw [colsSql_eq] at hr
  obtain ⟨c, hc, hr⟩ := List.mem_flatMap.1 hr
  obtain ⟨hclass, htab⟩ := List.mem_filter.1 hc
  have hkey := key_of_mem_colsRows hcat hclass hr
  rw [colsRows_eq hcat hclass htab] at hr
  split_ifs at hr with huser
  · refine ⟨c, huser, hkey, fun hnone => ?_⟩
    have hnil : cat.attributes.filter (fun a => a.attrelid = c.oid ∧ a.isVisible) = [] :=
      List.nil_perm.1 (hnone ▸ columnsOf_perm cat c)
    rw [columnRows_eq hcat hclass, hnil] at hr
    exact List.not_mem_nil hr
  · exact absurd hr List.not_mem_nil

theorem mem_columnsOf {a : PgAttribute} :
    a ∈ cat.columnsOf c ↔ a ∈ cat.attributes ∧ a.attrelid = c.oid ∧ a.isVisible = true := by
  rw [(columnsOf_perm cat c).mem_iff, List.mem_filter, decide_eq_true_eq]

theorem attribute_eq_of_attnum (hcat : cat.WellFormed) {a b : PgAttribute}
    (ha : a ∈ cat.columnsOf c) (hb : b ∈ cat.columnsOf c) (h : a.attnum = b.attnum) : a = b := by
  obtain ⟨ha, harel, -⟩ := mem_columnsOf.1 ha
  obtain ⟨hb, hbrel, -⟩ := mem_columnsOf.1 hb
  refine List.inj_on_of_nodup_map hcat.attnums ha hb ?_
  rw [harel, hbrel, h]

theorem nodup_attname (hcat : cat.WellFormed) (c : PgClass) :
    ((cat.columnsOf c).map (·.attname)).Nodup := by
  have hnodup := (columnsOf_perm cat c).nodup_iff.2 (hcat.attnums.of_map.filter _)
  refine hnodup.map_on fun a ha b hb h => ?_
  obtain ⟨ha, harel, -⟩ := mem_columnsOf.1 ha
  obtain ⟨hb, hbrel, -⟩ := mem_columnsOf.1 hb
  refine List.inj_on_of_nodup_map hcat.attnames ha hb ?_
  rw [harel, hbrel, h]

/-- **The column rows of a relation**, in the order of the columns. -/
theorem filter_cols {a : Answers} (hcat : cat.WellFormed) (ha : a.Of cat)
    (hc : c ∈ cat.userRelations) : a.cols.filter (fun r => r.key = cat.keyOf c) =
      (cat.columnsOf c).flatMap fun x => cat.markedRows (cat.columnRow c x) := by
  have hclass := (mem_userRelations.1 hc).1
  refine ha.cols.filter_eq ?_ (List.pairwise_flatMap.2 ⟨fun x _ => ?_, ?_⟩) fun r hr r' hr' h => ?_
  · rw [filter_colsSql hcat hc, columnRows_eq hcat hclass, List.flatMap_map]
    exact ((columnsOf_perm cat c).flatMap_right _).symm
  · refine List.pairwise_of_forall_mem_list fun r hr r' hr' => ?_
    rw [eq_of_mem_markedRows hr, eq_of_mem_markedRows hr']
  · refine (pairwise_sortBy _ _).imp fun {x y} hxy r hr r' hr' => ?_
    rw [eq_of_mem_markedRows hr, eq_of_mem_markedRows hr']
    simpa [ColsRow.order, columnRow, Prod.Lex.toLex_le_toLex] using hxy
  · obtain ⟨x, hx, hr⟩ := List.mem_flatMap.1 hr
    obtain ⟨y, hy, hr'⟩ := List.mem_flatMap.1 hr'
    rw [eq_of_mem_markedRows hr, eq_of_mem_markedRows hr'] at h ⊢
    have hnum : x.attnum = y.attnum :=
      congrArg (fun o : String ×ₗ String ×ₗ ℤ => (ofLex (ofLex o).2).2) h
    rw [attribute_eq_of_attnum hcat hx hy hnum]

/-- The columns of a relation are shown as they are when `pk` marks those of its key, once each. -/
theorem map_cols_iff {a : Answers} (hcat : cat.WellFormed) (ha : a.Of cat)
    (hc : c ∈ cat.userRelations) :
    (a.cols.filter fun r => r.key = cat.keyOf c).map ColsRow.column =
        (cat.columnsOf c).map (cat.columnOf c) ↔
      ∀ x ∈ cat.columnsOf c,
        (cat.pksOf (cat.columnRow c x)).length = if cat.inPrimaryKey c x then 1 else 0 := by
  have htag : ∀ x ∈ cat.columnsOf c, ∀ column ∈ (cat.markedRows (cat.columnRow c x)).map
      ColsRow.column, column.name = x.attname := by
    intro x _ column hcolumn
    obtain ⟨r, hr, rfl⟩ := List.mem_map.1 hcolumn
    rw [eq_of_mem_markedRows hr]
    rfl
  rw [filter_cols hcat ha hc, List.map_flatMap,
    flatMap_eq_map_iff (nodup_attname hcat c) htag fun _ _ => rfl]
  exact forall₂_congr fun x _ => map_markedRows_iff

/-! ### Primary keys -/

/-- The keys of a relation. -/
def keysOf (cat : PgCatalog) (c : PgClass) : List PgConstraint :=
  cat.constraints.filter fun con =>
    con.conrelid = c.oid ∧ con.contype ∈ [ConType.primary, .unique, .foreign]

theorem mem_keysOf {con : PgConstraint} : con ∈ cat.keysOf c ↔ con ∈ cat.constraints ∧
    con.conrelid = c.oid ∧ con.contype ∈ [ConType.primary, .unique, .foreign] := by
  rw [keysOf, List.mem_filter, decide_eq_true_eq]

theorem keyRows_eq (hcat : cat.WellFormed) (hc : c ∈ cat.classes) : cat.keyRows c =
    (cat.keysOf c).flatMap fun con => con.conkey.map fun num =>
      ⟨con.conname, cat.schema c, cat.attname c.oid num⟩ := by
  obtain ⟨n, -, -, hsingle, hschema⟩ := exists_namespacesOf hcat hc
  rw [keyRows, hsingle, List.flatMap_singleton, hschema]
  refine List.flatMap_congr fun con hcon => ?_
  obtain ⟨hcon, hrel, htype⟩ := mem_keysOf.1 hcon
  rw [List.map_eq_flatMap]
  refine List.flatMap_congr fun num hnum => ?_
  obtain ⟨a, ha, harel, rfl, hvisible⟩ := (hcat.conkey con hcon htype).2 num hnum
  have hdropped : a.attisdropped = false := by
    simpa [PgAttribute.isVisible] using (of_decide_eq_true hvisible).2
  rw [← hrel, ← harel, attributesOf_eq hcat ha, attname_eq hcat ha]
  simp [hdropped]

/-- A constraint is known by its name in its table. -/
theorem constraint_eq (hcat : cat.WellFormed) {k k' : PgConstraint} (hk : k ∈ cat.constraints)
    (hk' : k' ∈ cat.constraints) (hrel : k.conrelid = k'.conrelid)
    (hname : k.conname = k'.conname) : k = k' :=
  List.inj_on_of_nodup_map hcat.connames hk hk' (by rw [hrel, hname])

/-- The rows of a key of a relation. -/
theorem filter_keyRows (hcat : cat.WellFormed) (hc : c ∈ cat.classes) {con : PgConstraint}
    (hcon : con ∈ cat.keysOf c) :
    (cat.keyRows c).filter (fun k => k.constraintName = con.conname) =
      con.conkey.map fun num => ⟨con.conname, cat.schema c, cat.attname c.oid num⟩ := by
  have hnames : ((cat.keysOf c).map (·.conname)).Nodup := by
    refine (hcat.connames.of_map.filter _).map_on fun k hk k' hk' h => ?_
    obtain ⟨hk, hrel, -⟩ := mem_keysOf.1 hk
    obtain ⟨hk', hrel', -⟩ := mem_keysOf.1 hk'
    exact constraint_eq hcat hk hk' (hrel.trans hrel'.symm) h
  have htag : ∀ con ∈ cat.keysOf c, ∀ k ∈ con.conkey.map (fun num =>
      (⟨con.conname, cat.schema c, cat.attname c.oid num⟩ : KeyRow)),
      k.constraintName = con.conname := by
    intro con _ k hk
    obtain ⟨num, -, rfl⟩ := List.mem_map.1 hk
    rfl
  rw [keyRows_eq hcat hc]
  exact filter_flatMap_key hnames htag hcon

/-- A row of `key_column_usage` that marks a column. -/
def marksColumn (cat : PgCatalog) (c : PgClass) (pk : PgConstraint) (a : PgAttribute) (k : KeyRow) :
    Bool :=
  k.constraintName = pk.conname ∧ k.tableSchema = cat.schema c ∧ k.columnName = a.attname

/-- The rows of the primary key mark its columns, once each. -/
theorem countP_own (hcat : cat.WellFormed) (hc : c ∈ cat.classes) {pk : PgConstraint}
    (hpk : pk ∈ cat.keysOf c) (htype : pk.contype = .primary) {a : PgAttribute}
    (ha : a ∈ cat.columnsOf c) : (cat.keyRows c).countP (cat.marksColumn c pk a) =
      if a.attnum ∈ pk.conkey then 1 else 0 := by
  obtain ⟨hcon, hrel, hkey⟩ := mem_keysOf.1 hpk
  have hsplit : (cat.keyRows c).countP (cat.marksColumn c pk a) =
      ((cat.keyRows c).filter fun k => k.constraintName = pk.conname).countP fun k =>
        k.tableSchema = cat.schema c ∧ k.columnName = a.attname := by
    rw [List.countP_filter]
    refine List.countP_congr fun k _ => ?_
    simp only [marksColumn, decide_eq_true_eq, Bool.and_eq_true]
    tauto
  rw [hsplit, filter_keyRows hcat hc hpk, List.countP_map,
    ← (hcat.primaryNodup pk hcon htype).count, List.count]
  refine List.countP_congr fun num hnum => ?_
  obtain ⟨b, hb, hbrel, rfl, hvisible⟩ := (hcat.conkey pk hcon hkey).2 num hnum
  have hbc : b ∈ cat.columnsOf c := mem_columnsOf.2 ⟨hb, hbrel.trans hrel, hvisible⟩
  have hname : cat.attname c.oid b.attnum = b.attname := by
    rw [← hrel, ← hbrel, attname_eq hcat hb]
  simp only [Function.comp, hname, decide_eq_true_eq, true_and, beq_iff_eq]
  constructor
  · intro h
    rw [List.inj_on_of_nodup_map (nodup_attname hcat c) hbc ha h]
  · intro h
    rw [attribute_eq_of_attnum hcat hbc ha h]

/-- The primary keys of a relation, of which there is one at most. -/
def primaryOf (cat : PgCatalog) (c : PgClass) : List PgConstraint :=
  cat.constraints.filter fun con => con.conrelid = c.oid ∧ con.contype = .primary

theorem mem_primaryOf {pk : PgConstraint} : pk ∈ cat.primaryOf c ↔
    pk ∈ cat.constraints ∧ pk.conrelid = c.oid ∧ pk.contype = .primary := by
  rw [primaryOf, List.mem_filter, decide_eq_true_eq]

theorem primaryOf_eq (hcat : cat.WellFormed) {pk : PgConstraint} (hpk : pk ∈ cat.primaryOf c) :
    cat.primaryOf c = [pk] := by
  obtain ⟨hcon, hrel, htype⟩ := mem_primaryOf.1 hpk
  rw [primaryOf, ← filter_key_eq hcat.connames hcon]
  refine List.filter_congr fun k hk => decide_eq_decide.2 ⟨fun h => ?_, fun h => ?_⟩
  · rw [hcat.onePrimary k hk pk hcon h.2 htype (h.1.trans hrel.symm)]
  · rw [List.inj_on_of_nodup_map hcat.connames hk hcon h]
    exact ⟨hrel, htype⟩

/-- What the subquery `pk` has of a relation. -/
def primaryRows (cat : PgCatalog) (c : PgClass) : List (String × String × String) :=
  (cat.primaryOf c).flatMap fun pk =>
    (cat.keyColumnUsage.filter fun k =>
      pk.conname = k.constraintName ∧ cat.schema c = k.tableSchema).map fun k =>
        (cat.schema c, c.relname, k.columnName)

theorem primaryKeyRows_eq (hcat : cat.WellFormed) : cat.primaryKeyRows =
    (cat.classes.filter (·.relkind.hasKeys)).flatMap cat.primaryRows := by
  rw [primaryKeyRows, tableConstraints, List.filter_flatMap, List.flatMap_assoc]
  refine List.flatMap_congr fun c hc => ?_
  obtain ⟨n, -, -, hsingle, hschema⟩ := exists_namespacesOf hcat (List.mem_filter.1 hc).1
  have hprimary : (cat.constraints.filter fun con =>
      con.conrelid = c.oid ∧ con.contype ≠ .trigger).filter (fun con => con.contype = .primary) =
        cat.primaryOf c := by
    rw [List.filter_filter, primaryOf]
    refine List.filter_congr fun con _ => ?_
    rw [← Bool.decide_and]
    refine decide_eq_decide.2 ⟨fun h => ⟨h.2.1, h.1⟩, fun h => ⟨h.2, h.1, ?_⟩⟩
    rw [h.2]
    exact ConType.noConfusion
  rw [hsingle, List.flatMap_singleton, ← hschema, List.filter_map, List.flatMap_map, primaryRows,
    ← hprimary]
  rfl

theorem eq_of_mem_primaryRows {x : String × String × String} (hx : x ∈ cat.primaryRows c) :
    (some x.1, x.2.1) = cat.keyOf c ∧ cat.primaryOf c ≠ [] := by
  obtain ⟨pk, hpk, hx⟩ := List.mem_flatMap.1 hx
  obtain ⟨k, -, rfl⟩ := List.mem_map.1 hx
  exact ⟨rfl, List.ne_nil_of_mem hpk⟩

theorem pksOf_of_none (hcat : cat.WellFormed) (hc : c ∈ cat.classes) (hnone : cat.primaryOf c = [])
    (a : PgAttribute) : cat.pksOf (cat.columnRow c a) = [] := by
  refine List.filter_eq_nil_iff.2 fun x hx heq => ?_
  rw [primaryKeyRows_eq hcat] at hx
  obtain ⟨c', hc', hx⟩ := List.mem_flatMap.1 hx
  obtain ⟨hkey, hsome⟩ := eq_of_mem_primaryRows hx
  rw [of_decide_eq_true heq] at hkey
  rw [← class_eq_of_key hcat hc (List.mem_filter.1 hc').1 hkey] at hsome
  exact hsome hnone

/-- A relation with a primary key is a table. -/
theorem mem_keyed (hcat : cat.WellFormed) (hc : c ∈ cat.classes) {pk : PgConstraint}
    (hpk : pk ∈ cat.constraints) (hrel : pk.conrelid = c.oid)
    (hkey : pk.contype ∈ [ConType.primary, .unique, .foreign]) :
    c ∈ cat.classes.filter (·.relkind.hasKeys) := by
  obtain ⟨⟨t, ht, hoid, hkeys⟩, -⟩ := hcat.conkey pk hpk hkey
  obtain rfl := class_eq_of_oid hcat ht hc (hoid.trans hrel)
  exact List.mem_filter.2 ⟨hc, hkeys⟩

theorem length_pksOf (hcat : cat.WellFormed) (hc : c ∈ cat.classes) {pk : PgConstraint}
    (hpk : pk ∈ cat.primaryOf c) (a : PgAttribute) : (cat.pksOf (cat.columnRow c a)).length =
      cat.keyColumnUsage.countP (cat.marksColumn c pk a) := by
  obtain ⟨hcon, hrel, htype⟩ := mem_primaryOf.1 hpk
  have hsub : (cat.classes.filter (·.relkind.hasKeys)).Sublist cat.classes := List.filter_sublist
  have hfilter : cat.primaryKeyRows.filter (fun x => (some x.1, x.2.1) = cat.keyOf c) =
      cat.primaryRows c := by
    rw [primaryKeyRows_eq hcat]
    exact filter_flatMap_key (nodup_keyOf hcat hsub) (fun c _ x hx => (eq_of_mem_primaryRows hx).1)
      (mem_keyed hcat hc hcon hrel (by simp [htype]))
  have hsplit : cat.pksOf (cat.columnRow c a) =
      (cat.primaryRows c).filter fun x => x.2.2 = a.attname := by
    rw [pksOf, ← hfilter, List.filter_filter]
    refine List.filter_congr fun x _ => ?_
    rw [← Bool.decide_and]
    refine decide_eq_decide.2 ?_
    simp only [columnRow, keyOf, Prod.ext_iff, Option.some.injEq]
    tauto
  rw [hsplit, primaryRows, primaryOf_eq hcat hpk, List.flatMap_singleton, List.filter_map,
    List.length_map, List.filter_filter, ← List.countP_eq_length_filter]
  refine List.countP_congr fun k _ => ?_
  simp only [Function.comp, marksColumn, Bool.and_eq_true, decide_eq_true_eq]
  tauto

/-- The other rows that mark a column are those of foreign keys of the name of the primary key. -/
theorem countP_others_iff (hcat : cat.WellFormed) (hc : c ∈ cat.classes) {pk : PgConstraint}
    (hpk : pk ∈ cat.primaryOf c) (a : PgAttribute) :
    (((cat.classes.filter (·.relkind.hasKeys)).erase c).flatMap cat.keyRows).countP
        (cat.marksColumn c pk a) = 0 ↔
      ∀ fk ∈ cat.constraints, fk.contype = .foreign → fk.conname = pk.conname →
        cat.schemaOf fk.conrelid = cat.schema c →
          ∀ num ∈ fk.conkey, cat.attname fk.conrelid num ≠ a.attname := by
  obtain ⟨hcon, hrel, htype⟩ := mem_primaryOf.1 hpk
  have hnodup : (cat.classes.filter (·.relkind.hasKeys)).Nodup := hcat.classOids.of_map.filter _
  rw [List.countP_eq_zero]
  constructor
  · intro h fk hfk hforeign hname hschema num hnum heq
    have hkey : fk.contype ∈ [ConType.primary, .unique, .foreign] := by simp [hforeign]
    obtain ⟨⟨t, ht, hoid, hkeys⟩, -⟩ := hcat.conkey fk hfk hkey
    have hne : t ≠ c := by
      rintro rfl
      rw [constraint_eq hcat hfk hcon (hoid.symm.trans hrel.symm) hname, htype] at hforeign
      cases hforeign
    have hmem : (⟨fk.conname, cat.schema t, cat.attname t.oid num⟩ : KeyRow) ∈ cat.keyRows t := by
      rw [keyRows_eq hcat ht]
      exact List.mem_flatMap.2 ⟨fk, mem_keysOf.2 ⟨hfk, hoid.symm, hkey⟩,
        List.mem_map_of_mem hnum⟩
    refine h _ (List.mem_flatMap.2 ⟨t, (hnodup.mem_erase_iff).2
      ⟨hne, List.mem_filter.2 ⟨ht, hkeys⟩⟩, hmem⟩) (decide_eq_true ⟨hname, ?_, ?_⟩)
    · rw [← hschema, ← hoid, schemaOf_eq hcat ht]
    · rw [← heq, hoid]
  · intro h k hk hmark
    obtain ⟨t, ht, hk⟩ := List.mem_flatMap.1 hk
    obtain ⟨hne, ht⟩ := (hnodup.mem_erase_iff).1 ht
    have htclass := (List.mem_filter.1 ht).1
    rw [keyRows_eq hcat htclass] at hk
    obtain ⟨con, hkey, hk⟩ := List.mem_flatMap.1 hk
    obtain ⟨num, hnum, rfl⟩ := List.mem_map.1 hk
    obtain ⟨hmem, hconrel, hkind⟩ := mem_keysOf.1 hkey
    obtain ⟨hname, hschema, hcolumn⟩ := of_decide_eq_true hmark
    have hconschema : cat.schemaOf con.conrelid = cat.schema c := by
      rw [hconrel, schemaOf_eq hcat htclass]
      exact hschema
    by_cases hforeign : con.contype = .foreign
    · exact h con hmem hforeign hname hconschema num hnum (hconrel ▸ hcolumn)
    · have hunique : con.contype ∈ [ConType.primary, .unique] := by
        simp only [List.mem_cons, List.not_mem_nil, or_false] at hkind ⊢
        tauto
      have heq := hcat.keyNames con hmem pk hcon hunique (by simp [htype])
        (by rw [hconschema, hrel, schemaOf_eq hcat hc]) hname
      exact hne (class_eq_of_oid hcat htclass hc (hconrel.symm.trans (heq ▸ hrel)))

theorem inPrimaryKey_iff (hcat : cat.WellFormed) {pk : PgConstraint} (hpk : pk ∈ cat.primaryOf c)
    (a : PgAttribute) : cat.inPrimaryKey c a = true ↔ a.attnum ∈ pk.conkey := by
  obtain ⟨hcon, hrel, htype⟩ := mem_primaryOf.1 hpk
  rw [inPrimaryKey, List.any_eq_true]
  constructor
  · rintro ⟨k, hk, h⟩
    obtain ⟨hprimary, hkrel, hmem⟩ := of_decide_eq_true h
    rwa [hcat.onePrimary k hk pk hcon hprimary htype (hkrel.trans hrel.symm)] at hmem
  · exact fun h => ⟨pk, hcon, decide_eq_true ⟨htype, hrel, h⟩⟩

/-- A column is marked by its own key, and by the foreign keys that are taken for it. -/
theorem length_pksOf_iff (hcat : cat.WellFormed) (hc : c ∈ cat.classes) {pk : PgConstraint}
    (hpk : pk ∈ cat.primaryOf c) {a : PgAttribute} (ha : a ∈ cat.columnsOf c) :
    ((cat.pksOf (cat.columnRow c a)).length = if cat.inPrimaryKey c a then 1 else 0) ↔
      ∀ fk ∈ cat.constraints, fk.contype = .foreign → fk.conname = pk.conname →
        cat.schemaOf fk.conrelid = cat.schema c →
          ∀ num ∈ fk.conkey, cat.attname fk.conrelid num ≠ a.attname := by
  obtain ⟨hcon, hrel, htype⟩ := mem_primaryOf.1 hpk
  have hkey : pk.contype ∈ [ConType.primary, .unique, .foreign] := by simp [htype]
  have hperm := List.perm_cons_erase (mem_keyed hcat hc hcon hrel hkey)
  have hcount : cat.keyColumnUsage.countP (cat.marksColumn c pk a) =
      (if a.attnum ∈ pk.conkey then 1 else 0) +
        (((cat.classes.filter (·.relkind.hasKeys)).erase c).flatMap cat.keyRows).countP
          (cat.marksColumn c pk a) := by
    rw [keyColumnUsage, (hperm.flatMap_right cat.keyRows).countP_eq, List.flatMap_cons,
      List.countP_append, countP_own hcat hc (mem_keysOf.2 ⟨hcon, hrel, hkey⟩) htype ha]
  rw [length_pksOf hcat hc hpk, hcount, ← countP_others_iff hcat hc hpk,
    if_congr (inPrimaryKey_iff hcat hpk a) rfl rfl]
  omega

/-- **The columns of a relation are marked as they belong to its key** when no foreign key is taken
for it. -/
theorem marked_iff (hcat : cat.WellFormed) (hc : c ∈ cat.classes) :
    (∀ a ∈ cat.columnsOf c,
        (cat.pksOf (cat.columnRow c a)).length = if cat.inPrimaryKey c a then 1 else 0) ↔
      ∀ pk ∈ cat.constraints, pk.contype = .primary → pk.conrelid = c.oid →
        ∀ fk ∈ cat.constraints, fk.contype = .foreign → fk.conname = pk.conname →
          cat.schemaOf fk.conrelid = cat.schema c →
            ∀ num ∈ fk.conkey, ∀ a ∈ cat.columnsOf c, cat.attname fk.conrelid num ≠ a.attname := by
  constructor
  · intro h pk hpk htype hrel fk hfk hforeign hname hschema num hnum a ha
    have hiff := length_pksOf_iff hcat hc (mem_primaryOf.2 ⟨hpk, hrel, htype⟩) ha
    exact hiff.1 (h a ha) fk hfk hforeign hname hschema num hnum
  · intro h a ha
    cases hprimary : cat.primaryOf c with
    | nil =>
      have hnot : cat.inPrimaryKey c a = false := by
        refine List.any_eq_false.2 fun k hk hany => ?_
        obtain ⟨htype, hrel, -⟩ := of_decide_eq_true hany
        have hmem := mem_primaryOf.2 ⟨hk, hrel, htype⟩
        rw [hprimary] at hmem
        exact List.not_mem_nil hmem
      rw [pksOf_of_none hcat hc hprimary, hnot]
      rfl
    | cons pk pks =>
      have hpk : pk ∈ cat.primaryOf c := hprimary ▸ List.mem_cons_self
      obtain ⟨hcon, hrel, htype⟩ := mem_primaryOf.1 hpk
      refine (length_pksOf_iff hcat hc hpk ha).2 ?_
      intro fk hfk hforeign hname hschema num hnum
      exact h pk hcon htype hrel fk hfk hforeign hname hschema num hnum a ha

/-! ### The catalog -/

/-- A relation is among the rows when it has a column. -/
theorem mem_keys_iff {a : Answers} (hcat : cat.WellFormed) (ha : a.Of cat)
    (hc : c ∈ cat.userRelations) :
    cat.keyOf c ∈ a.cols.map ColsRow.key ↔ cat.columnsOf c ≠ [] := by
  constructor
  · intro h
    obtain ⟨r, hr, hkey⟩ := List.mem_map.1 h
    obtain ⟨c', hc', hkey', hne⟩ := exists_of_mem_colsSql hcat (ha.cols.perm.subset hr)
    rwa [class_eq_of_key hcat (mem_userRelations.1 hc).1 (mem_userRelations.1 hc').1
      (hkey.symm.trans hkey')]
  · intro h
    obtain ⟨x, hx⟩ := List.exists_mem_of_ne_nil _ h
    have hne : cat.markedRows (cat.columnRow c x) ≠ [] := by
      rw [markedRows_eq]
      split_ifs with hpks
      · exact List.cons_ne_nil _ _
      · simpa using hpks
    obtain ⟨r, hr⟩ := List.exists_mem_of_ne_nil _ hne
    have hmem : r ∈ a.cols.filter fun r => r.key = cat.keyOf c := by
      rw [filter_cols hcat ha hc]
      exact List.mem_flatMap.2 ⟨x, hx, hr⟩
    obtain ⟨hr, hkey⟩ := List.mem_filter.1 hmem
    exact of_decide_eq_true hkey ▸ List.mem_map_of_mem hr

/-- The table of a relation shows it when its columns are marked as they belong to its key. -/
theorem shows_iff {a : Answers} (hcat : cat.WellFormed) (ha : a.Of cat)
    (hc : c ∈ cat.userRelations) {t : Table} (ht : t ∈ introspect a) (hkey : t.key = cat.keyOf c) :
    cat.Shows c t ↔ ∀ x ∈ cat.columnsOf c,
      (cat.pksOf (cat.columnRow c x)).length = if cat.inPrimaryKey c x then 1 else 0 := by
  obtain ⟨hcolumns, hfks, hidxs⟩ := (introspect_spec a).2.2 t ht
  rw [hkey] at hcolumns hfks hidxs
  rw [← map_cols_iff hcat ha hc, ← hcolumns]
  refine ⟨fun h => h.columns, fun h => ⟨?_, ?_, h, ?_, ?_⟩⟩
  · exact congrArg Prod.fst hkey
  · exact congrArg Prod.snd hkey
  · rw [hfks]
    exact foreignKeys_perm hcat ha hc
  · rw [hidxs]
    exact indexes_perm hcat ha hc

theorem key_of_shows {t : Table} (h : cat.Shows c t) : t.key = cat.keyOf c := by
  rw [Table.key, h.schema, h.name]
  rfl

theorem shown_iff {a : Answers} (hcat : cat.WellFormed) (ha : a.Of cat) :
    cat.Shown (introspect a) ↔
      (∀ c ∈ cat.userRelations, cat.columnsOf c ≠ []) ∧ cat.KeysApart := by
  obtain ⟨hnodup, hkeys, -⟩ := introspect_spec a
  constructor
  · intro h
    refine ⟨fun c hc => ?_, fun c hc => ?_⟩
    · obtain ⟨t, ht, hshows⟩ := h.shows c hc
      rw [← mem_keys_iff hcat ha hc, ← hkeys, ← key_of_shows hshows]
      exact List.mem_map_of_mem ht
    · obtain ⟨t, ht, hshows⟩ := h.shows c hc
      rw [shows_iff hcat ha hc ht (key_of_shows hshows)] at hshows
      exact (marked_iff hcat (mem_userRelations.1 hc).1).1 hshows
  · rintro ⟨hcolumns, hapart⟩
    have hshows : ∀ c ∈ cat.userRelations, ∀ t ∈ introspect a, t.key = cat.keyOf c →
        cat.Shows c t := by
      intro c hc t ht hkey
      rw [shows_iff hcat ha hc ht hkey]
      exact (marked_iff hcat (mem_userRelations.1 hc).1).2 (hapart c hc)
    refine ⟨hnodup, fun c hc => ?_, fun t ht => ?_⟩
    · have hmem := (hkeys _).2 ((mem_keys_iff hcat ha hc).2 (hcolumns c hc))
      obtain ⟨t, ht, hkey⟩ := List.mem_map.1 hmem
      exact ⟨t, ht, hshows c hc t ht hkey⟩
    · obtain ⟨r, hr, hkey⟩ := List.mem_map.1 ((hkeys _).1 (List.mem_map_of_mem ht))
      obtain ⟨c, hc, hkey', -⟩ := exists_of_mem_colsSql hcat (ha.cols.perm.subset hr)
      exact ⟨c, hc, hshows c hc t ht (hkey.symm.trans hkey')⟩

end PgCatalog

open PgCatalog

/-- **The tables show every relation of the user as it is** exactly when each has a column and no
foreign key is taken for a primary key. -/
theorem introspect_iff {cat : PgCatalog} (hcat : cat.WellFormed) {a : Answers} (ha : a.Of cat) :
    cat.Shown (introspect a) ↔
      (∀ c ∈ cat.userRelations, cat.columnsOf c ≠ []) ∧ cat.KeysApart :=
  shown_iff hcat ha

/-! ### Two tables -/

/-- Users with a primary key `users_key`, and posts that refer to them under a name of choice. -/
def usersAndPosts (conname : String) : PgCatalog where
  namespaces := [⟨2200, "public"⟩]
  classes := [⟨1, "users", 2200, .table⟩, ⟨2, "posts", 2200, .table⟩]
  attributes := [⟨1, "id", 1, false, "integer", false⟩, ⟨1, "owner", 2, false, "integer", true⟩,
    ⟨2, "owner", 1, false, "integer", true⟩]
  constraints := [⟨"users_key", .primary, 1, 0, [1], []⟩, ⟨conname, .foreign, 2, 1, [1], [1]⟩]
  indexes := []
  depends := []

theorem wellFormed_usersAndPosts (conname : String) : (usersAndPosts conname).WellFormed := by
  constructor <;> simp [usersAndPosts, RelKind.hasKeys, PgAttribute.isVisible]

/-- An answer of the server. -/
def answersOf (cat : PgCatalog) : Answers :=
  ⟨sortBy ColsRow.order cat.colsSql, [], sortBy FkRow.order cat.fkSql,
    sortBy IdxRow.order cat.idxSql, []⟩

theorem answersOf_of (cat : PgCatalog) : (answersOf cat).Of cat :=
  ⟨answer_sortBy _ _, answer_sortBy _ _, answer_sortBy _ _⟩

theorem columnsOf_usersAndPosts (conname : String) :
    ∀ c ∈ (usersAndPosts conname).userRelations, (usersAndPosts conname).columnsOf c ≠ [] := by
  intro c hc
  have hclass := (mem_userRelations.1 hc).1
  rcases List.mem_pair.1 hclass with rfl | rfl
  · exact List.ne_nil_of_mem (mem_columnsOf.2 ⟨List.mem_cons_self, rfl, rfl⟩)
  · exact List.ne_nil_of_mem (mem_columnsOf.2
      ⟨List.mem_cons_of_mem _ (List.mem_cons_of_mem _ List.mem_cons_self), rfl, rfl⟩)

/-- Under a name of its own the reference does no harm. -/
theorem introspect_ownName :
    (usersAndPosts "posts_owner").Shown (introspect (answersOf (usersAndPosts "posts_owner"))) := by
  refine (introspect_iff (wellFormed_usersAndPosts "posts_owner") (answersOf_of _)).2
    ⟨columnsOf_usersAndPosts "posts_owner", ?_⟩
  intro c _ pk hpk hprimary _ fk hfk hforeign hname
  have hapart : ∀ pk ∈ (usersAndPosts "posts_owner").constraints, pk.contype = .primary →
      ∀ fk ∈ (usersAndPosts "posts_owner").constraints, fk.contype = .foreign →
        fk.conname ≠ pk.conname := by decide
  exact absurd hname (hapart pk hpk hprimary fk hfk hforeign)

/-- Under the name of the primary key its column is taken for a part of that key. -/
theorem introspect_sharedName : (usersAndPosts "users_key").WellFormed ∧
    (answersOf (usersAndPosts "users_key")).Of (usersAndPosts "users_key") ∧
    ¬ (usersAndPosts "users_key").Shown
      (introspect (answersOf (usersAndPosts "users_key"))) := by
  have hcat := wellFormed_usersAndPosts "users_key"
  refine ⟨hcat, answersOf_of _, fun h => ?_⟩
  have hapart := ((shown_iff hcat (answersOf_of _)).1 h).2
  have hcolumn : (⟨1, "owner", 2, false, "integer", true⟩ : PgAttribute) ∈
      (usersAndPosts "users_key").columnsOf ⟨1, "users", 2200, .table⟩ :=
    mem_columnsOf.2 ⟨List.mem_cons_of_mem _ List.mem_cons_self, rfl, rfl⟩
  exact hapart ⟨1, "users", 2200, .table⟩ (by decide) _ List.mem_cons_self rfl rfl _
    (List.mem_cons_of_mem _ List.mem_cons_self) rfl rfl rfl 1 (by decide) _ hcolumn rfl

end Pg
end Introspect
end AgentDb
