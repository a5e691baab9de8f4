import AgentDb.Introspect.Mysql

/-!
# What `introspect/mysql.rs` shows of a schema

Every table of the schema is found again among the rows by its name. `shown_iff` says when the
tables that are made of them show the schema: when no foreign key goes to another schema, and no
unique index is displayed as a primary key.
-/

namespace AgentDb
namespace Introspect
namespace Mysql

open QueryRows Sorting
open Services (eqIgnoreAsciiCase)

/-! ### Regrouping -/

def ColsRow.key (r : ColsRow) : Option String × String := (none, r.tableName)

def FkRow.key (r : FkRow) : Option String × String := (none, r.tableName)

def IdxRow.key (r : IdxRow) : Option String × String := (none, r.tableName)

def EstRow.key (r : EstRow) : Option String × String := (none, r.tableName)

/-- The tables once the columns are in. -/
def Answers.opened (a : Answers) : List Table :=
  a.cols.foldl (fun tables r =>
    enter Table.key Table.opened r.key (Table.pushColumn r.column) tables) []

/-- The foreign key rows that are read. -/
def Answers.fksRead (a : Answers) (skipFk : Bool) : List FkRow := if skipFk then [] else a.fks

/-- What the later loops make of a table. -/
def Answers.finish (a : Answers) (skipFk : Bool) (t : Table) : Table :=
  let t := ((a.fksRead skipFk).filter fun r => r.key = t.key).foldl
    (fun t r => t.pushForeignKey r.foreignKey) t
  let t := (a.idxs.filter fun r => r.key = t.key).foldl (fun t r => t.pushIndexPart r.part) t
  (a.ests.filter fun r => r.key = t.key).foldl (fun t r => r.mark t) t

theorem key_mark (r : EstRow) (t : Table) : (r.mark t).key = t.key := by
  rw [EstRow.mark]
  split_ifs <;> rfl

theorem introspect_eq (skipFk : Bool) (a : Answers) :
    introspect skipFk a = a.opened.map (a.finish skipFk) := by
  have hread : ∀ tables : List Table, (if skipFk then tables
      else a.fks.foldl (fun tables r =>
        change Table.key (none, r.tableName) (Table.pushForeignKey r.foreignKey) tables) tables) =
      (a.fksRead skipFk).foldl (fun tables r =>
        change Table.key (none, r.tableName) (Table.pushForeignKey r.foreignKey) tables)
        tables := by
    intro tables
    cases skipFk <;> rfl
  have hfk : ∀ (r : FkRow) t, (Table.pushForeignKey r.foreignKey t).key = t.key := fun _ _ => rfl
  have hidx : ∀ (r : IdxRow) t, (Table.pushIndexPart r.part t).key = t.key := fun _ _ => rfl
  rw [introspect, hread, foldl_change hfk, foldl_change hidx, foldl_change key_mark, List.map_map,
    List.map_map]
  refine List.map_congr_left fun t _ => ?_
  simp only [Answers.finish, Function.comp, foldl_pushForeignKey, foldl_pushIndexPart]
  rfl

theorem foldl_est (rows : List EstRow) (t : Table) : ∃ rowEstimate,
    rows.foldl (fun t r => r.mark t) t =
      { t with
        rowEstimate
        kind :=
          if rows.any fun r => eqIgnoreAsciiCase r.tableType "VIEW" then "view" else t.kind } := by
  induction rows generalizing t with
  | nil => exact ⟨t.rowEstimate, rfl⟩
  | cons r rows ih =>
    obtain ⟨rowEstimate, heq⟩ := ih (r.mark t)
    refine ⟨rowEstimate, ?_⟩
    rw [List.foldl_cons, heq, List.any_cons, EstRow.mark]
    by_cases hview : eqIgnoreAsciiCase r.tableType "VIEW" = true
    · simp [hview]
    · simp [hview]

/-- **What the loops make of the rows**: a table for every one that has a column, with the rows of
its name. -/
theorem introspect_spec (skipFk : Bool) (a : Answers) :
    ((introspect skipFk a).map Table.key).Nodup ∧
    (∀ k, k ∈ (introspect skipFk a).map Table.key ↔ k ∈ a.cols.map ColsRow.key) ∧
    ∀ t ∈ introspect skipFk a,
      t.columns = (a.cols.filter fun r => r.key = t.key).map ColsRow.column ∧
      t.foreignKeys = ((a.fksRead skipFk).filter fun r => r.key = t.key).map FkRow.foreignKey ∧
      t.indexes = ((a.idxs.filter fun r => r.key = t.key).map IdxRow.part).foldl
        pushIndexPart [] ∧
      t.kind = if (a.ests.filter fun r => r.key = t.key).any
        fun r => eqIgnoreAsciiCase r.tableType "VIEW" then "view" else "table" := by
  have hgathered : Gathered Table.key Table.opened ColsRow.key (fun r t => t.pushColumn r.column)
      a.cols a.opened :=
    gathered_foldl (f := fun (r : ColsRow) t => Table.pushColumn r.column t) (fun _ => rfl)
      (fun _ _ => rfl) a.cols
  have hfinish : ∀ t, ∃ rowEstimate, a.finish skipFk t =
      { t with
        rowEstimate
        kind := if (a.ests.filter fun r => r.key = t.key).any
          fun r => eqIgnoreAsciiCase r.tableType "VIEW" then "view" else t.kind
        foreignKeys := t.foreignKeys ++
          ((a.fksRead skipFk).filter fun r => r.key = t.key).map FkRow.foreignKey
        indexes := ((a.idxs.filter fun r => r.key = t.key).map IdxRow.part).foldl pushIndexPart
          t.indexes } := by
    intro t
    rw [Answers.finish, foldl_pushForeignKey, foldl_pushIndexPart]
    exact foldl_est _ _
  have hkeys : (introspect skipFk a).map Table.key = a.opened.map Table.key := by
    rw [introspect_eq, List.map_map]
    refine List.map_congr_left fun t _ => ?_
    obtain ⟨rowEstimate, heq⟩ := hfinish t
    exact (congrArg Table.key heq).trans rfl
  rw [hkeys]
  refine ⟨hgathered.nodup, hgathered.mem_iff, fun t' ht' => ?_⟩
  rw [introspect_eq] at ht'
  obtain ⟨t, ht, rfl⟩ := List.mem_map.1 ht'
  have hopened := hgathered.eq t ht
  rw [foldl_pushColumn] at hopened
  obtain ⟨rowEstimate, heq⟩ := hfinish t
  rw [heq, hopened]
  exact ⟨rfl, rfl, rfl, rfl⟩

/-! ### The rows of a table -/

namespace Server

variable {K : Type} {collate : String → K} {s : Server} {t : MysqlTable} {a : Answers}

/-- What a table is found by. -/
def keyOf (t : MysqlTable) : Option String × String := (none, t.name)

theorem nodup_keyOf (hs : s.WellFormed collate) : (s.current.map keyOf).Nodup := by
  refine hs.names.of_map.map_on fun t ht u hu h => ?_
  exact List.inj_on_of_nodup_map hs.names ht hu (congrArg Prod.snd h)

/-- Rows that are listed table by table, and one of the tables. -/
theorem filter_rows {ρ : Type} {R : MysqlTable → List ρ} {key : ρ → Option String × String}
    (hs : s.WellFormed collate) (hkey : ∀ t, ∀ r ∈ R t, key r = keyOf t) (ht : t ∈ s.current) :
    (s.current.flatMap R).filter (fun r => key r = keyOf t) = R t :=
  filter_flatMap_key (nodup_keyOf hs) (fun t _ => hkey t) ht

theorem key_of_mem_colsRows (t : MysqlTable) : ∀ r ∈ t.colsRows, r.key = keyOf t := by
  intro r hr
  obtain ⟨c, -, rfl⟩ := List.mem_map.1 hr
  rfl

theorem key_of_mem_fkRows (t : MysqlTable) : ∀ r ∈ t.fkRows, r.key = keyOf t := by
  intro r hr
  obtain ⟨k, -, hr⟩ := List.mem_flatMap.1 hr
  obtain ⟨p, -, rfl⟩ := List.mem_map.1 hr
  rfl

/-! ### Columns -/

theorem filter_cols [LinearOrder K] (hs : s.WellFormed collate) (ha : a.Of collate s)
    (ht : t ∈ s.current) :
    a.cols.filter (fun r => r.key = keyOf t) = t.colsRows := by
  refine ha.cols.filter_eq_of_lt ?_ ?_
  · rw [colsSql, filter_rows hs key_of_mem_colsRows ht]
  · refine List.pairwise_map.2 ((pairwise_zipIdx _ _).imp fun {c d} hcd => ?_)
    simpa [ColsRow.order, Prod.Lex.toLex_lt_toLex] using hcd

theorem columnKey_eq_pri (t : MysqlTable) (name : String) : t.columnKey name = "PRI" ↔
    name ∈ t.primaryKey ∨ t.primaryKey = [] ∧ name ∈ t.promoted := by
  rw [MysqlTable.columnKey]
  split_ifs with h h h <;> simp_all

/-- The columns are shown as they are when none is displayed as part of a key that is not there. -/
theorem map_cols_iff (hs : s.WellFormed collate) (ht : t ∈ s.current) :
    t.colsRows.map ColsRow.column = t.columns.map (columnOf t) ↔
      (t.primaryKey = [] → t.promoted = []) := by
  have hnullable : ∀ b : Bool, eqIgnoreAsciiCase (if b then "YES" else "NO") "YES" = b := by decide
  have hmap : t.colsRows.map ColsRow.column = t.columns.map fun c =>
      ⟨c.name, c.columnType, c.isNullable, t.columnKey c.name = "PRI"⟩ := by
    rw [MysqlTable.colsRows, List.map_map]
    conv_rhs => rw [← List.zipIdx_map_fst 1 t.columns, List.map_map]
    refine List.map_congr_left fun c _ => ?_
    simp [ColsRow.column, hnullable]
  rw [hmap, List.map_inj_left]
  constructor
  · intro h hnone
    refine List.eq_nil_iff_forall_not_mem.2 fun name hname => ?_
    obtain ⟨c, hc, rfl⟩ := List.mem_map.1 (hs.promoted t ht name hname)
    have hpk := congrArg Column.pk (h c hc)
    simp [columnOf, columnKey_eq_pri, hnone, hname] at hpk
  · intro h c _
    simp only [columnOf, columnKey_eq_pri, Column.mk.injEq, decide_eq_decide, true_and]
    refine ⟨fun hpri => hpri.elim id fun hpromoted => ?_, .inl⟩
    rw [h hpromoted.1] at hpromoted
    exact absurd hpromoted.2 List.not_mem_nil

/-! ### Foreign keys -/

theorem fks_perm [LinearOrder K] (hs : s.WellFormed collate) (ha : a.Of collate s)
    (ht : t ∈ s.current) (skipFk : Bool) :
    (((a.fksRead skipFk).filter fun r => r.key = keyOf t).map FkRow.foreignKey).Perm
      (if skipFk then [] else t.foreignKeys.flatMap fun k => k.pairs.map fun p =>
        ⟨p.1, k.table, p.2, none⟩) := by
  cases skipFk with
  | true => exact .refl _
  | false =>
    have hrows : (t.fkRows).map FkRow.foreignKey = t.foreignKeys.flatMap fun k =>
        k.pairs.map fun p => ⟨p.1, k.table, p.2, none⟩ := by
      rw [MysqlTable.fkRows, List.map_flatMap]
      refine List.flatMap_congr fun k _ => ?_
      rw [List.map_map]
      rfl
    change ((a.fks.filter fun r => r.key = keyOf t).map FkRow.foreignKey).Perm _
    rw [if_neg Bool.false_ne_true, ← hrows, ← filter_rows hs key_of_mem_fkRows ht]
    exact (ha.fks.perm.filter _).map _

/-- The foreign keys are shown as they are when they are read and none goes to another schema. -/
theorem perm_foreignKeysOf_iff (hs : s.WellFormed collate) (ht : t ∈ s.current) (skipFk : Bool) :
    (if skipFk then [] else t.foreignKeys.flatMap fun k => k.pairs.map fun p =>
        (⟨p.1, k.table, p.2, none⟩ : ForeignKey)).Perm (s.foreignKeysOf t) ↔
      ∀ k ∈ t.foreignKeys, skipFk = false ∧ k.schema = s.database := by
  have hmem : ∀ k ∈ t.foreignKeys, ∃ p : String × String, (⟨p.1, k.table, p.2,
      if k.schema = s.database then none else some k.schema⟩ : ForeignKey) ∈ s.foreignKeysOf t := by
    intro k hk
    obtain ⟨p, hp⟩ := List.exists_mem_of_ne_nil _ (hs.pairs t ht k hk)
    exact ⟨p, List.mem_flatMap.2 ⟨k, hk, List.mem_map_of_mem hp⟩⟩
  constructor
  · intro h k hk
    obtain ⟨p, hp⟩ := hmem k hk
    have hread := h.symm.subset hp
    cases skipFk with
    | true => exact absurd hread List.not_mem_nil
    | false =>
      obtain ⟨k', -, hread⟩ := List.mem_flatMap.1 hread
      obtain ⟨p', -, heq⟩ := List.mem_map.1 hread
      have hschema := congrArg ForeignKey.referencesSchema heq
      refine ⟨rfl, ?_⟩
      by_contra hne
      rw [if_neg hne] at hschema
      cases hschema
  · intro h
    cases hnil : t.foreignKeys with
    | nil => simp [foreignKeysOf, hnil]
    | cons k ks =>
      have hskip := (h k (hnil ▸ List.mem_cons_self)).1
      rw [if_neg (by simp [hskip]), ← hnil, foreignKeysOf]
      refine .of_eq (List.flatMap_congr fun k hk => ?_)
      rw [if_pos (h k hk).2]

/-! ### Indexes -/

theorem text_of_part {hasExpression : Bool} {i : MysqlIndex} {name : String} {n : ℕ} (p : KeyPart)
    (hp : p ≠ .column "" ∧ p ≠ .expression "") (hs : s.hasExpression = hasExpression) :
    (⟨name, i.name, if i.unique then 0 else 1, p.columnName,
      if hasExpression then p.expressionText else none, n⟩ : IdxRow).text = s.partText p := by
  cases p with
  | column name =>
    have hne : name ≠ "" := fun h => hp.1 (by rw [h])
    simp [IdxRow.text, KeyPart.columnName, partText, Option.filter, hne]
  | expression text =>
    have hne : text ≠ "" := fun h => hp.2 (by rw [h])
    cases hasExpression <;>
      simp [IdxRow.text, KeyPart.columnName, KeyPart.expressionText, partText, Option.filter, hs,
        hne]

theorem map_indexRows (hs : s.WellFormed collate) (ht : t ∈ s.current) {i : MysqlIndex}
    (hi : i ∈ t.indexes) :
    (indexRows s.hasExpression t i).map IdxRow.part = (s.indexOf i).parts := by
  rw [indexRows, List.map_map, Index.parts, indexOf]
  simp only [List.map_map]
  conv_rhs => rw [← List.zipIdx_map_fst 1 i.parts, List.map_map]
  refine List.map_congr_left fun p hp => ?_
  have hmem : p.1 ∈ i.parts := by
    rw [← List.zipIdx_map_fst 1 i.parts]
    exact List.mem_map_of_mem hp
  have hunique : ∀ b : Bool, decide ((if b then (0 : ℤ) else 1) = 0) = b := by decide
  simp only [Function.comp, IdxRow.part, IndexPart.mk.injEq]
  exact ⟨trivial, text_of_part p.1 (hs.columnName_ne t ht i hi _ hmem) rfl, hunique _⟩

theorem key_of_mem_indexRows {hasExpression : Bool} {i : MysqlIndex} {r : IdxRow}
    (hr : r ∈ indexRows hasExpression t i) : r.key = keyOf t ∧ r.indexName = i.name := by
  obtain ⟨p, -, rfl⟩ := List.mem_map.1 hr
  exact ⟨rfl, rfl⟩

/-- The rows of a table in `IDX_SQL` are those of its indexes but the primary one. -/
theorem filter_idxSql [LinearOrder K] (hs : s.WellFormed collate) (ht : t ∈ s.current) :
    (s.idxSql collate).filter (fun r => r.key = keyOf t) =
      t.indexes.flatMap (indexRows s.hasExpression t) := by
  have hkey : ∀ t : MysqlTable, ∀ r ∈ t.statistics.flatMap (indexRows s.hasExpression t),
      r.key = keyOf t := by
    intro t r hr
    obtain ⟨i, -, hr⟩ := List.mem_flatMap.1 hr
    exact (key_of_mem_indexRows hr).1
  have hprimary : ((if t.primaryKey = [] then []
      else [(⟨"PRIMARY", true, t.primaryKey.map .column⟩ : MysqlIndex)]).flatMap
        (indexRows s.hasExpression t)).filter
          (fun r => collate r.indexName ≠ collate "PRIMARY") = [] := by
    refine List.filter_eq_nil_iff.2 fun r hr hne => ?_
    obtain ⟨i, hi, hr⟩ := List.mem_flatMap.1 hr
    split_ifs at hi
    · exact List.not_mem_nil hi
    · rw [List.mem_singleton.1 hi] at hr
      rw [(key_of_mem_indexRows hr).2] at hne
      exact of_decide_eq_true hne rfl
  have hothers : (t.indexes.flatMap (indexRows s.hasExpression t)).filter
      (fun r => collate r.indexName ≠ collate "PRIMARY") =
        t.indexes.flatMap (indexRows s.hasExpression t) := by
    refine List.filter_eq_self.2 fun r hr => decide_eq_true ?_
    obtain ⟨i, hi, hr⟩ := List.mem_flatMap.1 hr
    rw [(key_of_mem_indexRows hr).2]
    exact hs.indexName_ne t ht i hi
  rw [idxSql, List.filter_comm, filter_rows hs hkey ht, MysqlTable.statistics, List.flatMap_append,
    List.filter_append, hprimary, hothers, List.nil_append]

theorem pairwise_indexRows [LinearOrder K] (hs : s.WellFormed collate) (ht : t ∈ s.current) :
    ((sortBy (fun i => collate i.name) t.indexes).flatMap
      (indexRows s.hasExpression t)).Pairwise fun a b => a.order collate < b.order collate := by
  refine List.pairwise_flatMap.2 ⟨fun i _ => ?_, ?_⟩
  · refine List.pairwise_map.2 ((pairwise_zipIdx _ _).imp fun {k l} hkl => ?_)
    simpa [IdxRow.order, Prod.Lex.toLex_lt_toLex] using hkl
  · refine (pairwise_lt_sortBy (hs.indexNames t ht)).imp fun {i j} hij x hx y hy => ?_
    obtain ⟨k, -, rfl⟩ := List.mem_map.1 hx
    obtain ⟨l, -, rfl⟩ := List.mem_map.1 hy
    simp [IdxRow.order, Prod.Lex.toLex_lt_toLex, hij]

/-- **The indexes of a table.** -/
theorem indexes_perm [LinearOrder K] (hs : s.WellFormed collate) (ha : a.Of collate s)
    (ht : t ∈ s.current) :
    (((a.idxs.filter fun r => r.key = keyOf t).map IdxRow.part).foldl pushIndexPart []).Perm
      (t.indexes.map s.indexOf) := by
  have hsorted := sortBy_perm (fun i : MysqlIndex => collate i.name) t.indexes
  have hrows : a.idxs.filter (fun r => r.key = keyOf t) =
      (sortBy (fun i => collate i.name) t.indexes).flatMap (indexRows s.hasExpression t) := by
    refine ha.idxs.filter_eq_of_lt ?_ (pairwise_indexRows hs ht)
    rw [filter_idxSql hs ht]
    exact (hsorted.flatMap_right _).symm
  have hnames : ((sortBy (fun i => collate i.name) t.indexes).map
      fun i => (s.indexOf i).name).Nodup := by
    refine (hsorted.map _).nodup_iff.2 ((hs.indexNames t ht).of_map.map_on fun i hi j hj h => ?_)
    exact List.inj_on_of_nodup_map (hs.indexNames t ht) hi hj (congrArg collate h)
  have hparts : ∀ i ∈ sortBy (fun i => collate i.name) t.indexes, (s.indexOf i).columns ≠ [] := by
    intro i hi
    simpa [indexOf] using hs.parts t ht i (hsorted.subset hi)
  rw [hrows, foldl_map_flatMap (fun i hi => map_indexRows hs ht (hsorted.subset hi)) hparts hnames]
  exact hsorted.map _

/-- The kind of a table. -/
theorem kind_eq [LinearOrder K] (hs : s.WellFormed collate) (ha : a.Of collate s)
    (ht : t ∈ s.current) :
    ((a.ests.filter fun r => r.key = keyOf t).any
      fun r => eqIgnoreAsciiCase r.tableType "VIEW") = t.isView := by
  have hrows : (s.estSql.filter fun r => r.key = keyOf t) = [t.estRow] := by
    rw [estSql, List.map_eq_flatMap]
    refine filter_rows hs (fun t r hr => ?_) ht
    rw [List.mem_singleton.1 hr]
    rfl
  have hperm : (a.ests.filter fun r => r.key = keyOf t).Perm [t.estRow] :=
    hrows ▸ ha.ests.filter _
  have hview : ∀ b : Bool, eqIgnoreAsciiCase (if b then "VIEW" else "BASE TABLE") "VIEW" = b := by
    decide
  rw [List.perm_singleton.1 hperm, List.any_cons, List.any_nil, Bool.or_false]
  exact hview _

/-! ### The schema -/

/-- Every table is among the rows, as it has a column. -/
theorem mem_keys_iff [LinearOrder K] (hs : s.WellFormed collate) (ha : a.Of collate s)
    (k : Option String × String) : k ∈ a.cols.map ColsRow.key ↔ ∃ t ∈ s.current, k = keyOf t := by
  constructor
  · intro h
    obtain ⟨r, hr, rfl⟩ := List.mem_map.1 h
    obtain ⟨t, ht, hr⟩ := List.mem_flatMap.1 (ha.cols.perm.subset hr)
    exact ⟨t, ht, key_of_mem_colsRows t r hr⟩
  · rintro ⟨t, ht, rfl⟩
    obtain ⟨c, cs, hcolumns⟩ := List.exists_cons_of_ne_nil (hs.columns t ht)
    have hne : t.colsRows ≠ [] := by
      rw [MysqlTable.colsRows, hcolumns]
      exact List.cons_ne_nil _ _
    obtain ⟨r, hr⟩ := List.exists_mem_of_ne_nil _ hne
    rw [← key_of_mem_colsRows t r hr]
    exact List.mem_map_of_mem (ha.cols.perm.symm.subset (List.mem_flatMap.2 ⟨t, ht, hr⟩))

theorem key_of_shows {u : Table} (h : s.Shows t u) : u.key = keyOf t := by
  rw [Table.key, h.schema, h.name]
  rfl

/-- When the table that is made of the rows of a table shows it. -/
theorem shows_iff [LinearOrder K] (hs : s.WellFormed collate) (ha : a.Of collate s)
    {skipFk : Bool} (ht : t ∈ s.current) {u : Table} (hu : u ∈ introspect skipFk a)
    (hkey : u.key = keyOf t) : s.Shows t u ↔
      (∀ k ∈ t.foreignKeys, skipFk = false ∧ k.schema = s.database) ∧
        (t.primaryKey = [] → t.promoted = []) := by
  obtain ⟨hcolumns, hfks, hidxs, hkind⟩ := (introspect_spec skipFk a).2.2 u hu
  rw [hkey] at hcolumns hfks hidxs hkind
  rw [filter_cols hs ha ht] at hcolumns
  have hperm := fks_perm hs ha ht skipFk
  rw [← hfks] at hperm
  rw [← perm_foreignKeysOf_iff hs ht, ← map_cols_iff hs ht, ← hcolumns]
  constructor
  · exact fun h => ⟨hperm.symm.trans h.foreignKeys, h.columns⟩
  · intro h
    refine ⟨congrArg Prod.fst hkey, congrArg Prod.snd hkey, ?_, h.2, hperm.trans h.1, ?_⟩
    · rw [hkind, kind_eq hs ha ht]
    · rw [hidxs]
      exact indexes_perm hs ha ht

/-- Of a shown foreign key the snapshot knows the table it is one to. -/
theorem refers_of_shows {u : Table} {name : String} (h : s.Shows t u)
    (hrefers : ∃ f ∈ u.foreignKeys, f.referencesSchema = none ∧ f.referencesTable = name) :
    s.Refers t name := by
  obtain ⟨f, hf, hschema, rfl⟩ := hrefers
  obtain ⟨k, hk, hf⟩ := List.mem_flatMap.1 (h.foreignKeys.subset hf)
  obtain ⟨p, -, rfl⟩ := List.mem_map.1 hf
  refine ⟨k, hk, ?_, rfl⟩
  by_contra hne
  rw [if_neg hne] at hschema
  cases hschema

/-- **The tables show the schema** exactly when it is plain. -/
theorem shown_iff [LinearOrder K] (hs : s.WellFormed collate) (ha : a.Of collate s)
    (skipFk : Bool) :
    Shown s.current s.Shows s.Refers (introspect skipFk a) ↔ s.Plain skipFk := by
  obtain ⟨hnodup, hkeys, -⟩ := introspect_spec skipFk a
  constructor
  · intro h
    have hplain : ∀ t ∈ s.current,
        (∀ k ∈ t.foreignKeys, skipFk = false ∧ k.schema = s.database) ∧
          (t.primaryKey = [] → t.promoted = []) := by
      intro t ht
      obtain ⟨u, hu, hshows⟩ := h.all t ht
      exact (shows_iff hs ha ht hu (key_of_shows hshows)).1 hshows
    exact ⟨fun t ht => (hplain t ht).1, fun t ht => (hplain t ht).2⟩
  · intro h
    have hsource : ∀ u ∈ introspect skipFk a, ∃ t ∈ s.current, s.Shows t u := by
      intro u hu
      obtain ⟨t, ht, hkey⟩ := (mem_keys_iff hs ha _).1 ((hkeys _).1 (List.mem_map_of_mem hu))
      exact ⟨t, ht, (shows_iff hs ha ht hu hkey).2 ⟨h.foreignKeys t ht, h.promoted t ht⟩⟩
    refine ⟨?_, fun t ht => ?_, hsource, fun u hu v hv hrefers => ?_⟩
    · refine hnodup.of_map.map_on fun u hu v hv hname => ?_
      obtain ⟨t, -, hshows⟩ := hsource u hu
      obtain ⟨t', -, hshows'⟩ := hsource v hv
      refine List.inj_on_of_nodup_map hnodup hu hv ?_
      rw [Table.key, Table.key, hshows.schema, hshows'.schema, hname]
    · have hmem := (hkeys _).2 ((mem_keys_iff hs ha _).2 ⟨t, ht, rfl⟩)
      obtain ⟨u, hu, hkey⟩ := List.mem_map.1 hmem
      exact ⟨u, hu, (shows_iff hs ha ht hu hkey).2 ⟨h.foreignKeys t ht, h.promoted t ht⟩⟩
    · obtain ⟨t, ht, hshows⟩ := hsource u hu
      obtain ⟨t', -, hshows'⟩ := hsource v hv
      obtain ⟨f, hf, hschema, hname⟩ := Table.refersTo_iff.1 hrefers
      rw [hshows'.schema] at hschema
      exact ⟨t, ht, hshows, refers_of_shows hshows ⟨f, hf, hschema, hname⟩⟩

end Server

end Mysql
end Introspect
end AgentDb
