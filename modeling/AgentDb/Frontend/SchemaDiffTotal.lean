import AgentDb.Frontend.SchemaDiff

/-!
# When the comparison finds nothing

`compareCatalogs` finds no difference exactly when the catalogs look alike: the texts by which it
compares their tables, indexes and foreign keys are the same. The text of a column says all that is
compared of it. The key of a table, the value of an index and that of a foreign key join names
without escaping them, so catalogs can look alike and differ.
-/

namespace AgentDb
namespace Frontend

/-! ### What is compared -/

/-- Whatever stands on one side stands against something on the other. -/
def Paired {α : Type} (R : α → α → Prop) (xs ys : List α) : Prop :=
  (∀ x ∈ xs, ∃ y ∈ ys, R x y) ∧ ∀ y ∈ ys, ∃ x ∈ xs, R x y

/-- Columns of one name and one type, but for case and blanks around it. -/
def SameColumn (l : Locale) (c d : CatalogColumn) : Prop :=
  c.name = d.name ∧ l.toLocaleLowerCase (trim c.dataType) = l.toLocaleLowerCase (trim d.dataType) ∧
    c.nullable = d.nullable ∧ c.pk = d.pk

/-- Tables of one name and kind, with the same columns, indexes and foreign keys in any order. -/
structure SameTable (l : Locale) (t u : CatalogTable) : Prop where
  schema : t.schema = u.schema
  name : t.name = u.name
  kind : t.kind = u.kind
  columns : Paired (SameColumn l) t.columns u.columns
  indexes : Paired (· = ·) t.indexes u.indexes
  foreignKeys : t.foreignKeys.Perm u.foreignKeys

/-- The same tables in any order. -/
def SameSchema (l : Locale) (a b : Catalog) : Prop := Paired (SameTable l) a.tables b.tables

/-- The keys of the tables are distinct, and the names of the columns and indexes of each. -/
structure Distinct (c : Catalog) : Prop where
  tables : (c.tables.map tableKey).Nodup
  columns : ∀ t ∈ c.tables, (t.columns.map (·.name)).Nodup
  indexes : ∀ t ∈ c.tables, (t.indexes.map (·.name)).Nodup

/-- Tables with the same texts. -/
structure LooksLike (l : Locale) (t u : CatalogTable) : Prop where
  key : tableKey t = tableKey u
  kind : t.kind = u.kind
  columns : Paired (SameColumn l) t.columns u.columns
  indexes : Paired (fun i j => i.name = j.name ∧ indexValue i = indexValue j) t.indexes u.indexes
  foreignKeys : (t.foreignKeys.map fun k => (k.column, foreignKeyValue k)).Perm
    (u.foreignKeys.map fun k => (k.column, foreignKeyValue k))

/-- Catalogs with the same texts. -/
def LooksAlike (l : Locale) (a b : Catalog) : Prop := Paired (LooksLike l) a.tables b.tables

/-- What the texts of two tables do not show: another schema or name under the same key, other
columns of an index, other foreign keys. -/
def Hides (t u : CatalogTable) : Prop :=
  t.schema ≠ u.schema ∨ t.name ≠ u.name ∨
    (∃ i ∈ t.indexes, ∃ j ∈ u.indexes, i.name = j.name ∧ i.columns ≠ j.columns) ∨
    ¬ t.foreignKeys.Perm u.foreignKeys

variable {l : Locale} {t u : CatalogTable} {a b : Catalog}

/-! ### Named objects -/

/-- Everything listed for two tables of named things is paired, when no key is listed. -/
theorem paired_of_outerJoin {α β : Type} {key : α → String} (value : α → β) (R : β → β → Prop)
    {xs ys : List α} (hx : (xs.map key).Nodup) (hy : (ys.map key).Nodup) :
    (∀ p ∈ Table.outerJoin (.ofList (xs.map fun x => (key x, value x)))
        (.ofList (ys.map fun y => (key y, value y))),
      ∃ v w, p.2 = (some v, some w) ∧ R v w) ↔
      Paired (fun x y => key x = key y ∧ R (value x) (value y)) xs ys := by
  have hget : ∀ {zs : List α}, (zs.map key).Nodup → ∀ {k v},
      (Table.ofList (zs.map fun z => (key z, value z))).get k = some v ↔
        ∃ z ∈ zs, key z = k ∧ value z = v := by
    intro zs hz k v
    have hnodup : ((zs.map fun z => (key z, value z)).map Prod.fst).Nodup := by
      rw [List.map_map]
      exact hz
    rw [Table.get_ofList hnodup, List.mem_map]
    simp only [Prod.mk.injEq]
  constructor
  · intro h
    constructor
    · intro x hxs
      obtain ⟨v, w, hp, hR⟩ := h (key x, some (value x), _)
        (Table.mem_outerJoin.2 ⟨((hget hx).2 ⟨x, hxs, rfl, rfl⟩).symm, rfl, .inl rfl⟩)
      obtain ⟨hv, hw⟩ := Prod.mk.inj hp
      obtain ⟨y, hys, hkey, rfl⟩ := (hget hy).1 hw
      exact ⟨y, hys, hkey.symm, Option.some.inj hv ▸ hR⟩
    · intro y hys
      obtain ⟨v, w, hp, hR⟩ := h (key y, _, some (value y))
        (Table.mem_outerJoin.2 ⟨rfl, ((hget hy).2 ⟨y, hys, rfl, rfl⟩).symm, .inr rfl⟩)
      obtain ⟨hv, hw⟩ := Prod.mk.inj hp
      obtain ⟨x, hxs, hkey, rfl⟩ := (hget hx).1 hv
      exact ⟨x, hxs, hkey, Option.some.inj hw ▸ hR⟩
  · rintro ⟨hleft, hright⟩ ⟨k, v, w⟩ hmem
    obtain ⟨hv, hw, hsome⟩ := Table.mem_outerJoin.1 hmem
    rcases hsome with hsome | hsome
    · obtain ⟨v, rfl⟩ := Option.isSome_iff_exists.1 hsome
      obtain ⟨x, hxs, rfl, rfl⟩ := (hget hx).1 hv.symm
      obtain ⟨y, hys, hkey, hR⟩ := hleft x hxs
      rw [(hget hy).2 ⟨y, hys, hkey.symm, rfl⟩] at hw
      exact ⟨_, _, by rw [hw], hR⟩
    · obtain ⟨w, rfl⟩ := Option.isSome_iff_exists.1 hsome
      obtain ⟨y, hys, rfl, rfl⟩ := (hget hy).1 hw.symm
      obtain ⟨x, hxs, hkey, hR⟩ := hright y hys
      rw [(hget hx).2 ⟨x, hxs, hkey, rfl⟩] at hv
      exact ⟨_, _, by rw [hv], hR⟩

theorem columnSignature_eq_iff (l : Locale) (c d : CatalogColumn) :
    columnSignature l c = columnSignature l d ↔
      l.toLocaleLowerCase (trim c.dataType) = l.toLocaleLowerCase (trim d.dataType) ∧
        c.nullable = d.nullable ∧ c.pk = d.pk := by
  constructor
  · intro h
    unfold columnSignature at h
    generalize l.toLocaleLowerCase (trim c.dataType) = x at h ⊢
    generalize l.toLocaleLowerCase (trim d.dataType) = y at h ⊢
    simp only [String.intercalate_cons_cons, String.intercalate_singleton] at h
    have hlist := congrArg (fun s : String => s.toList.reverse) h
    -- read from the end, the flags come before the type
    cases hc : c.nullable <;> cases hc' : c.pk <;> cases hd : d.nullable <;> cases hd' : d.pk <;>
      simp [hc, hc', hd, hd'] at hlist ⊢
    all_goals exact String.toList_inj.1 hlist
  · rintro ⟨htype, hnullable, hpk⟩
    rw [columnSignature, columnSignature, htype, hnullable, hpk]

theorem allColumnDiffs_eq_nil (ht : (t.columns.map (·.name)).Nodup)
    (hu : (u.columns.map (·.name)).Nodup) :
    allColumnDiffs l t u = [] ↔ Paired (SameColumn l) t.columns u.columns := by
  have hpaired :=
    paired_of_outerJoin id (fun c d => columnSignature l c = columnSignature l d) ht hu
  simp only [id, columnSignature_eq_iff] at hpaired
  refine Iff.trans ?_ hpaired
  rw [allColumnDiffs, List.flatMap_eq_nil_iff]
  refine forall₂_congr fun p hp => ?_
  obtain ⟨name, x, y⟩ := p
  cases x with
  | none =>
    cases y with
    | none => exact absurd hp Table.not_mem_outerJoin
    | some base => simp [columnDiffs]
  | some column =>
    cases y with
    | none => simp [columnDiffs]
    | some base => simp [columnDiffs, columnSignature_eq_iff]

theorem indexes_eq_nil (table : String) (ht : (t.indexes.map (·.name)).Nodup)
    (hu : (u.indexes.map (·.name)).Nodup) :
    (Table.outerJoin (indexMap t) (indexMap u)).flatMap (namedDiffs table .index) = [] ↔
      Paired (fun i j => i.name = j.name ∧ indexValue i = indexValue j) t.indexes u.indexes := by
  have hpaired := paired_of_outerJoin indexValue Eq ht hu
  refine Iff.trans ?_ hpaired
  rw [List.flatMap_eq_nil_iff]
  refine forall₂_congr fun p hp => ?_
  obtain ⟨name, x, y⟩ := p
  cases x with
  | none =>
    cases y with
    | none => exact absurd hp Table.not_mem_outerJoin
    | some base => simp [namedDiffs]
  | some value =>
    cases y with
    | none => simp [namedDiffs]
    | some base => simp [namedDiffs, eq_comm]

/-! ### Foreign keys -/

theorem unmatchedValues_eq_nil {xs ys : List String} :
    unmatchedValues xs ys = [] ↔ xs.Subperm ys := by
  induction xs generalizing ys with
  | nil => simp [unmatchedValues, List.nil_subperm]
  | cons x xs ih =>
    rw [unmatchedValues]
    by_cases hmem : x ∈ ys
    · rw [if_pos hmem, ih]
      exact (List.subperm_cons x).symm.trans (List.perm_cons_erase hmem).symm.subperm_left
    · rw [if_neg hmem]
      exact iff_of_false (List.cons_ne_nil _ _) fun h => hmem (h.subset List.mem_cons_self)

theorem unmatchedDiffs_eq_nil {table column : String} {xs ys : List String} :
    unmatchedDiffs table column xs ys = [] ↔ xs.Perm ys := by
  unfold unmatchedDiffs
  rw [List.append_eq_nil_iff, List.mapIdx_eq_nil_iff, List.mapIdx_eq_nil_iff,
    unmatchedValues_eq_nil, unmatchedValues_eq_nil]
  exact ⟨fun h => h.1.antisymm h.2, fun h => ⟨h.subperm, h.symm.subperm⟩⟩

theorem foreignKeyDiffs_eq_nil {table column : String} {xs ys : List String} :
    foreignKeyDiffs table column xs ys = [] ↔ xs.Perm ys := by
  unfold foreignKeyDiffs
  split
  · rename_i value base
    by_cases hne : value ≠ base
    · rw [if_pos hne, List.singleton_perm_singleton]
      exact iff_of_false (List.cons_ne_nil _ _) hne
    · rw [if_neg hne, unmatchedDiffs_eq_nil]
  · exact unmatchedDiffs_eq_nil

/-- The values of one column, sorted. -/
theorem foreignKeyValues_eq (t : CatalogTable) (column : String) :
    foreignKeyValues t column =
      Sorting.sortBy codeUnits ((t.foreignKeys.filter (·.column = column)).map foreignKeyValue) := by
  have hgroup : ∀ foreignKeys : List CatalogForeignKey,
      ((foreignKeys.foldl (fun grouped foreignKey => grouped.put foreignKey.column
        ((grouped.get foreignKey.column).getD [] ++ [foreignKeyValue foreignKey]))
        (Table.empty : Table String (List String))).get column).getD [] =
      (foreignKeys.filter (·.column = column)).map foreignKeyValue := by
    intro foreignKeys
    induction foreignKeys using List.reverseRecOn with
    | nil => rfl
    | append_singleton foreignKeys foreignKey ih =>
      rw [List.foldl_append, List.foldl_cons, List.foldl_nil, Table.get_put, List.filter_append,
        List.map_append]
      by_cases hcolumn : foreignKey.column = column
      · rw [if_pos hcolumn.symm, Option.getD_some, hcolumn, ih]
        simp [hcolumn]
      · rw [if_neg (Ne.symm hcolumn), ih]
        simp [hcolumn]
  unfold foreignKeyValues groupForeignKeysByColumn
  dsimp only
  rw [Table.get_mapRows, ← hgroup]
  cases (t.foreignKeys.foldl (fun grouped foreignKey => grouped.put foreignKey.column
        ((grouped.get foreignKey.column).getD [] ++ [foreignKeyValue foreignKey]))
        (Table.empty : Table String (List String))).get column with
  | none => simp [Sorting.sortBy]
  | some values => rfl

/-- Pairs are the same when the second parts are, for every first part. -/
theorem perm_pairs_iff {α β : Type} [DecidableEq α] [DecidableEq β] {xs ys : List (α × β)} :
    xs.Perm ys ↔ ∀ a, ((xs.filter (·.1 = a)).map Prod.snd).Perm
      ((ys.filter (·.1 = a)).map Prod.snd) := by
  have hcount : ∀ (zs : List (α × β)) (p : α × β),
      ((zs.filter (·.1 = p.1)).map Prod.snd).count p.2 = zs.count p := by
    intro zs p
    induction zs with
    | nil => rfl
    | cons z zs ih =>
      rw [List.count_cons, List.filter_cons]
      by_cases hz : z.1 = p.1
      · rw [if_pos (decide_eq_true hz), List.map_cons, List.count_cons, ih]
        simp [Prod.ext_iff, hz]
      · rw [if_neg (by simpa using hz), ih]
        simp [Prod.ext_iff, hz]
  constructor
  · exact fun h a => (h.filter _).map _
  · intro h
    refine List.perm_iff_count.2 fun p => ?_
    rw [← hcount, ← hcount, (h p.1).count_eq]

theorem foreignKeys_eq_nil (table : String) :
    ((foreignKeyColumns t u).flatMap fun column =>
        foreignKeyDiffs table column (foreignKeyValues t column) (foreignKeyValues u column)) = [] ↔
      (t.foreignKeys.map fun k => (k.column, foreignKeyValue k)).Perm
        (u.foreignKeys.map fun k => (k.column, foreignKeyValue k)) := by
  have hvalues : ∀ (t : CatalogTable) (column : String), (foreignKeyValues t column).Perm
      (((t.foreignKeys.map fun k => (k.column, foreignKeyValue k)).filter (·.1 = column)).map
        Prod.snd) := by
    intro t column
    rw [foreignKeyValues_eq, List.filter_map, List.map_map]
    exact Sorting.sortBy_perm _ _
  have hcolumn : ∀ {t : CatalogTable} {column : String},
      column ∉ (groupForeignKeysByColumn t.foreignKeys).rows.map Prod.fst →
      foreignKeyValues t column = [] := by
    intro t column hmem
    rw [Table.mem_keys_iff, Bool.not_eq_true, Option.isSome_eq_false_iff,
      Option.isNone_iff_eq_none] at hmem
    rw [foreignKeyValues, hmem]
    rfl
  rw [perm_pairs_iff, List.flatMap_eq_nil_iff]
  constructor
  · intro h column
    refine (hvalues t column).symm.trans (List.Perm.trans ?_ (hvalues u column))
    by_cases hmem : column ∈ foreignKeyColumns t u
    · exact foreignKeyDiffs_eq_nil.1 (h column hmem)
    · rw [foreignKeyColumns, List.mem_eraseDups, List.mem_append, not_or] at hmem
      rw [hcolumn hmem.1, hcolumn hmem.2]
  · intro h column _
    exact foreignKeyDiffs_eq_nil.2
      ((hvalues t column).trans ((h column).trans (hvalues u column).symm))

/-! ### Tables and catalogs -/

theorem objectDiffs_eq_nil_iff (hkey : tableKey t = tableKey u)
    (ht : (t.columns.map (·.name)).Nodup ∧ (t.indexes.map (·.name)).Nodup)
    (hu : (u.columns.map (·.name)).Nodup ∧ (u.indexes.map (·.name)).Nodup) :
    (diffTable l t u).objectDiffs = [] ↔ LooksLike l t u := by
  have hkinds : kindDiffs t u = [] ↔ t.kind = u.kind := by
    unfold kindDiffs
    by_cases hkind : t.kind = u.kind
    · simp [hkind]
    · simp [hkind]
  rw [objectDiffs_diffTable, List.append_eq_nil_iff, List.append_eq_nil_iff, relationDiffs,
    List.append_eq_nil_iff, hkinds, allColumnDiffs_eq_nil ht.1 hu.1, indexes_eq_nil _ ht.2 hu.2,
    foreignKeys_eq_nil]
  exact ⟨fun h => ⟨hkey, h.1, h.2.1, h.2.2.1, h.2.2.2⟩,
    fun h => ⟨h.kind, h.columns, h.indexes, h.foreignKeys⟩⟩

/-- **Nothing is found exactly when the catalogs look alike.** -/
theorem total_eq_zero_iff (ha : Distinct a) (hb : Distinct b) :
    (compareCatalogs l a b).total = 0 ↔ LooksAlike l a b := by
  have hpaired := paired_of_outerJoin id (LooksLike l) ha.tables hb.tables
  have hlooks : LooksAlike l a b ↔
      Paired (fun t u => tableKey t = tableKey u ∧ LooksLike l (id t) (id u)) a.tables
        b.tables := by
    have hkey : ∀ t u, LooksLike l t u ↔ tableKey t = tableKey u ∧ LooksLike l t u :=
      fun t u => ⟨fun h => ⟨h.key, h⟩, fun h => h.2⟩
    simp only [LooksAlike, Paired, id, ← hkey]
  rw [hlooks, ← hpaired, compareCatalogs_eq]
  show (collected l a b).objects.length = 0 ↔ _
  rw [List.length_eq_zero_iff, objects_collected, List.flatMap_eq_nil_iff]
  refine forall₂_congr fun p hp => ?_
  obtain ⟨key, x, y⟩ := p
  cases x with
  | none =>
    cases y with
    | none => exact absurd hp Table.not_mem_outerJoin
    | some base => simp [tableObjects]
  | some table =>
    cases y with
    | none => simp [tableObjects]
    | some base =>
      obtain ⟨htable, hbase, -⟩ := Table.mem_outerJoin.1 hp
      have hmem : ∀ {c : Catalog}, Distinct c → ∀ {t}, (tableMap c).get key = some t →
          t ∈ c.tables := by
        intro c hc t ht
        have hnodup : ((c.tables.map fun t => (tableKey t, t)).map Prod.fst).Nodup := by
          rw [List.map_map]
          exact hc.tables
        obtain ⟨t', ht', heq⟩ := List.mem_map.1 ((Table.get_ofList hnodup).1 ht)
        exact (Prod.mk.inj heq).2 ▸ ht'
      have hat := hmem ha htable.symm
      have hbu := hmem hb hbase.symm
      have hkey := (tableKey_of_get htable.symm).trans (tableKey_of_get hbase.symm).symm
      simp only [tableObjects]
      rw [objectDiffs_eq_nil_iff hkey ⟨ha.columns _ hat, ha.indexes _ hat⟩
        ⟨hb.columns _ hbu, hb.indexes _ hbu⟩]
      simp

/-! ### What the texts hide -/

theorem Paired.mono {α : Type} {R S : α → α → Prop} {xs ys : List α}
    (h : ∀ x ∈ xs, ∀ y ∈ ys, R x y → S x y) (hpaired : Paired R xs ys) : Paired S xs ys := by
  constructor
  · intro x hx
    obtain ⟨y, hy, hR⟩ := hpaired.1 x hx
    exact ⟨y, hy, h x hx y hy hR⟩
  · intro y hy
    obtain ⟨x, hx, hR⟩ := hpaired.2 y hy
    exact ⟨x, hx, h x hx y hy hR⟩

/-- Under distinct keys a thing is paired with whatever has its key. -/
theorem Paired.of_key {α : Type} {key : α → String} {R : α → α → Prop} {xs ys : List α}
    (hpaired : Paired R xs ys) (hkey : ∀ x y, R x y → key x = key y) (hy : (ys.map key).Nodup)
    {x y : α} (hx : x ∈ xs) (hmem : y ∈ ys) (heq : key x = key y) : R x y := by
  obtain ⟨y', hmem', hR⟩ := hpaired.1 x hx
  have hsame : y' = y :=
    List.inj_on_of_nodup_map hy hmem' hmem ((hkey x y' hR).symm.trans heq)
  exact hsame ▸ hR

theorem unique_of_indexValue {i j : CatalogIndex} (h : indexValue i = indexValue j) :
    i.unique = j.unique := by
  have hlist := congrArg String.toList h
  cases hi : i.unique <;> cases hj : j.unique
  · rfl
  · simp [indexValue, hi, hj] at hlist
  · simp [indexValue, hi, hj] at hlist
  · rfl

theorem SameTable.tableKey (h : SameTable l t u) : tableKey t = tableKey u := by
  rw [Frontend.tableKey, Frontend.tableKey, h.schema, h.name]

/-- Tables are the same when they look like it and hide nothing. -/
theorem sameTable_iff (hu : (u.indexes.map (·.name)).Nodup) :
    SameTable l t u ↔ LooksLike l t u ∧ ¬ Hides t u := by
  constructor
  · intro h
    refine ⟨⟨h.tableKey, h.kind, h.columns, ?_, h.foreignKeys.map _⟩, ?_⟩
    · exact h.indexes.mono fun i _ j _ (hij : i = j) => hij ▸ ⟨rfl, rfl⟩
    · rintro (hschema | hname | ⟨i, hi, j, hj, hname, hcolumns⟩ | hforeign)
      · exact hschema h.schema
      · exact hname h.name
      · have hij : i = j := h.indexes.of_key (fun i j hij => congrArg _ hij) hu hi hj hname
        exact hcolumns (congrArg _ hij)
      · exact hforeign h.foreignKeys
  · rintro ⟨hlooks, hhides⟩
    unfold Hides at hhides
    simp only [not_or, not_not, not_exists, not_and] at hhides
    obtain ⟨hschema, hname, hindexes, hforeign⟩ := hhides
    refine ⟨hschema, hname, hlooks.kind, hlooks.columns, ?_, hforeign⟩
    refine hlooks.indexes.mono fun i hi j hj hij => ?_
    have hcolumns := hindexes i hi j hj hij.1
    have hunique := unique_of_indexValue hij.2
    cases i
    cases j
    simp_all

/-- Catalogs are the same when they look alike and no pair of tables of one key hides anything. -/
theorem sameSchema_iff (hb : Distinct b) :
    SameSchema l a b ↔ LooksAlike l a b ∧
      ¬ ∃ t ∈ a.tables, ∃ u ∈ b.tables, tableKey t = tableKey u ∧ Hides t u := by
  constructor
  · intro h
    refine ⟨h.mono fun t _ u hu htu => ((sameTable_iff (hb.indexes u hu)).1 htu).1, ?_⟩
    rintro ⟨t, ht, u, hu, hkey, hhides⟩
    have htu : SameTable l t u :=
      Paired.of_key h (fun t u htu => htu.tableKey) hb.tables ht hu hkey
    exact ((sameTable_iff (hb.indexes u hu)).1 htu).2 hhides
  · rintro ⟨hlooks, hnone⟩
    refine hlooks.mono fun t ht u hu htu => ?_
    refine (sameTable_iff (hb.indexes u hu)).2 ⟨htu, fun hhides => ?_⟩
    exact hnone ⟨t, ht, u, hu, htu.key, hhides⟩

/-- **Exactly when an empty comparison means equal schemas**: unless the catalogs look alike and two
tables of one key hide a difference. -/
theorem total_eq_zero_sound_iff (l : Locale) (a b : Catalog) (ha : Distinct a) (hb : Distinct b) :
    ((compareCatalogs l a b).total = 0 ↔ SameSchema l a b) ↔
      ¬ (LooksAlike l a b ∧
        ∃ t ∈ a.tables, ∃ u ∈ b.tables, tableKey t = tableKey u ∧ Hides t u) := by
  rw [total_eq_zero_iff ha hb, sameSchema_iff hb]
  constructor
  · rintro h ⟨hlooks, hhides⟩
    exact (h.1 hlooks).2 hhides
  · exact fun h => ⟨fun hlooks => ⟨hlooks, fun hhides => h ⟨hlooks, hhides⟩⟩, fun h => h.1⟩

/-- A table with one index. -/
def indexedTable (columns : List String) : CatalogTable where
  schema := some "public"
  name := "orders"
  kind := "table"
  columns := []
  foreignKeys := []
  indexes := [⟨"orders_idx", columns, false⟩]
  rowEstimate := none

theorem distinct_indexedTable (columns : List String) : Distinct ⟨[indexedTable columns]⟩ where
  tables := List.nodup_singleton _
  columns t ht := by
    rw [List.mem_singleton.1 ht]
    exact List.nodup_nil
  indexes t ht := by
    rw [List.mem_singleton.1 ht]
    exact List.nodup_singleton _

/-- The locale of a host that folds case letter by letter. -/
def sampleLocale : Locale where
  localeCompare a b := if a < b then -1 else if a = b then 0 else 1
  toLocaleLowerCase := String.toLower

theorem total_eq_zero_sound_iff_indexedTable :
    ((compareCatalogs sampleLocale ⟨[indexedTable ["id"]]⟩ ⟨[indexedTable ["id"]]⟩).total = 0 ↔
        SameSchema sampleLocale ⟨[indexedTable ["id"]]⟩ ⟨[indexedTable ["id"]]⟩) ↔
      ¬ (LooksAlike sampleLocale ⟨[indexedTable ["id"]]⟩ ⟨[indexedTable ["id"]]⟩ ∧
        ∃ t ∈ [indexedTable ["id"]], ∃ u ∈ [indexedTable ["id"]],
          tableKey t = tableKey u ∧ Hides t u) :=
  total_eq_zero_sound_iff sampleLocale ⟨[indexedTable ["id"]]⟩ ⟨[indexedTable ["id"]]⟩
    (distinct_indexedTable ["id"]) (distinct_indexedTable ["id"])

/-- An index on the column `a, b` and one on the columns `a` and `b` are not told apart. -/
theorem total_eq_zero_unsound_indexedTable : ¬ ∀ (l : Locale) (a b : Catalog), Distinct a →
    Distinct b → ((compareCatalogs l a b).total = 0 ↔ SameSchema l a b) := by
  intro hclaim
  have hlooks : LooksLike sampleLocale (indexedTable ["a, b"]) (indexedTable ["a", "b"]) := by
    refine ⟨rfl, rfl, ⟨by simp [indexedTable], by simp [indexedTable]⟩, ?_, .refl _⟩
    have hvalue : indexValue ⟨"orders_idx", ["a, b"], false⟩ =
        indexValue ⟨"orders_idx", ["a", "b"], false⟩ := by decide
    constructor
    · intro i hi
      rw [List.mem_singleton.1 hi]
      exact ⟨_, List.mem_singleton_self _, rfl, hvalue⟩
    · intro j hj
      rw [List.mem_singleton.1 hj]
      exact ⟨_, List.mem_singleton_self _, rfl, hvalue⟩
  have hzero := (total_eq_zero_iff (l := sampleLocale) (distinct_indexedTable ["a, b"])
    (distinct_indexedTable ["a", "b"])).2 ⟨fun t ht => ⟨_, List.mem_singleton_self _,
      List.mem_singleton.1 ht ▸ hlooks⟩, fun u hu => ⟨_, List.mem_singleton_self _,
      List.mem_singleton.1 hu ▸ hlooks⟩⟩
  have hsame := (hclaim _ _ _ (distinct_indexedTable _) (distinct_indexedTable _)).1 hzero
  obtain ⟨u, hu, htu⟩ := hsame.1 _ (List.mem_singleton_self _)
  rw [List.mem_singleton.1 hu] at htu
  obtain ⟨j, hj, hij⟩ := htu.indexes.1 _ (List.mem_singleton_self _)
  rw [List.mem_singleton.1 hj] at hij
  exact absurd (congrArg CatalogIndex.columns hij) (by decide)

end Frontend
end AgentDb
