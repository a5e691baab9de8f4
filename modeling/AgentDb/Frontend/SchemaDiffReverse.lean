import AgentDb.Frontend.SchemaDiff

/-!
# The comparison the other way round

Exchanging the two catalogs exchanges added and missing, the two values of an object and the two
counts of each pair, through columns, indexes and foreign keys in any multiplicity. One label is
not kept: tables of one key that differ in kind are listed under the name of the current one, and
two tables can have one key and different names.
-/

namespace AgentDb
namespace Frontend

/-! ### One difference the other way round -/

/-- Added the other way round is missing. -/
def SchemaDiffStatus.reversed : SchemaDiffStatus → SchemaDiffStatus
  | added => missing
  | missing => added
  | changed => changed

/-- What an object says: its table, its label, its status, the baseline's value and the target's. -/
abbrev View := String × String × SchemaDiffStatus × String × String

def SchemaObjectDiff.view (o : SchemaObjectDiff) : View :=
  (o.tableKey, o.label, o.status, o.baselineValue, o.targetValue)

/-- What it is to say the other way round. -/
def SchemaObjectDiff.reversedView (o : SchemaObjectDiff) : View :=
  (o.tableKey, o.label, o.status.reversed, o.targetValue, o.baselineValue)

/-- The objects of two comparisons correspond one to one, each the other one reversed. -/
def Reverses (objects reversed : List SchemaObjectDiff) : Prop :=
  (reversed.map (·.view)).Perm (objects.map (·.reversedView))

variable {l : Locale} {t u : CatalogTable} {a b : Catalog} {xs ys xs' ys' : List SchemaObjectDiff}

theorem Reverses.nil : Reverses [] [] := .refl _

theorem Reverses.append (h : Reverses xs ys) (h' : Reverses xs' ys') :
    Reverses (xs ++ xs') (ys ++ ys') := by
  unfold Reverses
  rw [List.map_append, List.map_append]
  exact List.Perm.append h h'

/-- The labels of a status are those of the reversed status. -/
theorem Reverses.labelsOf (h : Reverses xs ys) (status : SchemaDiffStatus) :
    (labelsOf status ys).Perm (labelsOf status.reversed xs) := by
  have hview : ∀ objects : List SchemaObjectDiff, Frontend.labelsOf status objects =
      ((objects.map (·.view)).filter fun v => v.2.2.1 = status).map fun v => v.2.1 := by
    intro objects
    rw [List.filter_map, List.map_map]
    rfl
  have hreversed : ∀ objects : List SchemaObjectDiff, Frontend.labelsOf status.reversed objects =
      ((objects.map (·.reversedView)).filter fun v => v.2.2.1 = status).map fun v => v.2.1 := by
    intro objects
    rw [List.filter_map, List.map_map, Frontend.labelsOf]
    congr 1
    refine List.filter_congr fun o _ => ?_
    show decide (o.status = status.reversed) = decide (o.status.reversed = status)
    cases o.status <;> cases status <;> rfl
  rw [hview, hreversed]
  exact (List.Perm.filter _ h).map _

/-! ### Columns and indexes -/

theorem reverses_columnDiffs (l : Locale) (table name : String) (x y : Option CatalogColumn) :
    (columnDiffs l table (name, y, x)).map (·.view) =
      (columnDiffs l table (name, x, y)).map (·.reversedView) := by
  cases x with
  | none => cases y <;> rfl
  | some column =>
    cases y with
    | none => rfl
    | some base =>
      simp only [columnDiffs]
      by_cases hne : columnSignature l column ≠ columnSignature l base
      · rw [if_pos hne, if_pos hne.symm]
        rfl
      · rw [if_neg hne, if_neg fun h => hne h.symm]
        rfl

theorem reverses_namedDiffs (table name : String) (objectType : SchemaObjectType)
    (x y : Option String) :
    (namedDiffs table objectType (name, y, x)).map (·.view) =
      (namedDiffs table objectType (name, x, y)).map (·.reversedView) := by
  cases x with
  | none => cases y <;> rfl
  | some value =>
    cases y with
    | none => rfl
    | some base =>
      simp only [namedDiffs]
      by_cases hne : base ≠ value
      · rw [if_pos hne, if_pos hne.symm]
        rfl
      · rw [if_neg hne, if_neg fun h => hne h.symm]
        rfl

/-- What is listed for every name is reversed when it is for each. -/
theorem reverses_outerJoin {α : Type} {t u : Table String α}
    {f g : String × Option α × Option α → List SchemaObjectDiff}
    (h : ∀ k x y, (k, x, y) ∈ Table.outerJoin t u →
      ((g (k, y, x)).map (·.view)).Perm ((f (k, x, y)).map (·.reversedView))) :
    Reverses ((Table.outerJoin t u).flatMap f) ((Table.outerJoin u t).flatMap g) := by
  unfold Reverses
  rw [List.map_flatMap, List.map_flatMap]
  exact Table.flatMap_outerJoin_swap h

theorem reverses_allColumnDiffs (l : Locale) (hkey : tableKey t = tableKey u) :
    Reverses (allColumnDiffs l t u) (allColumnDiffs l u t) := by
  unfold allColumnDiffs
  rw [hkey]
  exact reverses_outerJoin fun name x y _ => .of_eq (reverses_columnDiffs l _ name x y)

/-! ### Foreign keys -/

theorem map_mapIdx_foreignKeyObjectDiff {α : Type} (g : String → α) {f : SchemaObjectDiff → α}
    {object : ℕ → String → SchemaObjectDiff} (h : ∀ i value, f (object i value) = g value)
    (values : List String) : (values.mapIdx object).map f = values.map g := by
  refine List.ext_getElem? fun i => ?_
  rw [List.getElem?_map, List.getElem?_mapIdx, List.getElem?_map, Option.map_map]
  exact congrArg (fun k => Option.map k values[i]?) (funext fun value => h i value)

theorem reverses_unmatchedDiffs (table column : String) (xs ys : List String) :
    Reverses (unmatchedDiffs table column xs ys) (unmatchedDiffs table column ys xs) := by
  unfold Reverses unmatchedDiffs
  simp only [List.map_append]
  refine List.perm_append_comm.trans (.of_eq ?_)
  congr 1
  · let g : String → View := fun value => (table, column, .missing, value, "—")
    exact (map_mapIdx_foreignKeyObjectDiff g (fun _ _ => rfl) _).trans
      (map_mapIdx_foreignKeyObjectDiff g (fun _ _ => rfl) _).symm
  · let g : String → View := fun value => (table, column, .added, "—", value)
    exact (map_mapIdx_foreignKeyObjectDiff g (fun _ _ => rfl) _).trans
      (map_mapIdx_foreignKeyObjectDiff g (fun _ _ => rfl) _).symm

theorem reverses_foreignKeyDiffs (table column : String) (xs ys : List String) :
    Reverses (foreignKeyDiffs table column xs ys) (foreignKeyDiffs table column ys xs) := by
  have hmany : ∀ {xs ys}, (∀ value base, xs = [value] → ys = [base] → False) →
      foreignKeyDiffs table column xs ys = unmatchedDiffs table column xs ys := by
    intro xs ys h
    unfold foreignKeyDiffs
    split
    · exact (h _ _ rfl rfl).elim
    · rfl
  by_cases hsingle : ∃ value base, xs = [value] ∧ ys = [base]
  · obtain ⟨value, base, rfl, rfl⟩ := hsingle
    simp only [foreignKeyDiffs]
    by_cases hne : value ≠ base
    · rw [if_pos hne, if_pos hne.symm]
      exact .refl _
    · rw [if_neg hne, if_neg fun h => hne h.symm]
      exact reverses_unmatchedDiffs table column [value] [base]
  · rw [hmany fun value base hx hy => hsingle ⟨value, base, hx, hy⟩,
      hmany fun value base hy hx => hsingle ⟨base, value, hx, hy⟩]
    exact reverses_unmatchedDiffs table column xs ys

theorem nodup_eraseDups (names : List String) : names.eraseDups.Nodup := by
  induction names using List.reverseRecOn with
  | nil => exact List.nodup_nil
  | append_singleton names name ih =>
    rw [List.eraseDups_append, List.nodup_append]
    refine ⟨ih, ?_, ?_⟩
    · by_cases hmem : name ∈ names
      · simp [List.removeAll, hmem]
      · simp [List.removeAll, hmem, List.eraseDups_cons]
    · rintro x hx y hy rfl
      have hmem := List.mem_eraseDups.1 hy
      simp only [List.removeAll, List.mem_filter] at hmem
      have hnot := hmem.2
      rw [List.mem_eraseDups] at hx
      simp [hx] at hnot

theorem foreignKeyColumns_swap (t u : CatalogTable) :
    (foreignKeyColumns u t).Perm (foreignKeyColumns t u) := by
  refine (List.perm_ext_iff_of_nodup (nodup_eraseDups _) (nodup_eraseDups _)).2 fun name => ?_
  rw [List.mem_eraseDups, List.mem_eraseDups, List.mem_append, List.mem_append, or_comm]

theorem reverses_relationDiffs (hkey : tableKey t = tableKey u) :
    Reverses (relationDiffs t u) (relationDiffs u t) := by
  unfold relationDiffs
  rw [hkey]
  refine Reverses.append ?_ ?_
  · exact reverses_outerJoin fun name x y _ => .of_eq (reverses_namedDiffs _ name .index x y)
  · unfold Reverses
    rw [List.map_flatMap, List.map_flatMap]
    refine ((foreignKeyColumns_swap t u).flatMap fun column _ => .refl _).trans ?_
    exact List.Perm.flatMap_left _ fun column _ => reverses_foreignKeyDiffs _ column _ _

/-! ### Tables -/

/-- The objects of one table, less the difference of its kinds. -/
def restObjects (l : Locale) :
    String × Option CatalogTable × Option CatalogTable → List SchemaObjectDiff
  | (_, some table, some base) => allColumnDiffs l table base ++ relationDiffs table base
  | p => tableObjects l p

/-- The difference of the kinds of one table. -/
def kindObjects : String × Option CatalogTable × Option CatalogTable → List SchemaObjectDiff
  | (_, some table, some base) => kindDiffs table base
  | _ => []

theorem tableObjects_eq (l : Locale) (p : String × Option CatalogTable × Option CatalogTable) :
    tableObjects l p = kindObjects p ++ restObjects l p := by
  obtain ⟨key, x, y⟩ := p
  cases x with
  | none => cases y <;> rfl
  | some table =>
    cases y with
    | none => rfl
    | some base => exact objectDiffs_diffTable l table base

/-- Tables side by side have one key. -/
theorem tableKey_of_mem {key : String} {x y : Option CatalogTable}
    (h : (key, x, y) ∈ Table.outerJoin (tableMap a) (tableMap b)) :
    (∀ t, x = some t → tableKey t = key) ∧ ∀ u, y = some u → tableKey u = key := by
  obtain ⟨hx, hy, -⟩ := Table.mem_outerJoin.1 h
  exact ⟨fun t ht => tableKey_of_get (hx.symm.trans ht),
    fun u hu => tableKey_of_get (hy.symm.trans hu)⟩

theorem reverses_restObjects (l : Locale) {key : String} {x y : Option CatalogTable}
    (h : (key, x, y) ∈ Table.outerJoin (tableMap a) (tableMap b)) :
    Reverses (restObjects l (key, x, y)) (restObjects l (key, y, x)) := by
  obtain ⟨hx, hy⟩ := tableKey_of_mem h
  cases x with
  | none => cases y <;> exact .refl _
  | some table =>
    cases y with
    | none => exact .refl _
    | some base =>
      have hkey : tableKey table = tableKey base := (hx table rfl).trans (hy base rfl).symm
      exact (reverses_allColumnDiffs l hkey).append (reverses_relationDiffs hkey)

/-- The columns of a status are those of the reversed status. -/
theorem length_tableColumns_swap (l : Locale) (status : SchemaDiffStatus) {key : String}
    {x y : Option CatalogTable} (h : (key, x, y) ∈ Table.outerJoin (tableMap a) (tableMap b)) :
    (tableColumns l status (key, y, x)).length =
      (tableColumns l status.reversed (key, x, y)).length := by
  obtain ⟨hx, hy⟩ := tableKey_of_mem h
  cases x with
  | none => cases y <;> rfl
  | some table =>
    cases y with
    | none => rfl
    | some base =>
      have hkey : tableKey table = tableKey base := (hx table rfl).trans (hy base rfl).symm
      exact ((reverses_allColumnDiffs l hkey).labelsOf status).length_eq

theorem tableRelations_swap {key : String} {x y : Option CatalogTable}
    (h : (key, x, y) ∈ Table.outerJoin (tableMap a) (tableMap b)) :
    tableRelations (key, y, x) = tableRelations (key, x, y) := by
  obtain ⟨hx, hy⟩ := tableKey_of_mem h
  cases x with
  | none => cases y <;> rfl
  | some table =>
    cases y with
    | none => rfl
    | some base =>
      have hkey : tableKey table = tableKey base := (hx table rfl).trans (hy base rfl).symm
      have hlength := (reverses_relationDiffs hkey).length_eq
      rw [List.length_map, List.length_map] at hlength
      simp only [tableRelations, List.isEmpty_iff_length_eq_zero, hlength]

/-! ### Catalogs -/

/-- Tables of one key that differ in kind have one name. -/
def KindsNamed (a b : Catalog) : Prop :=
  ∀ key t u, (tableMap a).get key = some t → (tableMap b).get key = some u → t.kind ≠ u.kind →
    t.name = u.name

theorem reverses_kindDiffs_iff (hkey : tableKey t = tableKey u) :
    Reverses (kindDiffs t u) (kindDiffs u t) ↔ (t.kind ≠ u.kind → t.name = u.name) := by
  unfold Reverses kindDiffs
  by_cases hkind : t.kind ≠ u.kind
  · rw [if_pos hkind, if_pos hkind.symm]
    simp only [List.map_singleton, List.singleton_perm_singleton, SchemaObjectDiff.view,
      SchemaObjectDiff.reversedView, Prod.mk.injEq, hkey, SchemaDiffStatus.reversed, and_true,
      true_and]
    exact ⟨fun h _ => h.symm, fun h => (h hkind).symm⟩
  · rw [if_neg hkind, if_neg fun h => hkind h.symm]
    exact iff_of_true (.refl _) fun h => absurd h hkind

theorem tableKey_of_mem_kindObjects {p : String × Option CatalogTable × Option CatalogTable}
    (hp : p ∈ Table.outerJoin (tableMap a) (tableMap b)) {o : SchemaObjectDiff}
    (ho : o ∈ kindObjects p) : o.tableKey = p.1 := by
  obtain ⟨key, x, y⟩ := p
  cases x with
  | none => cases y <;> cases ho
  | some table =>
    cases y with
    | none => cases ho
    | some base =>
      simp only [kindObjects, kindDiffs] at ho
      split at ho
      · rw [List.mem_singleton.1 ho]
        exact (tableKey_of_mem hp).1 table rfl
      · cases ho

/-- The kinds are reversed exactly when the names of their tables are one. -/
theorem reverses_kindObjects_iff :
    Reverses ((Table.outerJoin (tableMap a) (tableMap b)).flatMap kindObjects)
        ((Table.outerJoin (tableMap b) (tableMap a)).flatMap kindObjects) ↔ KindsNamed a b := by
  have hswap : (((Table.outerJoin (tableMap b) (tableMap a)).flatMap kindObjects).map (·.view)).Perm
      ((Table.outerJoin (tableMap a) (tableMap b)).flatMap fun p =>
        (kindObjects (p.1, p.2.2, p.2.1)).map (·.view)) := by
    rw [List.map_flatMap]
    exact Table.flatMap_outerJoin_swap fun key x y _ => .refl _
  have hview : ∀ p ∈ Table.outerJoin (tableMap a) (tableMap b),
      ∀ v ∈ (kindObjects (p.1, p.2.2, p.2.1)).map (·.view), v.1 = p.1 := by
    intro p hp v hv
    obtain ⟨o, ho, rfl⟩ := List.mem_map.1 hv
    obtain ⟨hx, hy, hsome⟩ := Table.mem_outerJoin.1 hp
    exact tableKey_of_mem_kindObjects (Table.mem_outerJoin.2 ⟨hy, hx, hsome.symm⟩) ho
  have hreversed : ∀ p ∈ Table.outerJoin (tableMap a) (tableMap b),
      ∀ v ∈ (kindObjects p).map (·.reversedView), v.1 = p.1 := by
    intro p hp v hv
    obtain ⟨o, ho, rfl⟩ := List.mem_map.1 hv
    exact tableKey_of_mem_kindObjects hp ho
  unfold Reverses
  rw [hswap.congr_left, List.map_flatMap,
    Table.flatMap_perm_iff (Table.nodup_keys_outerJoin _ _) hreversed hview]
  constructor
  · intro h key t u ht hu
    have hmem : (key, some t, some u) ∈ Table.outerJoin (tableMap a) (tableMap b) :=
      Table.mem_outerJoin.2 ⟨ht.symm, hu.symm, .inl rfl⟩
    have hkey : tableKey t = tableKey u := (tableKey_of_get ht).trans (tableKey_of_get hu).symm
    exact (reverses_kindDiffs_iff hkey).1 (h _ hmem)
  · rintro h ⟨key, x, y⟩ hp
    obtain ⟨hx, hy, -⟩ := Table.mem_outerJoin.1 hp
    cases x with
    | none => cases y <;> exact .refl _
    | some t =>
      cases y with
      | none => exact .refl _
      | some u =>
        have hkey : tableKey t = tableKey u :=
          (tableKey_of_get hx.symm).trans (tableKey_of_get hy.symm).symm
        exact (reverses_kindDiffs_iff hkey).2 (h key t u hx.symm hy.symm)

/-- The objects of the two comparisons. -/
theorem reverses_objects_iff (l : Locale) (a b : Catalog) :
    Reverses (compareCatalogs l a b).objects (compareCatalogs l b a).objects ↔ KindsNamed a b := by
  have hsplit : ∀ a b : Catalog, ((compareCatalogs l a b).objects).Perm
      ((Table.outerJoin (tableMap a) (tableMap b)).flatMap kindObjects ++
        (Table.outerJoin (tableMap a) (tableMap b)).flatMap (restObjects l)) := by
    intro a b
    rw [compareCatalogs_eq]
    refine (List.mergeSort_perm _ _).trans ?_
    rw [objects_collected, funext (tableObjects_eq l)]
    exact (List.flatMap_append_perm _ _ _).symm
  have hrest : Reverses ((Table.outerJoin (tableMap a) (tableMap b)).flatMap (restObjects l))
      ((Table.outerJoin (tableMap b) (tableMap a)).flatMap (restObjects l)) :=
    reverses_outerJoin fun key x y h => reverses_restObjects l h
  rw [← reverses_kindObjects_iff]
  unfold Reverses at hrest ⊢
  rw [((hsplit b a).map _).congr_left, ((hsplit a b).map _).congr_right, List.map_append,
    List.map_append, (hrest.append_left _).congr_left, List.perm_append_right_iff]

theorem total_compareCatalogs (l : Locale) (a b : Catalog) :
    (compareCatalogs l a b).total = (compareCatalogs l a b).objects.length := by
  rw [compareCatalogs_eq]
  exact (List.mergeSort_perm _ _).length_eq.symm

theorem length_addedTables (l : Locale) (a b : Catalog) :
    (compareCatalogs l a b).addedTables.length = (compareCatalogs l b a).missingTables.length := by
  rw [compareCatalogs_eq, compareCatalogs_eq]
  show (collected l a b).addedTables.length = (collected l b a).missingTables.length
  rw [addedTables_collected, missingTables_collected]
  exact (Table.flatMap_outerJoin_swap fun key x y _ => .refl _).length_eq.symm

theorem addedColumns_swap (l : Locale) (a b : Catalog) :
    (compareCatalogs l a b).addedColumns = (compareCatalogs l b a).missingColumns := by
  rw [compareCatalogs_eq, compareCatalogs_eq]
  show (collected l a b).addedColumns = (collected l b a).missingColumns
  rw [addedColumns_collected, missingColumns_collected]
  exact (Table.sum_outerJoin_swap fun key x y hp => length_tableColumns_swap l .missing hp).symm

/-- A comparison mirrors another one: the objects correspond one to one, and the counts of added and
missing tables and columns are exchanged. -/
structure Mirrors (forward backward : SchemaDiffSummary) : Prop where
  objects : Reverses forward.objects backward.objects
  addedTables : forward.addedTables.length = backward.missingTables.length
  missingTables : forward.missingTables.length = backward.addedTables.length
  addedColumns : forward.addedColumns = backward.missingColumns
  missingColumns : forward.missingColumns = backward.addedColumns
  changedColumns : forward.changedColumns = backward.changedColumns
  relationChangedTables : forward.relationChangedTables = backward.relationChangedTables
  total : forward.total = backward.total

/-- **A comparison mirrors the one the other way round** exactly when tables of one key that differ
in kind have one name. -/
theorem compareCatalogs_mirrors_iff (l : Locale) (a b : Catalog) :
    Mirrors (compareCatalogs l a b) (compareCatalogs l b a) ↔ KindsNamed a b := by
  refine ⟨fun h => (reverses_objects_iff l a b).1 h.objects, fun h => ?_⟩
  have hobjects := (reverses_objects_iff l a b).2 h
  have hlength := hobjects.length_eq
  rw [List.length_map, List.length_map] at hlength
  refine ⟨hobjects, length_addedTables l a b, (length_addedTables l b a).symm,
    addedColumns_swap l a b, (addedColumns_swap l b a).symm, ?_, ?_, ?_⟩
  · rw [compareCatalogs_eq, compareCatalogs_eq]
    show (collected l a b).changedColumns = (collected l b a).changedColumns
    rw [changedColumns_collected, changedColumns_collected]
    exact (Table.sum_outerJoin_swap fun key x y hp =>
      length_tableColumns_swap l .changed hp).symm
  · rw [compareCatalogs_eq, compareCatalogs_eq]
    show (collected l a b).relationChangedTables = (collected l b a).relationChangedTables
    rw [relationChangedTables_collected, relationChangedTables_collected]
    exact (Table.sum_outerJoin_swap fun key x y hp => tableRelations_swap hp).symm
  · rw [total_compareCatalogs, total_compareCatalogs, hlength]

/-- A table `c` of a schema `a.b`. -/
def sampleTable : CatalogTable where
  schema := some "a.b"
  name := "c"
  kind := "table"
  columns := []
  foreignKeys := []
  indexes := []
  rowEstimate := none

/-- A view `b.c` of a schema `a`. -/
def sampleView : CatalogTable :=
  { sampleTable with schema := some "a", name := "b.c", kind := "view" }

/-- A table and a view of one key are listed under two labels. -/
theorem compareCatalogs_mirrors_not_sample : ¬ ∀ (l : Locale) (a b : Catalog),
    Mirrors (compareCatalogs l a b) (compareCatalogs l b a) := by
  intro hclaim
  have hobjects := (hclaim ⟨fun _ _ => 0, id⟩ ⟨[sampleTable]⟩ ⟨[sampleView]⟩).objects
  have hnames := (reverses_objects_iff _ _ _).1 hobjects "a.b.c" sampleTable sampleView
    (by decide) (by decide) (by decide)
  exact absurd hnames (by decide)

end Frontend
end AgentDb
