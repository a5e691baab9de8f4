import AgentDb.Lib.OuterJoin
import AgentDb.Lib.Sorting
import Mathlib.Data.List.Lex
import Mathlib.Data.Nat.Basic

/-!
# The schema comparison: `lib/schemaDiff.ts`

`compareCatalogs` as the source computes it. Tables, columns and indexes are kept in `Map`s by their
names and walked in two loops, the current ones first and then what only the baseline has; foreign
keys are grouped by column and compared as multisets of texts. `diffTable_objects` and
`compareCatalogs_objects` say what the loops collect: a fold over the two `Map`s side by side.
-/

namespace AgentDb
namespace Frontend

/-! ### Catalogs -/

/-- `CatalogColumn`. -/
structure CatalogColumn where
  name : String
  dataType : String
  nullable : Bool
  pk : Bool
  deriving DecidableEq, Repr

/-- `CatalogForeignKey`. -/
structure CatalogForeignKey where
  column : String
  referencesTable : String
  referencesColumn : String
  referencesSchema : Option String
  deriving DecidableEq, Repr

/-- `CatalogIndex`. -/
structure CatalogIndex where
  name : String
  columns : List String
  unique : Bool
  deriving DecidableEq, Repr

/-- `CatalogTable`. -/
structure CatalogTable where
  schema : Option String
  name : String
  kind : String
  columns : List CatalogColumn
  foreignKeys : List CatalogForeignKey
  indexes : List CatalogIndex
  rowEstimate : Option ℤ
  deriving DecidableEq, Repr

/-- `Catalog`. The comparison reads its tables. -/
structure Catalog where
  tables : List CatalogTable
  deriving DecidableEq, Repr

/-! ### Differences -/

/-- `SchemaDiffStatus` without `same`. -/
inductive SchemaDiffStatus
  | added
  | missing
  | changed
  deriving DecidableEq, Repr

/-- `SchemaObjectType`. -/
inductive SchemaObjectType
  | table
  | view
  | column
  | index
  | foreignKey
  deriving DecidableEq, Repr

def SchemaObjectType.text : SchemaObjectType → String
  | table => "table"
  | view => "view"
  | column => "column"
  | index => "index"
  | foreignKey => "foreignKey"

/-- `SchemaObjectDiff`. -/
structure SchemaObjectDiff where
  id : String
  tableKey : String
  objectType : SchemaObjectType
  path : String
  label : String
  status : SchemaDiffStatus
  baselineValue : String
  targetValue : String
  deriving DecidableEq, Repr

/-- `TableSchemaDiff`, by default the `emptyTableDiff` of its key. -/
structure TableSchemaDiff where
  key : String
  added : Bool := false
  missing : Bool := false
  relationChanged : Bool := false
  addedColumns : List String := []
  missingColumns : List String := []
  changedColumns : List String := []
  objectDiffs : List SchemaObjectDiff := []

/-- `SchemaDiffSummary`. -/
structure SchemaDiffSummary where
  addedTables : List CatalogTable := []
  missingTables : List CatalogTable := []
  changedTables : List CatalogTable := []
  addedColumns : ℕ := 0
  missingColumns : ℕ := 0
  changedColumns : ℕ := 0
  relationChangedTables : ℕ := 0
  total : ℕ := 0
  tableDiffs : Table String TableSchemaDiff := .empty
  objects : List SchemaObjectDiff := []

/-! ### What stands for an object -/

/-- What the comparison asks the locale of the host. -/
structure Locale where
  localeCompare : String → String → ℤ
  toLocaleLowerCase : String → String

/-- The characters that `String.prototype.trim` removes. -/
def isBlank (c : Char) : Bool :=
  c.toNat ∈ [0x9, 0xa, 0xb, 0xc, 0xd, 0x20, 0xa0, 0x1680, 0x2028, 0x2029, 0x202f, 0x205f, 0x3000,
    0xfeff] || (0x2000 ≤ c.toNat && c.toNat ≤ 0x200a)

/-- `String.prototype.trim`. -/
def trim (s : String) : String :=
  String.ofList ((s.toList.dropWhile isBlank).reverse.dropWhile isBlank).reverse

/-- The UTF-16 code units of a text, by which `Array.prototype.sort` orders. -/
def codeUnits (s : String) : List ℕ :=
  s.toList.flatMap fun c =>
    if c.toNat < 0x10000 then [c.toNat]
    else [0xd800 + (c.toNat - 0x10000) / 0x400, 0xdc00 + (c.toNat - 0x10000) % 0x400]

/-- `tableKey` of `tableRef.ts`. -/
def tableKey (t : CatalogTable) : String := t.schema.getD "" ++ "." ++ t.name

/-- `columnSignature`. -/
def columnSignature (l : Locale) (column : CatalogColumn) : String :=
  "|".intercalate [l.toLocaleLowerCase (trim column.dataType),
    if column.nullable then "null" else "not-null", if column.pk then "pk" else "no-pk"]

/-- `columnValue`. -/
def columnValue (column : CatalogColumn) : String :=
  " · ".intercalate ([column.dataType, if column.nullable then "NULL" else "NOT NULL",
    if column.pk then "PK" else ""].filter (· ≠ ""))

/-- `indexValue`. -/
def indexValue (index : CatalogIndex) : String :=
  (if index.unique then "UNIQUE " else "") ++ "(" ++ ", ".intercalate index.columns ++ ")"

/-- `foreignKeyValue`. An empty schema counts as none. -/
def foreignKeyValue (foreignKey : CatalogForeignKey) : String :=
  let schema := match foreignKey.referencesSchema with
    | none => ""
    | some schema => if schema = "" then "" else schema ++ "."
  foreignKey.column ++ " → " ++ schema ++ foreignKey.referencesTable ++ "." ++
    foreignKey.referencesColumn

/-- The object type of a table by its kind. -/
def relationType (kind : String) : SchemaObjectType := if kind = "view" then .view else .table

/-- `tableObjectDiff` for `added`. -/
def addedTableDiff (table : CatalogTable) : SchemaObjectDiff where
  id := tableKey table ++ ":" ++ table.kind
  tableKey := tableKey table
  objectType := relationType table.kind
  path := tableKey table
  label := table.name
  status := .added
  baselineValue := "—"
  targetValue := table.kind

/-- `tableObjectDiff` for `missing`. -/
def missingTableDiff (table : CatalogTable) : SchemaObjectDiff where
  id := tableKey table ++ ":" ++ table.kind
  tableKey := tableKey table
  objectType := relationType table.kind
  path := tableKey table
  label := table.name
  status := .missing
  baselineValue := table.kind
  targetValue := "—"

/-- `objectDiff`. -/
def objectDiff (table : String) (objectType : SchemaObjectType) (name : String)
    (status : SchemaDiffStatus) (baselineValue targetValue : String) : SchemaObjectDiff where
  id := table ++ ":" ++ objectType.text ++ ":" ++ name
  tableKey := table
  objectType
  path := table ++ "." ++ name
  label := name
  status
  baselineValue
  targetValue

/-- `foreignKeyObjectDiff`. -/
def foreignKeyObjectDiff (table column : String) (status : SchemaDiffStatus)
    (baselineValue targetValue identity : String) : SchemaObjectDiff where
  id := table ++ ":foreignKey:" ++ column ++ ":" ++ identity
  tableKey := table
  objectType := .foreignKey
  path := table ++ "." ++ column
  label := column
  status
  baselineValue
  targetValue

/-! ### Indexes and foreign keys -/

/-- `appendNamedObjectDiffs`. -/
def appendNamedObjectDiffs (objects : List SchemaObjectDiff) (table : String)
    (objectType : SchemaObjectType) (current baseline : Table String String) :
    List SchemaObjectDiff :=
  let objects := current.rows.foldl (fun objects r =>
    match baseline.get r.1 with
    | none => objects ++ [objectDiff table objectType r.1 .added "—" r.2]
    | some base =>
        if base ≠ r.2 then objects ++ [objectDiff table objectType r.1 .changed base r.2]
        else objects) objects
  baseline.rows.foldl (fun objects r =>
    if (current.get r.1).isSome then objects
    else objects ++ [objectDiff table objectType r.1 .missing r.2 "—"]) objects

/-- `groupForeignKeysByColumn`. -/
def groupForeignKeysByColumn (foreignKeys : List CatalogForeignKey) : Table String (List String) :=
  let grouped := foreignKeys.foldl (fun grouped foreignKey =>
    grouped.put foreignKey.column
      ((grouped.get foreignKey.column).getD [] ++ [foreignKeyValue foreignKey])) Table.empty
  grouped.mapRows fun _ values => Sorting.sortBy codeUnits values

/-- `unmatchedValues`. -/
def unmatchedValues : List String → List String → List String
  | [], _ => []
  | value :: source, remaining =>
      if value ∈ remaining then unmatchedValues source (remaining.erase value)
      else value :: unmatchedValues source remaining

/-- What one side has and the other has not, among the foreign keys of one column. -/
def unmatchedDiffs (table column : String) (currentValues baselineValues : List String) :
    List SchemaObjectDiff :=
  ((unmatchedValues currentValues baselineValues).mapIdx fun index value =>
    foreignKeyObjectDiff table column .added "—" value
      ("added:" ++ toString index ++ ":" ++ value)) ++
  (unmatchedValues baselineValues currentValues).mapIdx fun index value =>
    foreignKeyObjectDiff table column .missing value "—"
      ("missing:" ++ toString index ++ ":" ++ value)

/-- The differences of the foreign keys of one column: one that stands against one other has
changed. -/
def foreignKeyDiffs (table column : String) (currentValues baselineValues : List String) :
    List SchemaObjectDiff :=
  match currentValues, baselineValues with
  | [value], [base] =>
      if value ≠ base then [foreignKeyObjectDiff table column .changed base value "changed"]
      else unmatchedDiffs table column [value] [base]
  | currentValues, baselineValues => unmatchedDiffs table column currentValues baselineValues

/-- `appendForeignKeyDiffs`. -/
def appendForeignKeyDiffs (objects : List SchemaObjectDiff) (table : String)
    (currentForeignKeys baselineForeignKeys : List CatalogForeignKey) : List SchemaObjectDiff :=
  let current := groupForeignKeysByColumn currentForeignKeys
  let baseline := groupForeignKeysByColumn baselineForeignKeys
  let columns := (current.rows.map Prod.fst ++ baseline.rows.map Prod.fst).eraseDups
  columns.foldl (fun objects column =>
    objects ++ foreignKeyDiffs table column ((current.get column).getD [])
      ((baseline.get column).getD [])) objects

/-! ### Tables -/

/-- The body of the loop of `diffTable` over the current columns. -/
def diffCurrentColumn (l : Locale) (key : String) (baselineColumns : Table String CatalogColumn)
    (diff : TableSchemaDiff) (r : String × CatalogColumn) : TableSchemaDiff :=
  match baselineColumns.get r.1 with
  | none =>
      { diff with
        addedColumns := diff.addedColumns ++ [r.1]
        objectDiffs := diff.objectDiffs ++
          [objectDiff key .column r.1 .added "—" (columnValue r.2)] }
  | some base =>
      if columnSignature l r.2 ≠ columnSignature l base then
        { diff with
          changedColumns := diff.changedColumns ++ [r.1]
          objectDiffs := diff.objectDiffs ++
            [objectDiff key .column r.1 .changed (columnValue base) (columnValue r.2)] }
      else diff

/-- The body of its loop over the baseline columns. -/
def diffBaselineColumn (key : String) (currentColumns : Table String CatalogColumn)
    (diff : TableSchemaDiff) (r : String × CatalogColumn) : TableSchemaDiff :=
  if (currentColumns.get r.1).isSome then diff
  else
    { diff with
      missingColumns := diff.missingColumns ++ [r.1]
      objectDiffs := diff.objectDiffs ++
        [objectDiff key .column r.1 .missing (columnValue r.2) "—"] }

/-- The difference of the kinds of two tables. -/
def kindDiffs (current baseline : CatalogTable) : List SchemaObjectDiff :=
  if current.kind ≠ baseline.kind then
    [{ id := tableKey current ++ ":kind", tableKey := tableKey current
       objectType := relationType current.kind, path := tableKey current
       label := current.name, status := .changed
       baselineValue := baseline.kind, targetValue := current.kind }]
  else []

/-- `diffTable`. -/
def diffTable (l : Locale) (current baseline : CatalogTable) : TableSchemaDiff :=
  let key := tableKey current
  let currentColumns := Table.ofList (current.columns.map fun column => (column.name, column))
  let baselineColumns := Table.ofList (baseline.columns.map fun column => (column.name, column))
  let diff : TableSchemaDiff := { key, objectDiffs := kindDiffs current baseline }
  let diff := currentColumns.rows.foldl (diffCurrentColumn l key baselineColumns) diff
  let diff := baselineColumns.rows.foldl (diffBaselineColumn key currentColumns) diff
  let objects := appendNamedObjectDiffs diff.objectDiffs key .index
    (Table.ofList (current.indexes.map fun index => (index.name, indexValue index)))
    (Table.ofList (baseline.indexes.map fun index => (index.name, indexValue index)))
  let objects := appendForeignKeyDiffs objects key current.foreignKeys baseline.foreignKeys
  { diff with
    objectDiffs := objects
    relationChanged := objects.any fun object =>
      object.objectType = .index || object.objectType = .foreignKey }

/-- `hasTableDiff`. -/
def hasTableDiff (diff : TableSchemaDiff) : Bool :=
  diff.added || diff.missing || !diff.objectDiffs.isEmpty

/-- A table that the baseline has not. -/
def SchemaDiffSummary.addTable (s : SchemaDiffSummary) (key : String) (table : CatalogTable) :
    SchemaDiffSummary :=
  let object := addedTableDiff table
  { s with
    addedTables := s.addedTables ++ [table]
    tableDiffs := s.tableDiffs.put key { key, added := true, objectDiffs := [object] }
    objects := s.objects ++ [object] }

/-- A table that only the baseline has. -/
def SchemaDiffSummary.missTable (s : SchemaDiffSummary) (key : String) (table : CatalogTable) :
    SchemaDiffSummary :=
  let object := missingTableDiff table
  { s with
    missingTables := s.missingTables ++ [table]
    tableDiffs := s.tableDiffs.put key { key, missing := true, objectDiffs := [object] }
    objects := s.objects ++ [object] }

/-- A table that both have. -/
def SchemaDiffSummary.changeTable (l : Locale) (s : SchemaDiffSummary) (key : String)
    (table base : CatalogTable) : SchemaDiffSummary :=
  let diff := diffTable l table base
  if hasTableDiff diff then
    { s with
      tableDiffs := s.tableDiffs.put key diff
      changedTables := s.changedTables ++ [table]
      objects := s.objects ++ diff.objectDiffs
      addedColumns := s.addedColumns + diff.addedColumns.length
      missingColumns := s.missingColumns + diff.missingColumns.length
      changedColumns := s.changedColumns + diff.changedColumns.length
      relationChangedTables :=
        if diff.relationChanged then s.relationChangedTables + 1 else s.relationChangedTables }
  else s

/-- The body of the loop of `compareCatalogs` over the current tables. -/
def compareCurrentTable (l : Locale) (baselineTables : Table String CatalogTable)
    (s : SchemaDiffSummary) (r : String × CatalogTable) : SchemaDiffSummary :=
  match baselineTables.get r.1 with
  | none => s.addTable r.1 r.2
  | some base => s.changeTable l r.1 r.2 base

/-- The body of its loop over the baseline tables. -/
def compareBaselineTable (currentTables : Table String CatalogTable) (s : SchemaDiffSummary)
    (r : String × CatalogTable) : SchemaDiffSummary :=
  if (currentTables.get r.1).isSome then s else s.missTable r.1 r.2

/-- The order in which the objects are returned. -/
def objectLe (l : Locale) (a b : SchemaObjectDiff) : Bool :=
  let byPath := l.localeCompare a.path b.path
  if byPath ≠ 0 then byPath ≤ 0 else l.localeCompare a.objectType.text b.objectType.text ≤ 0

/-- `compareCatalogs`. -/
def compareCatalogs (l : Locale) (current baseline : Catalog) : SchemaDiffSummary :=
  let currentTables := Table.ofList (current.tables.map fun table => (tableKey table, table))
  let baselineTables := Table.ofList (baseline.tables.map fun table => (tableKey table, table))
  let summary := currentTables.rows.foldl (compareCurrentTable l baselineTables) {}
  let summary := baselineTables.rows.foldl (compareBaselineTable currentTables) summary
  { summary with
    objects := summary.objects.mergeSort (objectLe l)
    total := summary.objects.length }

/-! ### What the loops collect -/

/-- The `Map` of the tables of a catalog. -/
def tableMap (c : Catalog) : Table String CatalogTable :=
  .ofList (c.tables.map fun table => (tableKey table, table))

/-- The `Map` of the columns of a table. -/
def columnMap (t : CatalogTable) : Table String CatalogColumn :=
  .ofList (t.columns.map fun column => (column.name, column))

/-- The `Map` of the index values of a table. -/
def indexMap (t : CatalogTable) : Table String String :=
  .ofList (t.indexes.map fun index => (index.name, indexValue index))

/-- What `appendNamedObjectDiffs` appends for one name. -/
def namedDiffs (table : String) (objectType : SchemaObjectType) :
    String × Option String × Option String → List SchemaObjectDiff
  | (name, some value, none) => [objectDiff table objectType name .added "—" value]
  | (name, some value, some base) =>
      if base ≠ value then [objectDiff table objectType name .changed base value] else []
  | (name, none, some base) => [objectDiff table objectType name .missing base "—"]
  | (_, none, none) => []

theorem appendNamedObjectDiffs_eq (objects : List SchemaObjectDiff) (table : String)
    (objectType : SchemaObjectType) (current baseline : Table String String) :
    appendNamedObjectDiffs objects table objectType current baseline =
      objects ++ (Table.outerJoin current baseline).flatMap (namedDiffs table objectType) := by
  have hfold := Table.foldl_outerJoin current baseline
    (fun objects p => objects ++ namedDiffs table objectType p) objects
  refine Eq.trans ?_ (hfold.trans (Table.foldl_append_field id (fun _ _ => rfl) _ objects))
  show List.foldl _ (List.foldl _ objects current.rows) baseline.rows = _
  congr 1
  congr 1
  funext objects r
  cases baseline.get r.1 with
  | none => rfl
  | some base =>
    by_cases hne : base ≠ r.2
    · simp only [namedDiffs, if_pos hne]
    · simp only [namedDiffs, if_neg hne, List.append_nil]

/-- The columns that have foreign keys in either table. -/
def foreignKeyColumns (t u : CatalogTable) : List String :=
  ((groupForeignKeysByColumn t.foreignKeys).rows.map Prod.fst ++
    (groupForeignKeysByColumn u.foreignKeys).rows.map Prod.fst).eraseDups

/-- The values of the foreign keys of a column. -/
def foreignKeyValues (t : CatalogTable) (column : String) : List String :=
  ((groupForeignKeysByColumn t.foreignKeys).get column).getD []

theorem appendForeignKeyDiffs_eq (objects : List SchemaObjectDiff) (table : String)
    (t u : CatalogTable) :
    appendForeignKeyDiffs objects table t.foreignKeys u.foreignKeys =
      objects ++ (foreignKeyColumns t u).flatMap fun column =>
        foreignKeyDiffs table column (foreignKeyValues t column) (foreignKeyValues u column) :=
  Table.foldl_append_field id (fun _ _ => rfl) _ _

/-- What `diffTable` pushes for one column. -/
def columnDiffs (l : Locale) (table : String) :
    String × Option CatalogColumn × Option CatalogColumn → List SchemaObjectDiff
  | (name, some column, none) => [objectDiff table .column name .added "—" (columnValue column)]
  | (name, some column, some base) =>
      if columnSignature l column ≠ columnSignature l base then
        [objectDiff table .column name .changed (columnValue base) (columnValue column)]
      else []
  | (name, none, some base) => [objectDiff table .column name .missing (columnValue base) "—"]
  | (_, none, none) => []

/-- The names of the objects with a status. -/
def labelsOf (status : SchemaDiffStatus) (objects : List SchemaObjectDiff) : List String :=
  (objects.filter (·.status = status)).map (·.label)

theorem labelsOf_append (status : SchemaDiffStatus) (xs ys : List SchemaObjectDiff) :
    labelsOf status (xs ++ ys) = labelsOf status xs ++ labelsOf status ys := by
  rw [labelsOf, List.filter_append, List.map_append]
  rfl

/-- What `diffTable` does with one column. -/
def visitColumn (l : Locale) (table : String) (diff : TableSchemaDiff)
    (p : String × Option CatalogColumn × Option CatalogColumn) : TableSchemaDiff :=
  { diff with
    addedColumns := diff.addedColumns ++ labelsOf .added (columnDiffs l table p)
    missingColumns := diff.missingColumns ++ labelsOf .missing (columnDiffs l table p)
    changedColumns := diff.changedColumns ++ labelsOf .changed (columnDiffs l table p)
    objectDiffs := diff.objectDiffs ++ columnDiffs l table p }

/-- The differences of the columns of two tables. -/
def allColumnDiffs (l : Locale) (t u : CatalogTable) : List SchemaObjectDiff :=
  (Table.outerJoin (columnMap t) (columnMap u)).flatMap (columnDiffs l (tableKey t))

/-- The differences of the indexes and foreign keys of two tables. -/
def relationDiffs (t u : CatalogTable) : List SchemaObjectDiff :=
  (Table.outerJoin (indexMap t) (indexMap u)).flatMap (namedDiffs (tableKey t) .index) ++
    (foreignKeyColumns t u).flatMap fun column =>
      foreignKeyDiffs (tableKey t) column (foreignKeyValues t column) (foreignKeyValues u column)

theorem diffCurrentColumn_eq (l : Locale) (key : String) (columns : Table String CatalogColumn) :
    diffCurrentColumn l key columns =
      fun diff r => visitColumn l key diff (r.1, some r.2, columns.get r.1) := by
  funext diff r
  unfold diffCurrentColumn
  cases columns.get r.1 with
  | none => simp [visitColumn, columnDiffs, labelsOf, objectDiff]
  | some base =>
    by_cases hne : columnSignature l r.2 ≠ columnSignature l base
    · simp [visitColumn, columnDiffs, labelsOf, objectDiff, hne]
    · simp [visitColumn, columnDiffs, labelsOf, hne]

theorem diffBaselineColumn_eq (l : Locale) (key : String) (columns : Table String CatalogColumn) :
    diffBaselineColumn key columns = fun diff r =>
      if (columns.get r.1).isSome then diff else visitColumn l key diff (r.1, none, some r.2) := by
  funext diff r
  unfold diffBaselineColumn
  simp [visitColumn, columnDiffs, labelsOf, objectDiff]

/-- **The loops over the columns are one over both `Map`s.** -/
theorem diffTable_eq (l : Locale) (t u : CatalogTable) :
    diffTable l t u =
      let diff := (Table.outerJoin (columnMap t) (columnMap u)).foldl
        (visitColumn l (tableKey t)) { key := tableKey t, objectDiffs := kindDiffs t u }
      { diff with
        objectDiffs := diff.objectDiffs ++ relationDiffs t u
        relationChanged := (diff.objectDiffs ++ relationDiffs t u).any fun object =>
          object.objectType = .index || object.objectType = .foreignKey } := by
  rw [← Table.foldl_outerJoin]
  unfold diffTable
  simp only [diffCurrentColumn_eq, diffBaselineColumn_eq l, appendNamedObjectDiffs_eq,
    appendForeignKeyDiffs_eq, List.append_assoc]
  rfl

/-- The objects of two tables: of their kinds, columns, indexes and foreign keys. -/
theorem objectDiffs_diffTable (l : Locale) (t u : CatalogTable) :
    (diffTable l t u).objectDiffs =
      kindDiffs t u ++ (allColumnDiffs l t u ++ relationDiffs t u) := by
  rw [diffTable_eq, ← List.append_assoc]
  show _ ++ _ = _ ++ _
  rw [Table.foldl_append_field TableSchemaDiff.objectDiffs (fun _ _ => rfl)]
  rfl

theorem labelsOf_allColumnDiffs (l : Locale) (t u : CatalogTable) (status : SchemaDiffStatus) :
    labelsOf status (allColumnDiffs l t u) =
      (Table.outerJoin (columnMap t) (columnMap u)).flatMap fun p =>
        labelsOf status (columnDiffs l (tableKey t) p) := by
  rw [labelsOf, allColumnDiffs, List.filter_flatMap, List.map_flatMap]
  rfl

/-- The names of the columns are those of their objects. -/
theorem columns_diffTable (l : Locale) (t u : CatalogTable) :
    (diffTable l t u).addedColumns = labelsOf .added (allColumnDiffs l t u) ∧
      (diffTable l t u).missingColumns = labelsOf .missing (allColumnDiffs l t u) ∧
      (diffTable l t u).changedColumns = labelsOf .changed (allColumnDiffs l t u) := by
  rw [diffTable_eq, labelsOf_allColumnDiffs, labelsOf_allColumnDiffs, labelsOf_allColumnDiffs]
  refine ⟨?_, ?_, ?_⟩
  · exact Table.foldl_append_field TableSchemaDiff.addedColumns (fun _ _ => rfl) _ _
  · exact Table.foldl_append_field TableSchemaDiff.missingColumns (fun _ _ => rfl) _ _
  · exact Table.foldl_append_field TableSchemaDiff.changedColumns (fun _ _ => rfl) _ _

theorem added_diffTable (l : Locale) (t u : CatalogTable) :
    (diffTable l t u).added = false ∧ (diffTable l t u).missing = false := by
  rw [diffTable_eq]
  dsimp only
  induction Table.outerJoin (columnMap t) (columnMap u) using List.reverseRecOn with
  | nil => exact ⟨rfl, rfl⟩
  | append_singleton ps p ih =>
    rw [List.foldl_append]
    exact ih

theorem hasTableDiff_diffTable (l : Locale) (t u : CatalogTable) :
    hasTableDiff (diffTable l t u) = true ↔ (diffTable l t u).objectDiffs ≠ [] := by
  rw [hasTableDiff, (added_diffTable l t u).1, (added_diffTable l t u).2]
  simp

/-- The indexes and foreign keys are what the relations of a table are. -/
def isRelation (object : SchemaObjectDiff) : Bool :=
  object.objectType = .index || object.objectType = .foreignKey

theorem objectType_namedDiffs {table : String} {objectType : SchemaObjectType}
    {p : String × Option String × Option String} {o : SchemaObjectDiff}
    (h : o ∈ namedDiffs table objectType p) : o.objectType = objectType := by
  obtain ⟨name, x, y⟩ := p
  cases x <;> cases y <;> simp only [namedDiffs, List.not_mem_nil, List.mem_singleton] at h
  · rw [h]
    rfl
  · rw [h]
    rfl
  · split at h
    · rw [List.mem_singleton.1 h]
      rfl
    · cases h

theorem objectType_foreignKeyDiffs {table column : String} {xs ys : List String}
    {o : SchemaObjectDiff} (h : o ∈ foreignKeyDiffs table column xs ys) :
    o.objectType = .foreignKey := by
  have hunmatched : ∀ {xs ys}, o ∈ unmatchedDiffs table column xs ys →
      o.objectType = .foreignKey := by
    intro xs ys h
    rcases List.mem_append.1 h with h | h
    · obtain ⟨i, hi, rfl⟩ := List.mem_mapIdx.1 h
      rfl
    · obtain ⟨i, hi, rfl⟩ := List.mem_mapIdx.1 h
      rfl
  unfold foreignKeyDiffs at h
  split at h
  · split at h
    · rw [List.mem_singleton.1 h]
      rfl
    · exact hunmatched h
  · exact hunmatched h

theorem isRelation_relationDiffs {t u : CatalogTable} {o : SchemaObjectDiff}
    (h : o ∈ relationDiffs t u) : isRelation o = true := by
  rcases List.mem_append.1 h with h | h
  · obtain ⟨p, -, hp⟩ := List.mem_flatMap.1 h
    simp [isRelation, objectType_namedDiffs hp]
  · obtain ⟨column, -, hcolumn⟩ := List.mem_flatMap.1 h
    simp [isRelation, objectType_foreignKeyDiffs hcolumn]

theorem isRelation_kindDiffs {t u : CatalogTable} {o : SchemaObjectDiff} (h : o ∈ kindDiffs t u) :
    isRelation o = false := by
  unfold kindDiffs at h
  split at h
  · rw [List.mem_singleton.1 h, isRelation, relationType]
    split <;> rfl
  · cases h

theorem isRelation_allColumnDiffs {l : Locale} {t u : CatalogTable} {o : SchemaObjectDiff}
    (h : o ∈ allColumnDiffs l t u) : isRelation o = false := by
  obtain ⟨⟨name, x, y⟩, -, hp⟩ := List.mem_flatMap.1 h
  cases x <;> cases y <;> simp only [columnDiffs, List.not_mem_nil, List.mem_singleton] at hp
  · rw [hp]
    rfl
  · rw [hp]
    rfl
  · split at hp
    · rw [List.mem_singleton.1 hp]
      rfl
    · cases hp

/-- The flag of a table says whether its indexes or foreign keys differ. -/
theorem relationChanged_diffTable (l : Locale) (t u : CatalogTable) :
    (diffTable l t u).relationChanged = !(relationDiffs t u).isEmpty := by
  have hany : (diffTable l t u).relationChanged = (diffTable l t u).objectDiffs.any isRelation := by
    rw [diffTable_eq]
    rfl
  have hkinds : (kindDiffs t u).any isRelation = false :=
    List.any_eq_false.2 fun o ho => by simp [isRelation_kindDiffs ho]
  have hcolumns : (allColumnDiffs l t u).any isRelation = false :=
    List.any_eq_false.2 fun o ho => by simp [isRelation_allColumnDiffs ho]
  rw [hany, objectDiffs_diffTable, List.any_append, List.any_append, hkinds, hcolumns]
  cases hrelations : relationDiffs t u with
  | nil => rfl
  | cons o os =>
    have ho := isRelation_relationDiffs (hrelations ▸ List.mem_cons_self : o ∈ relationDiffs t u)
    simp [ho]

/-- What `compareCatalogs` does with one table. -/
def visitTable (l : Locale) (s : SchemaDiffSummary) :
    String × Option CatalogTable × Option CatalogTable → SchemaDiffSummary
  | (key, some table, none) => s.addTable key table
  | (key, some table, some base) => s.changeTable l key table base
  | (key, none, some base) => s.missTable key base
  | (_, none, none) => s

theorem compareCurrentTable_eq (l : Locale) (tables : Table String CatalogTable) :
    compareCurrentTable l tables = fun s r => visitTable l s (r.1, some r.2, tables.get r.1) := by
  funext s r
  unfold compareCurrentTable
  cases tables.get r.1 with
  | none => rfl
  | some base => rfl

/-- The summary before its objects are sorted and counted. -/
def collected (l : Locale) (a b : Catalog) : SchemaDiffSummary :=
  (Table.outerJoin (tableMap a) (tableMap b)).foldl (visitTable l) {}

/-- **The loops over the tables are one over both `Map`s.** -/
theorem compareCatalogs_eq (l : Locale) (a b : Catalog) :
    compareCatalogs l a b =
      { collected l a b with
        objects := (collected l a b).objects.mergeSort (objectLe l)
        total := (collected l a b).objects.length } := by
  unfold collected
  rw [← Table.foldl_outerJoin]
  unfold compareCatalogs
  simp only [compareCurrentTable_eq]
  rfl

/-- The objects of one table. -/
def tableObjects (l : Locale) :
    String × Option CatalogTable × Option CatalogTable → List SchemaObjectDiff
  | (_, some table, none) => [addedTableDiff table]
  | (_, some table, some base) => (diffTable l table base).objectDiffs
  | (_, none, some base) => [missingTableDiff base]
  | (_, none, none) => []

/-- The columns of one table with a status. -/
def tableColumns (l : Locale) (status : SchemaDiffStatus) :
    String × Option CatalogTable × Option CatalogTable → List String
  | (_, some table, some base) => labelsOf status (allColumnDiffs l table base)
  | _ => []

/-- Whether the indexes or foreign keys of a table differ. -/
def tableRelations : String × Option CatalogTable × Option CatalogTable → ℕ
  | (_, some table, some base) => if (relationDiffs table base).isEmpty then 0 else 1
  | _ => 0

/-- The tables that stand on one side only. -/
def loneTable : Option CatalogTable → Option CatalogTable → List CatalogTable
  | some table, none => [table]
  | _, _ => []

/-- What `compareCatalogs` does with one table, field by field. -/
theorem visitTable_spec (l : Locale) (s : SchemaDiffSummary)
    (p : String × Option CatalogTable × Option CatalogTable) :
    (visitTable l s p).objects = s.objects ++ tableObjects l p ∧
    (visitTable l s p).addedTables = s.addedTables ++ loneTable p.2.1 p.2.2 ∧
    (visitTable l s p).missingTables = s.missingTables ++ loneTable p.2.2 p.2.1 ∧
    (visitTable l s p).addedColumns = s.addedColumns + (tableColumns l .added p).length ∧
    (visitTable l s p).missingColumns = s.missingColumns + (tableColumns l .missing p).length ∧
    (visitTable l s p).changedColumns = s.changedColumns + (tableColumns l .changed p).length ∧
    (visitTable l s p).relationChangedTables = s.relationChangedTables + tableRelations p := by
  obtain ⟨key, x, y⟩ := p
  cases x with
  | none =>
    cases y with
    | none => simp [visitTable, tableObjects, loneTable, tableColumns, tableRelations]
    | some base =>
      simp [visitTable, SchemaDiffSummary.missTable, tableObjects, loneTable, tableColumns,
        tableRelations]
  | some table =>
    cases y with
    | none =>
      simp [visitTable, SchemaDiffSummary.addTable, tableObjects, loneTable, tableColumns,
        tableRelations]
    | some base =>
      obtain ⟨hadded, hmissing, hchanged⟩ := columns_diffTable l table base
      simp only [visitTable, SchemaDiffSummary.changeTable, tableObjects, tableColumns,
        tableRelations, loneTable, List.append_nil, ← hadded, ← hmissing, ← hchanged]
      by_cases hdiff : hasTableDiff (diffTable l table base) = true
      · rw [if_pos hdiff, relationChanged_diffTable]
        refine ⟨rfl, rfl, rfl, rfl, rfl, rfl, ?_⟩
        cases (relationDiffs table base).isEmpty <;> rfl
      · -- without an object there is nothing to count either
        rw [if_neg hdiff]
        rw [hasTableDiff_diffTable, not_not] at hdiff
        have hparts := hdiff
        rw [objectDiffs_diffTable, List.append_eq_nil_iff, List.append_eq_nil_iff] at hparts
        rw [hdiff, hadded, hmissing, hchanged, hparts.2.1, hparts.2.2]
        simp [labelsOf]

section Collected

variable (l : Locale) (a b : Catalog)

theorem objects_collected : (collected l a b).objects =
    (Table.outerJoin (tableMap a) (tableMap b)).flatMap (tableObjects l) :=
  Table.foldl_append_field SchemaDiffSummary.objects (fun s p => (visitTable_spec l s p).1) _ _

theorem addedTables_collected : (collected l a b).addedTables =
    (Table.outerJoin (tableMap a) (tableMap b)).flatMap fun p => loneTable p.2.1 p.2.2 :=
  Table.foldl_append_field SchemaDiffSummary.addedTables
    (fun s p => (visitTable_spec l s p).2.1) _ _

theorem missingTables_collected : (collected l a b).missingTables =
    (Table.outerJoin (tableMap a) (tableMap b)).flatMap fun p => loneTable p.2.2 p.2.1 :=
  Table.foldl_append_field SchemaDiffSummary.missingTables
    (fun s p => (visitTable_spec l s p).2.2.1) _ _

theorem addedColumns_collected : (collected l a b).addedColumns =
    ((Table.outerJoin (tableMap a) (tableMap b)).map fun p =>
      (tableColumns l .added p).length).sum := by
  refine (Table.foldl_add_field SchemaDiffSummary.addedColumns
    (fun s p => (visitTable_spec l s p).2.2.2.1) _ _).trans (Nat.zero_add _)

theorem missingColumns_collected : (collected l a b).missingColumns =
    ((Table.outerJoin (tableMap a) (tableMap b)).map fun p =>
      (tableColumns l .missing p).length).sum := by
  refine (Table.foldl_add_field SchemaDiffSummary.missingColumns
    (fun s p => (visitTable_spec l s p).2.2.2.2.1) _ _).trans (Nat.zero_add _)

theorem changedColumns_collected : (collected l a b).changedColumns =
    ((Table.outerJoin (tableMap a) (tableMap b)).map fun p =>
      (tableColumns l .changed p).length).sum := by
  refine (Table.foldl_add_field SchemaDiffSummary.changedColumns
    (fun s p => (visitTable_spec l s p).2.2.2.2.2.1) _ _).trans (Nat.zero_add _)

theorem relationChangedTables_collected : (collected l a b).relationChangedTables =
    ((Table.outerJoin (tableMap a) (tableMap b)).map tableRelations).sum := by
  refine (Table.foldl_add_field SchemaDiffSummary.relationChangedTables
    (fun s p => (visitTable_spec l s p).2.2.2.2.2.2) _ _).trans (Nat.zero_add _)

end Collected

/-- A table stands under its key. -/
theorem tableKey_of_get {c : Catalog} {key : String} {t : CatalogTable}
    (h : (tableMap c).get key = some t) : tableKey t = key := by
  have hrows : ∀ r ∈ (tableMap c).rows, tableKey r.2 = r.1 := by
    unfold tableMap
    induction c.tables using List.reverseRecOn with
    | nil => exact fun r hr => (List.not_mem_nil hr).elim
    | append_singleton tables t ih =>
      intro r hr
      rw [List.map_append, List.map_singleton, Table.ofList_snoc, ← Prod.mk.eta (p := r),
        Table.mem_rows_iff, Table.get_put] at hr
      split at hr
      · rename_i hkey
        rw [← Option.some.inj hr, hkey]
      · exact ih r (Table.mem_rows_iff.2 hr)
  exact hrows (key, t) (Table.mem_rows_iff.2 h)

end Frontend
end AgentDb
