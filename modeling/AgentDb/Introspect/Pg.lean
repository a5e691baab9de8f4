import AgentDb.Introspect.Regroup
import AgentDb.Services.ConnectionEdits

/-!
# PostgreSQL: `introspect/pg.rs`

The catalog of a database is the rows of `pg_namespace`, `pg_class`, `pg_attribute`,
`pg_constraint`, `pg_index` and `pg_depend`, and the views of `information_schema` are queries of
them. Four queries list the columns, the foreign keys and the index parts of the user's relations,
and `introspect` regroups their rows. Joins are written from the relation outwards.
-/

namespace AgentDb
namespace Introspect
namespace Pg

open QueryRows Sorting
open Services (eqIgnoreAsciiCase)

/-! ### The catalog -/

/-- A row of `pg_namespace`. -/
structure PgNamespace where
  oid : ℕ
  nspname : String
  deriving DecidableEq

/-- `relkind`. -/
inductive RelKind
  | table
  | partitionedTable
  | view
  | foreignTable
  | materializedView
  | index
  | partitionedIndex
  | sequence
  | toastTable
  | compositeType
  deriving DecidableEq

/-- A row of `pg_class`. -/
structure PgClass where
  oid : ℕ
  relname : String
  relnamespace : ℕ
  relkind : RelKind
  deriving DecidableEq

/-- A row of `pg_attribute`, with the type and the nullability `information_schema` tells. -/
structure PgAttribute where
  attrelid : ℕ
  attname : String
  attnum : ℤ
  attisdropped : Bool
  dataType : String
  isNullable : Bool
  deriving DecidableEq

/-- `contype`. -/
inductive ConType
  | primary
  | unique
  | exclusion
  | foreign
  | check
  | notNull
  | trigger
  deriving DecidableEq

/-- A row of `pg_constraint`, of a relation. -/
structure PgConstraint where
  conname : String
  contype : ConType
  conrelid : ℕ
  confrelid : ℕ
  conkey : List ℤ
  confkey : List ℤ
  deriving DecidableEq

/-- A row of `pg_index`. -/
structure PgIndex where
  indexrelid : ℕ
  indrelid : ℕ
  indisunique : Bool
  indisprimary : Bool
  indkey : List ℤ
  deriving DecidableEq

/-- A row of `pg_depend`. -/
structure PgDepend where
  classid : ℕ
  objid : ℕ
  deptype : Char
  deriving DecidableEq

/-- The catalog of a database. -/
structure PgCatalog where
  namespaces : List PgNamespace
  classes : List PgClass
  attributes : List PgAttribute
  constraints : List PgConstraint
  indexes : List PgIndex
  depends : List PgDepend

/-- `'pg_class'::regclass`. -/
def pgClassOid : ℕ := 1259

def systemSchemas : List String := ["pg_catalog", "information_schema"]

/-- What `information_schema` has columns of. -/
def RelKind.isTabular (kind : RelKind) : Bool :=
  kind ∈ [table, partitionedTable, view, foreignTable]

/-- What `information_schema` has keys of. -/
def RelKind.hasKeys (kind : RelKind) : Bool := kind ∈ [table, partitionedTable]

def PgAttribute.isVisible (a : PgAttribute) : Bool := 0 < a.attnum ∧ ¬ a.attisdropped

/-! ### Rows -/

/-- A row of `information_schema.columns`. -/
structure ColumnRow where
  tableSchema : String
  tableName : String
  columnName : String
  ordinalPosition : ℤ
  dataType : String
  isNullable : String
  deriving DecidableEq

/-- A row of `information_schema.table_constraints`. -/
structure ConstraintRow where
  constraintName : String
  tableSchema : String
  tableName : String
  constraintType : ConType
  deriving DecidableEq

/-- A row of `information_schema.key_column_usage`. -/
structure KeyRow where
  constraintName : String
  tableSchema : String
  columnName : String
  deriving DecidableEq

/-- A row of `COLS_SQL`, with the position it is ordered by. -/
structure ColsRow extends ColumnRow where
  isPk : Bool
  deriving DecidableEq

def ColsRow.order (r : ColsRow) : String ×ₗ String ×ₗ ℤ :=
  toLex (r.tableSchema, toLex (r.tableName, r.ordinalPosition))

/-- A row of `FK_SQL`, with what it is ordered by. -/
structure FkRow where
  tableSchema : String
  tableName : String
  columnName : String
  foreignSchema : String
  foreignTable : String
  foreignColumn : String
  conname : String
  ord : ℕ
  deriving DecidableEq

def FkRow.order (r : FkRow) : String ×ₗ String ×ₗ String ×ₗ ℕ :=
  toLex (r.tableSchema, toLex (r.tableName, toLex (r.conname, r.ord)))

/-- A row of `IDX_SQL`, with the position it is ordered by. -/
structure IdxRow where
  tableSchema : String
  tableName : String
  indexName : String
  isUnique : Bool
  columnName : String
  ord : ℕ
  deriving DecidableEq

def IdxRow.order (r : IdxRow) : String ×ₗ String ×ₗ String ×ₗ ℕ :=
  toLex (r.tableSchema, toLex (r.tableName, toLex (r.indexName, r.ord)))

namespace PgCatalog

variable (cat : PgCatalog)

/-! ### Joins -/

/-- `JOIN pg_namespace ON pg_namespace.oid = relnamespace`. -/
def namespacesOf (c : PgClass) : List PgNamespace :=
  cat.namespaces.filter fun n => n.oid = c.relnamespace

/-- `JOIN pg_class ON pg_class.oid = …`. -/
def classesOf (oid : ℕ) : List PgClass := cat.classes.filter fun c => c.oid = oid

/-- `JOIN pg_attribute ON attrelid = … AND attnum = …`. -/
def attributesOf (relid : ℕ) (num : ℤ) : List PgAttribute :=
  cat.attributes.filter fun a => a.attrelid = relid ∧ a.attnum = num

/-! ### `information_schema` -/

/-- The rows of one relation. -/
def columnRows (c : PgClass) : List ColumnRow :=
  (cat.namespacesOf c).flatMap fun n =>
    (cat.attributes.filter fun a => a.attrelid = c.oid ∧ a.isVisible).map fun a =>
      ⟨n.nspname, c.relname, a.attname, a.attnum, a.dataType, if a.isNullable then "YES" else "NO"⟩

/-- `information_schema.columns`. -/
def columns : List ColumnRow := (cat.classes.filter (·.relkind.isTabular)).flatMap cat.columnRows

/-- `information_schema.table_constraints`. -/
def tableConstraints : List ConstraintRow :=
  (cat.classes.filter (·.relkind.hasKeys)).flatMap fun c =>
    (cat.namespacesOf c).flatMap fun n =>
      (cat.constraints.filter fun con => con.conrelid = c.oid ∧ con.contype ≠ .trigger).map
        fun con => ⟨con.conname, n.nspname, c.relname, con.contype⟩

/-- The rows of one relation. -/
def keyRows (c : PgClass) : List KeyRow :=
  (cat.namespacesOf c).flatMap fun n =>
    (cat.constraints.filter fun con =>
      con.conrelid = c.oid ∧ con.contype ∈ [ConType.primary, .unique, .foreign]).flatMap fun con =>
        con.conkey.flatMap fun num =>
          ((cat.attributesOf c.oid num).filter fun a => ¬ a.attisdropped).map fun a =>
            ⟨con.conname, n.nspname, a.attname⟩

/-- `information_schema.key_column_usage`. -/
def keyColumnUsage : List KeyRow := (cat.classes.filter (·.relkind.hasKeys)).flatMap cat.keyRows

/-! ### The queries -/

/-- The subquery `pk` of `COLS_SQL`: schema, relation and column. -/
def primaryKeyRows : List (String × String × String) :=
  (cat.tableConstraints.filter (·.constraintType = .primary)).flatMap fun tc =>
    (cat.keyColumnUsage.filter fun kcu =>
      tc.constraintName = kcu.constraintName ∧ tc.tableSchema = kcu.tableSchema).map fun kcu =>
        (tc.tableSchema, tc.tableName, kcu.columnName)

/-- The condition on `pg_depend` of `COLS_SQL`. -/
def isExtensionNamed (schema name : String) : Bool :=
  cat.depends.any fun dep =>
    (cat.classesOf dep.objid).any fun pc =>
      (cat.namespacesOf pc).any fun pn =>
        dep.deptype = 'e' ∧ dep.classid = pgClassOid ∧ pn.nspname = schema ∧ pc.relname = name

/-- The `LEFT JOIN` of `COLS_SQL`. -/
def markedRows (c : ColumnRow) : List ColsRow :=
  let pks := cat.primaryKeyRows.filter fun pk => pk = (c.tableSchema, c.tableName, c.columnName)
  if pks = [] then [⟨c, false⟩] else pks.map fun _ => ⟨c, true⟩

/-- `COLS_SQL`. -/
def colsSql : List ColsRow :=
  (cat.columns.filter fun c =>
    c.tableSchema ∉ systemSchemas ∧ ¬ cat.isExtensionNamed c.tableSchema c.tableName).flatMap
      cat.markedRows

/-- `unnest(conkey, confkey) WITH ORDINALITY`, of arrays of one length. -/
def unnest (con : PgConstraint) : List ((ℤ × ℤ) × ℕ) := (con.conkey.zip con.confkey).zipIdx 1

/-- The rows of `FK_SQL` of one relation. -/
def fkRows (cl : PgClass) : List FkRow :=
  (cat.namespacesOf cl).flatMap fun cn =>
    (cat.constraints.filter fun con => con.conrelid = cl.oid ∧ con.contype = .foreign).flatMap
      fun con => (cat.classesOf con.confrelid).flatMap fun fcl =>
        (cat.namespacesOf fcl).flatMap fun fn =>
          (unnest con).flatMap fun k =>
            (cat.attributesOf con.conrelid k.1.1).flatMap fun att =>
              (cat.attributesOf con.confrelid k.1.2).map fun fatt =>
                ⟨cn.nspname, cl.relname, att.attname, fn.nspname, fcl.relname, fatt.attname,
                  con.conname, k.2⟩

/-- `FK_SQL`. -/
def fkSql : List FkRow :=
  (cat.classes.flatMap cat.fkRows).filter fun r => r.tableSchema ∉ systemSchemas

/-- `COALESCE(a.attname, '(expression)')`, over the `LEFT JOIN` on `pg_attribute`. -/
def keyTexts (relid : ℕ) (num : ℤ) : List String :=
  let names := (cat.attributesOf relid num).map (·.attname)
  if names = [] then ["(expression)"] else names

/-- The rows of `IDX_SQL` of one relation. -/
def idxRows (t : PgClass) : List IdxRow :=
  (cat.namespacesOf t).flatMap fun n =>
    (cat.indexes.filter fun i => i.indrelid = t.oid ∧ ¬ i.indisprimary).flatMap fun i =>
      (cat.classesOf i.indexrelid).flatMap fun ic =>
        (i.indkey.zipIdx 1).flatMap fun k =>
          (cat.keyTexts t.oid k.1).map fun text =>
            ⟨n.nspname, t.relname, ic.relname, i.indisunique, text, k.2⟩

/-- `IDX_SQL`. -/
def idxSql : List IdxRow :=
  (cat.classes.flatMap cat.idxRows).filter fun r => r.tableSchema ∉ systemSchemas

end PgCatalog

/-! ### Regrouping -/

/-- A row of `KIND_SQL`. -/
structure KindRow where
  tableSchema : String
  tableName : String
  tableType : String

/-- A row of `EST_SQL`. -/
structure EstRow where
  tableSchema : String
  tableName : String
  estimate : ℤ

/-- What the server answers. -/
structure Answers where
  cols : List ColsRow
  kinds : List KindRow
  fks : List FkRow
  idxs : List IdxRow
  ests : List EstRow

/-- The answers are those of a catalog. The kinds and the estimates may be any. -/
structure Answers.Of (a : Answers) (cat : PgCatalog) : Prop where
  cols : Answer ColsRow.order cat.colsSql a.cols
  fks : Answer FkRow.order cat.fkSql a.fks
  idxs : Answer IdxRow.order cat.idxSql a.idxs

def ColsRow.column (r : ColsRow) : Column :=
  ⟨r.columnName, r.dataType, eqIgnoreAsciiCase r.isNullable "YES", r.isPk⟩

def FkRow.foreignKey (r : FkRow) : ForeignKey :=
  ⟨r.columnName, r.foreignTable, r.foreignColumn, some r.foreignSchema⟩

def IdxRow.part (r : IdxRow) : IndexPart := ⟨r.indexName, r.columnName, r.isUnique⟩

def KindRow.mark (r : KindRow) (t : Table) : Table :=
  if eqIgnoreAsciiCase r.tableType "VIEW" then { t with kind := "view" } else t

def EstRow.mark (r : EstRow) (t : Table) : Table :=
  { t with rowEstimate := if 0 ≤ r.estimate then some r.estimate else none }

/-- The tables of `introspect`. -/
def introspect (a : Answers) : List Table :=
  let tables := a.cols.foldl (fun tables r =>
    enter Table.key Table.opened (some r.tableSchema, r.tableName) (Table.pushColumn r.column)
      tables) []
  let tables := a.kinds.foldl (fun tables r =>
    change Table.key (some r.tableSchema, r.tableName) r.mark tables) tables
  let tables := a.fks.foldl (fun tables r =>
    change Table.key (some r.tableSchema, r.tableName) (Table.pushForeignKey r.foreignKey)
      tables) tables
  let tables := a.idxs.foldl (fun tables r =>
    change Table.key (some r.tableSchema, r.tableName) (Table.pushIndexPart r.part) tables) tables
  a.ests.foldl (fun tables r =>
    change Table.key (some r.tableSchema, r.tableName) r.mark tables) tables

/-! ### What a catalog has -/

namespace PgCatalog

variable (cat : PgCatalog)

/-- The name of a relation. -/
def relname (oid : ℕ) : String := ((cat.classesOf oid).map (·.relname)).headD ""

/-- The schema of a relation. -/
def schema (c : PgClass) : String := ((cat.namespacesOf c).map (·.nspname)).headD ""

/-- The schema of the relation with an oid. -/
def schemaOf (oid : ℕ) : String := ((cat.classesOf oid).map cat.schema).headD ""

/-- The name of a column. -/
def attname (relid : ℕ) (num : ℤ) : String :=
  ((cat.attributesOf relid num).map (·.attname)).headD ""

/-- What holds of every catalog. -/
structure WellFormed : Prop where
  namespaceOids : (cat.namespaces.map (·.oid)).Nodup
  namespaceNames : (cat.namespaces.map (·.nspname)).Nodup
  classOids : (cat.classes.map (·.oid)).Nodup
  classNames : (cat.classes.map fun c => (c.relnamespace, c.relname)).Nodup
  namespaced : ∀ c ∈ cat.classes, ∃ n ∈ cat.namespaces, n.oid = c.relnamespace
  attnums : (cat.attributes.map fun a => (a.attrelid, a.attnum)).Nodup
  attnames : (cat.attributes.map fun a => (a.attrelid, a.attname)).Nodup
  attnum_ne : ∀ a ∈ cat.attributes, a.attnum ≠ 0
  /-- The names of constraints are unique for a table. -/
  connames : (cat.constraints.map fun k => (k.conrelid, k.conname)).Nodup
  /-- The names of keys are unique in a schema, as those of their indexes are. -/
  keyNames : ∀ k ∈ cat.constraints, ∀ k' ∈ cat.constraints,
    k.contype ∈ [ConType.primary, .unique] → k'.contype ∈ [ConType.primary, .unique] →
    cat.schemaOf k.conrelid = cat.schemaOf k'.conrelid → k.conname = k'.conname → k = k'
  onePrimary : ∀ k ∈ cat.constraints, ∀ k' ∈ cat.constraints, k.contype = .primary →
    k'.contype = .primary → k.conrelid = k'.conrelid → k = k'
  primaryNodup : ∀ k ∈ cat.constraints, k.contype = .primary → k.conkey.Nodup
  /-- The columns of a key are columns of its table. -/
  conkey : ∀ k ∈ cat.constraints, k.contype ∈ [ConType.primary, .unique, .foreign] →
    (∃ c ∈ cat.classes, c.oid = k.conrelid ∧ c.relkind.hasKeys) ∧
    ∀ num ∈ k.conkey, ∃ a ∈ cat.attributes, a.attrelid = k.conrelid ∧ a.attnum = num ∧ a.isVisible
  /-- A foreign key pairs them with columns of the table it refers to. -/
  confkey : ∀ k ∈ cat.constraints, k.contype = .foreign →
    k.conkey.length = k.confkey.length ∧ (∃ c ∈ cat.classes, c.oid = k.confrelid) ∧
    ∀ num ∈ k.confkey, ∃ a ∈ cat.attributes, a.attrelid = k.confrelid ∧ a.attnum = num
  indexOids : (cat.indexes.map (·.indexrelid)).Nodup
  /-- An index is in the schema of its table. -/
  index : ∀ i ∈ cat.indexes, ∃ t ∈ cat.classes, t.oid = i.indrelid ∧
    ∃ ic ∈ cat.classes, ic.oid = i.indexrelid ∧ ic.relnamespace = t.relnamespace
  indkey : ∀ i ∈ cat.indexes, i.indkey ≠ [] ∧
    ∀ num ∈ i.indkey, num = 0 ∨ ∃ a ∈ cat.attributes, a.attrelid = i.indrelid ∧ a.attnum = num

/-- An extension owns a relation. -/
def isExtensionOwned (c : PgClass) : Bool :=
  cat.depends.any fun dep => dep.deptype = 'e' ∧ dep.classid = pgClassOid ∧ dep.objid = c.oid

/-- The relations of the user. -/
def userRelations : List PgClass :=
  cat.classes.filter fun c =>
    c.relkind.isTabular ∧ cat.schema c ∉ systemSchemas ∧ ¬ cat.isExtensionOwned c

/-- The columns of a relation, in order. -/
def columnsOf (c : PgClass) : List PgAttribute :=
  sortBy (·.attnum) (cat.attributes.filter fun a => a.attrelid = c.oid ∧ a.isVisible)

/-- A column belongs to the primary key. -/
def inPrimaryKey (c : PgClass) (a : PgAttribute) : Bool :=
  cat.constraints.any fun k => k.contype = .primary ∧ k.conrelid = c.oid ∧ a.attnum ∈ k.conkey

def columnOf (c : PgClass) (a : PgAttribute) : Column :=
  ⟨a.attname, a.dataType, a.isNullable, cat.inPrimaryKey c a⟩

/-- The pairs of one foreign key. -/
def pairsOf (con : PgConstraint) : List ForeignKey :=
  (con.conkey.zip con.confkey).map fun k =>
    ⟨cat.attname con.conrelid k.1, cat.relname con.confrelid, cat.attname con.confrelid k.2,
      some (cat.schemaOf con.confrelid)⟩

/-- The pairs of all foreign keys of a relation. -/
def foreignKeysOf (c : PgClass) : List ForeignKey :=
  (cat.constraints.filter fun con => con.conrelid = c.oid ∧ con.contype = .foreign).flatMap
    cat.pairsOf

def indexOf (i : PgIndex) : Index where
  name := cat.relname i.indexrelid
  columns := i.indkey.map fun num =>
    if num = 0 then "(expression)" else cat.attname i.indrelid num
  unique := i.indisunique

/-- The indexes of a relation but that of its primary key. -/
def indexesOf (c : PgClass) : List Index :=
  (cat.indexes.filter fun i => i.indrelid = c.oid ∧ ¬ i.indisprimary).map cat.indexOf

/-- A table shows a relation as it is. -/
structure Shows (c : PgClass) (t : Table) : Prop where
  schema : t.schema = some (cat.schema c)
  name : t.name = c.relname
  columns : t.columns = (cat.columnsOf c).map (cat.columnOf c)
  foreignKeys : t.foreignKeys.Perm (cat.foreignKeysOf c)
  indexes : t.indexes.Perm (cat.indexesOf c)

/-- Tables show every relation of the user once, and nothing else. -/
structure Shown (tables : List Table) : Prop where
  once : (tables.map Table.key).Nodup
  shows : ∀ c ∈ cat.userRelations, ∃ t ∈ tables, cat.Shows c t
  only : ∀ t ∈ tables, ∃ c ∈ cat.userRelations, cat.Shows c t

/-- No foreign key of a schema has the name of a primary key of another table of the schema and a
column of the name of one of that table's columns. -/
def KeysApart : Prop :=
  ∀ c ∈ cat.userRelations, ∀ pk ∈ cat.constraints, pk.contype = .primary → pk.conrelid = c.oid →
    ∀ fk ∈ cat.constraints, fk.contype = .foreign → fk.conname = pk.conname →
      cat.schemaOf fk.conrelid = cat.schema c →
        ∀ num ∈ fk.conkey, ∀ a ∈ cat.columnsOf c, cat.attname fk.conrelid num ≠ a.attname

end PgCatalog

end Pg
end Introspect
end AgentDb
