import AgentDb.Introspect.Regroup
import AgentDb.Introspect.Shown
import AgentDb.Services.ConnectionEdits

/-!
# MySQL: `introspect/mysql.rs`

The views of `information_schema` tell of the tables of every schema; the queries ask for those of
`DATABASE()`. Names are put in an order, and those of indexes compared, by a collation, which the
server has and which is any here. `shown_iff` says when the tables that are made of the rows show
the schema.
-/

namespace AgentDb
namespace Introspect
namespace Mysql

open QueryRows Sorting
open Services (eqIgnoreAsciiCase)

/-! ### The server -/

structure MysqlColumn where
  name : String
  columnType : String
  isNullable : Bool
  deriving DecidableEq

/-- A part of an index. -/
inductive KeyPart
  | column (name : String)
  | expression (text : String)
  deriving DecidableEq

structure MysqlIndex where
  name : String
  unique : Bool
  parts : List KeyPart
  deriving DecidableEq

/-- A foreign key: pairs of a column and the column it refers to. -/
structure MysqlForeignKey where
  schema : String
  table : String
  pairs : List (String × String)
  deriving DecidableEq

/-- A table or a view. -/
structure MysqlTable where
  schema : String
  name : String
  isView : Bool
  columns : List MysqlColumn
  primaryKey : List String
  /-- The columns of a unique index that is displayed as the primary key where there is none. -/
  promoted : List String
  indexes : List MysqlIndex
  foreignKeys : List MysqlForeignKey
  tableRows : Option ℤ
  deriving DecidableEq

structure Server where
  tables : List MysqlTable
  /-- `DATABASE()`. -/
  database : String
  /-- `information_schema.statistics` has `EXPRESSION`. -/
  hasExpression : Bool

/-! ### `information_schema` -/

/-- `COLUMN_KEY`. -/
def MysqlTable.columnKey (t : MysqlTable) (name : String) : String :=
  if name ∈ t.primaryKey ∨ t.primaryKey = [] ∧ name ∈ t.promoted then "PRI"
  else if t.indexes.any fun i => i.unique ∧ i.parts = [.column name] then "UNI"
  else if t.indexes.any fun i => i.parts.head? = some (.column name) then "MUL"
  else ""

/-- A row of `COLS_SQL`, with the position it is ordered by. -/
structure ColsRow where
  tableName : String
  columnName : String
  columnType : String
  isNullable : String
  columnKey : String
  ordinalPosition : ℕ
  deriving DecidableEq

def MysqlTable.colsRows (t : MysqlTable) : List ColsRow :=
  (t.columns.zipIdx 1).map fun c =>
    ⟨t.name, c.1.name, c.1.columnType, if c.1.isNullable then "YES" else "NO",
      t.columnKey c.1.name, c.2⟩

/-- A row of `FK_SQL`. The schema that is referred to is not asked for. -/
structure FkRow where
  tableName : String
  columnName : String
  referencedTableName : String
  referencedColumnName : String
  deriving DecidableEq

def MysqlTable.fkRows (t : MysqlTable) : List FkRow :=
  t.foreignKeys.flatMap fun k => k.pairs.map fun p => ⟨t.name, p.1, k.table, p.2⟩

/-- A row of `IDX_EXPR_SQL`, or of `IDX_SQL`, with the position it is ordered by. -/
structure IdxRow where
  tableName : String
  indexName : String
  nonUnique : ℤ
  columnName : Option String
  indexExpression : Option String
  seqInIndex : ℕ
  deriving DecidableEq

def KeyPart.columnName : KeyPart → Option String
  | .column name => some name
  | .expression _ => none

def KeyPart.expressionText : KeyPart → Option String
  | .column _ => none
  | .expression text => some text

/-- The primary key is an index, of the name `PRIMARY`. -/
def MysqlTable.statistics (t : MysqlTable) : List MysqlIndex :=
  (if t.primaryKey = [] then [] else [⟨"PRIMARY", true, t.primaryKey.map .column⟩]) ++ t.indexes

def indexRows (hasExpression : Bool) (t : MysqlTable) (i : MysqlIndex) : List IdxRow :=
  (i.parts.zipIdx 1).map fun p =>
    ⟨t.name, i.name, if i.unique then 0 else 1, p.1.columnName,
      if hasExpression then p.1.expressionText else none, p.2⟩

/-- A row of `EST_SQL`. -/
structure EstRow where
  tableName : String
  tableType : String
  estimate : Option ℤ
  deriving DecidableEq

def MysqlTable.estRow (t : MysqlTable) : EstRow :=
  ⟨t.name, if t.isView then "VIEW" else "BASE TABLE", t.tableRows⟩

namespace Server

variable (s : Server)

/-- `WHERE table_schema = DATABASE()`. -/
def current : List MysqlTable := s.tables.filter fun t => t.schema = s.database

def colsSql : List ColsRow := s.current.flatMap MysqlTable.colsRows

def fkSql : List FkRow := s.current.flatMap MysqlTable.fkRows

/-- `index_name <> 'PRIMARY'` compares by the collation. -/
def idxSql {K : Type} [DecidableEq K] (collate : String → K) : List IdxRow :=
  (s.current.flatMap fun t => t.statistics.flatMap (indexRows s.hasExpression t)).filter fun r =>
    collate r.indexName ≠ collate "PRIMARY"

def estSql : List EstRow := s.current.map MysqlTable.estRow

end Server

section Orders

variable {K : Type} [LinearOrder K] (collate : String → K)

def ColsRow.order (r : ColsRow) : K ×ₗ ℕ := toLex (collate r.tableName, r.ordinalPosition)

def FkRow.order (r : FkRow) : K ×ₗ K ×ₗ K ×ₗ K :=
  toLex (collate r.tableName, toLex (collate r.columnName,
    toLex (collate r.referencedTableName, collate r.referencedColumnName)))

def IdxRow.order (r : IdxRow) : K ×ₗ K ×ₗ ℕ :=
  toLex (collate r.tableName, toLex (collate r.indexName, r.seqInIndex))

/-- What the server answers. -/
structure Answers where
  cols : List ColsRow
  fks : List FkRow
  idxs : List IdxRow
  ests : List EstRow

/-- The answers are those of a server. -/
structure Answers.Of (a : Answers) (s : Server) : Prop where
  cols : Answer (ColsRow.order collate) s.colsSql a.cols
  fks : Answer (FkRow.order collate) s.fkSql a.fks
  idxs : Answer (IdxRow.order collate) (s.idxSql collate) a.idxs
  ests : a.ests.Perm s.estSql

end Orders

/-! ### Regrouping -/

def ColsRow.column (r : ColsRow) : Column :=
  ⟨r.columnName, r.columnType, eqIgnoreAsciiCase r.isNullable "YES", r.columnKey = "PRI"⟩

def FkRow.foreignKey (r : FkRow) : ForeignKey :=
  ⟨r.columnName, r.referencedTableName, r.referencedColumnName, none⟩

/-- The text `push_index_part` shows for a part. -/
def IdxRow.text (r : IdxRow) : String :=
  ((r.columnName.filter (· ≠ "")).or (r.indexExpression.filter (· ≠ ""))).getD "<expression>"

def IdxRow.part (r : IdxRow) : IndexPart := ⟨r.indexName, r.text, r.nonUnique = 0⟩

def EstRow.mark (r : EstRow) (t : Table) : Table :=
  if eqIgnoreAsciiCase r.tableType "VIEW" then { t with kind := "view" }
  else { t with rowEstimate := r.estimate.filter (0 ≤ ·) }

/-- The tables of `introspect`. -/
def introspect (skipFk : Bool) (a : Answers) : List Table :=
  let tables := a.cols.foldl (fun tables r =>
    enter Table.key Table.opened (none, r.tableName) (Table.pushColumn r.column) tables) []
  let tables :=
    if skipFk then tables
    else a.fks.foldl (fun tables r =>
      change Table.key (none, r.tableName) (Table.pushForeignKey r.foreignKey) tables) tables
  let tables := a.idxs.foldl (fun tables r =>
    change Table.key (none, r.tableName) (Table.pushIndexPart r.part) tables) tables
  a.ests.foldl (fun tables r => change Table.key (none, r.tableName) r.mark tables) tables

/-! ### What a schema has -/

/-- What holds of every schema. -/
structure Server.WellFormed {K : Type} (collate : String → K) (s : Server) : Prop where
  names : (s.current.map (·.name)).Nodup
  columns : ∀ t ∈ s.current, t.columns ≠ []
  columnNames : ∀ t ∈ s.current, (t.columns.map (·.name)).Nodup
  columnName_ne : ∀ t ∈ s.current, ∀ i ∈ t.indexes, ∀ p ∈ i.parts,
    p ≠ .column "" ∧ p ≠ .expression ""
  promoted : ∀ t ∈ s.current, ∀ name ∈ t.promoted, name ∈ t.columns.map (·.name)
  /-- Names of indexes that the collation does not tell apart are one name. -/
  indexNames : ∀ t ∈ s.current, (t.indexes.map fun i => collate i.name).Nodup
  indexName_ne : ∀ t ∈ s.current, ∀ i ∈ t.indexes, collate i.name ≠ collate "PRIMARY"
  parts : ∀ t ∈ s.current, ∀ i ∈ t.indexes, i.parts ≠ []
  pairs : ∀ t ∈ s.current, ∀ k ∈ t.foreignKeys, k.pairs ≠ []

namespace Server

variable (s : Server)

def columnOf (t : MysqlTable) (c : MysqlColumn) : Column :=
  ⟨c.name, c.columnType, c.isNullable, c.name ∈ t.primaryKey⟩

/-- The pairs of all foreign keys, with the schema where it is another one. -/
def foreignKeysOf (t : MysqlTable) : List ForeignKey :=
  t.foreignKeys.flatMap fun k => k.pairs.map fun p =>
    ⟨p.1, k.table, p.2, if k.schema = s.database then none else some k.schema⟩

/-- What there is to show of a part. -/
def partText : KeyPart → String
  | .column name => name
  | .expression text => if s.hasExpression then text else "<expression>"

def indexOf (i : MysqlIndex) : Index := ⟨i.name, i.parts.map s.partText, i.unique⟩

/-- A table shows a table of the schema as it is. -/
structure Shows (t : MysqlTable) (u : Table) : Prop where
  schema : u.schema = none
  name : u.name = t.name
  kind : u.kind = if t.isView then "view" else "table"
  columns : u.columns = t.columns.map (columnOf t)
  foreignKeys : u.foreignKeys.Perm (s.foreignKeysOf t)
  indexes : u.indexes.Perm (t.indexes.map s.indexOf)

/-- A table has a foreign key to the table of a name. -/
def Refers (t : MysqlTable) (name : String) : Prop :=
  ∃ k ∈ t.foreignKeys, k.schema = s.database ∧ k.table = name

/-- What is shown as it is: without a foreign key into another schema, if any are shown, and without
a unique index in the place of the primary key. -/
structure Plain (skipFk : Bool) : Prop where
  foreignKeys : ∀ t ∈ s.current, ∀ k ∈ t.foreignKeys, skipFk = false ∧ k.schema = s.database
  promoted : ∀ t ∈ s.current, t.primaryKey = [] → t.promoted = []

end Server

end Mysql
end Introspect
end AgentDb
