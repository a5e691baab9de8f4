import AgentDb.Introspect.Shown
import AgentDb.Lib.SqlTokens
import AgentDb.Services.SchemaGroups

/-!
# SQLite: `introspect/sqlite.rs`

`sqlite_master` names the tables and views, and a `PRAGMA` that names one of them in double quotes
tells the rest. The engine takes names for one that differ in the case of ASCII letters, and keeps
names that begin with `sqlite_` for itself. `shown_iff` says when what `introspect` returns shows
the database.
-/

namespace AgentDb
namespace Introspect
namespace Sqlite

open Sorting SqlTokens
open Services (eqIgnoreAsciiCase mapM_eq_ok)

/-! ### The engine -/

/-- What `PRAGMA table_xinfo` tells apart: a hidden column is one of a virtual table. -/
inductive ColumnKind
  | normal
  | generated
  | hidden
  deriving DecidableEq

structure SqliteColumn where
  name : String
  declType : String
  notNull : Bool
  /-- Its place in the primary key, from 1 on, or 0. -/
  pk : ℕ
  kind : ColumnKind
  deriving DecidableEq

/-- A foreign key as it is declared: the referenced columns may be left out. -/
structure SqliteForeignKey where
  table : String
  columns : List (String × Option String)
  deriving DecidableEq

/-- What an index was made by. -/
inductive Origin
  | createIndex
  | unique
  | primaryKey
  deriving DecidableEq

/-- `origin` of `PRAGMA index_list`. -/
def Origin.text : Origin → String
  | .createIndex => "c"
  | .unique => "u"
  | .primaryKey => "pk"

/-- An index; an expression has no name. -/
structure SqliteIndex where
  name : String
  unique : Bool
  origin : Origin
  parts : List (Option String)
  deriving DecidableEq

/-- A table or a view. The columns of a view that refers to something that is not there are not
known, and neither are those of a virtual table without its module. -/
structure Relation where
  name : String
  isView : Bool
  columns : AppResult (List SqliteColumn)
  foreignKeys : List SqliteForeignKey
  indexes : List SqliteIndex
  /-- What `SELECT COUNT(*)` returns, if it returns. -/
  count : Option ℤ

structure Database where
  relations : List Relation

/-- `LIKE`: a percent sign is any text, an underscore any character, and case is ignored. -/
def like : List Char → List Char → Bool
  | [], s => s = []
  | c :: p, s =>
      if c = '%' then s.tails.any (like p)
      else
        match s with
        | [] => false
        | d :: s => (c = '_' || c.toLower = d.toLower) && like p s

/-- The names the engine keeps for itself. -/
def isReserved (name : String) : Bool :=
  (name.toList.take 7).map Char.toLower = "sqlite_".toList

/-- The name in double quotes that a statement has. -/
def readIdent (text : String) : Option String :=
  match text.toList with
  | '"' :: cs => (quoted false '"' cs).bind fun r =>
      if r.2 = cs.length then some (.ofList r.1) else none
  | _ => none

namespace Database

variable (db : Database)

/-- The table or view a statement names. -/
def named (text : String) : Option Relation :=
  (readIdent text).bind fun name => db.relations.find? fun r => eqIgnoreAsciiCase r.name name

def indexes : List SqliteIndex := db.relations.flatMap (·.indexes)

/-- `PRAGMA table_info`: of the normal columns. -/
def tableInfo (text : String) : AppResult (List SqliteColumn) :=
  match db.named text with
  | some r => r.columns.map fun columns => columns.filter (·.kind = .normal)
  | none => .ok []

/-- `PRAGMA foreign_key_list`: `from`, `table` and `to`. -/
def foreignKeyList (text : String) : List (String × String × Option String) :=
  match db.named text with
  | some r => r.foreignKeys.flatMap fun k => k.columns.map fun c => (c.1, k.table, c.2)
  | none => []

/-- `PRAGMA index_list`. -/
def indexList (text : String) : List SqliteIndex :=
  match db.named text with
  | some r => r.indexes
  | none => []

/-- `PRAGMA index_info`. -/
def indexInfo (text : String) : List (Option String) :=
  match (readIdent text).bind fun name =>
      db.indexes.find? fun i => eqIgnoreAsciiCase i.name name with
  | some i => i.parts
  | none => []

end Database

/-! ### Introspection -/

/-- `quote_ident`. -/
def quoteIdent (name : String) : String := .ofList (enclose false '"' name.toList)

def SqliteColumn.column (c : SqliteColumn) : Column := ⟨c.name, c.declType, !c.notNull, 0 < c.pk⟩

namespace Database

variable (db : Database)

/-- The rows of `sqlite_master` that are gone through. -/
def entries : List Relation :=
  sortBy (·.name) (db.relations.filter fun r => ¬ like "sqlite_%".toList r.name.toList)

def foreignKeysRead (q : String) : List ForeignKey :=
  (db.foreignKeyList q).map fun r => ⟨r.1, r.2.1, r.2.2.getD "", none⟩

def indexesRead (q : String) : List Index :=
  ((db.indexList q).filter fun i => i.origin.text ≠ "pk").map fun i =>
    ⟨i.name, (db.indexInfo (quoteIdent i.name)).map fun name => name.getD "(expression)", i.unique⟩

/-- One round of the loop of `introspect`. -/
def introspectTable (r : Relation) : AppResult Table := do
  let q := quoteIdent r.name
  let columns ← db.tableInfo q
  return {
    schema := none
    name := r.name
    kind := if r.isView then "view" else "table"
    columns := columns.map SqliteColumn.column
    foreignKeys := db.foreignKeysRead q
    indexes := db.indexesRead q
    rowEstimate := if r.isView then none else r.count }

/-- The tables of `introspect`. -/
def introspect : AppResult (List Table) := db.entries.mapM db.introspectTable

/-! ### What a database has -/

/-- What holds of every database. The text of a statement ends at a NUL. -/
structure WellFormed : Prop where
  names : (db.relations.map fun r => r.name.toList.map Char.toLower).Nodup
  indexNames : (db.indexes.map fun i => i.name.toList.map Char.toLower).Nodup
  nul : ∀ r ∈ db.relations, '\x00' ∉ r.name.toList
  indexNul : ∀ i ∈ db.indexes, '\x00' ∉ i.name.toList

def userRelations : List Relation := db.relations.filter fun r => ¬ isReserved r.name

/-- The columns of the primary key of a table, in their order. -/
def parentKey (table : String) : List String :=
  match db.relations.find? fun r => eqIgnoreAsciiCase r.name table with
  | some r => (sortBy (·.pk) ((r.columns.toOption.getD []).filter (0 < ·.pk))).map (·.name)
  | none => []

/-- The column a foreign key refers to: the one that is named, or the one of the primary key of the
parent that has the same place. -/
def referenced (k : SqliteForeignKey) (i : ℕ) (column : Option String) : Option String :=
  column.or (db.parentKey k.table)[i]?

/-- What there is to show of a foreign key: column, table and the column that is referred to. -/
def pairsOf (k : SqliteForeignKey) : List (String × String × Option String) :=
  k.columns.zipIdx.map fun c => (c.1.1, k.table, db.referenced k c.2 c.1.2)

def indexOf (i : SqliteIndex) : Index :=
  ⟨i.name, i.parts.map fun name => name.getD "(expression)", i.unique⟩

/-- A table shows a table or view as it is. -/
structure Shows (r : Relation) (t : Table) : Prop where
  schema : t.schema = none
  name : t.name = r.name
  kind : t.kind = if r.isView then "view" else "table"
  columns : ∃ columns, r.columns = .ok columns ∧
    t.columns = (columns.filter (·.kind ≠ .hidden)).map SqliteColumn.column
  foreignKeys :
    (t.foreignKeys.map fun f => (f.column, f.referencesTable, some f.referencesColumn)).Perm
      (r.foreignKeys.flatMap db.pairsOf)
  schemas : ∀ f ∈ t.foreignKeys, f.referencesSchema = none
  indexes : t.indexes.Perm ((r.indexes.filter (·.origin ≠ .primaryKey)).map indexOf)

/-- A table has a foreign key to the table of a name. -/
def Refers (r : Relation) (name : String) : Prop :=
  ∃ k ∈ r.foreignKeys, eqIgnoreAsciiCase k.table name

/-- What is shown as it is. -/
structure Plain : Prop where
  /-- No name of the user's is hidden with those of the engine. -/
  listed : ∀ r ∈ db.userRelations, like "sqlite_%".toList r.name.toList = false
  /-- The columns are known, and none is generated. -/
  columns : ∀ r ∈ db.userRelations, ∃ columns, r.columns = .ok columns ∧
    ∀ c ∈ columns, c.kind ≠ .generated
  /-- A foreign key that leaves out the referenced column refers to one without a name. -/
  foreignKeys : ∀ r ∈ db.userRelations, ∀ k ∈ r.foreignKeys, ∀ c ∈ k.columns.zipIdx,
    c.1.2 = none → (db.parentKey k.table)[c.2]? = some ""

end Database

end Sqlite
end Introspect
end AgentDb
