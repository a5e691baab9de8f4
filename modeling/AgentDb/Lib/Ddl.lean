import Mathlib.Data.List.Infix
import Mathlib.Logic.Function.Basic
import Mathlib.Tactic

/-!
# Databases whose tables change shape

A database maps names to tables. A table has columns, which statements may add, and rows that
give each of its columns a value and are null elsewhere. The statements are those of SQLite as far
as the shape of a table goes: they fail on tables and columns that are not there and on rows that
break a constraint, and a failure leaves the database alone. Rows stand in the order of their
rowids, which is the order they are scanned in.

Each statement has an inversion lemma about the tables it leaves. The indexes and triggers only
matter to whether a statement can be carried out.
-/

namespace Ddl

/-- A stored value. -/
inductive Value
  | null
  | integer (n : ℤ)
  | real (bits : UInt64)
  | text (s : String)
  | blob (bytes : List UInt8)
  deriving DecidableEq

/-- A default: what `PRAGMA table_info` shows of it, and what it gives. -/
structure Default where
  shown : String
  value : Value
  deriving DecidableEq

def Default.ofText (s : String) : Default := ⟨"'" ++ s ++ "'", .text s⟩

def Default.ofInt (n : ℤ) : Default := ⟨toString n, .integer n⟩

/-- A column, as `PRAGMA table_info` shows it. -/
structure Column where
  name : String
  type : String
  notNull : Bool := false
  dflt : Option Default := none
  pk : ℕ := 0
  deriving DecidableEq

namespace Column

/-- The value in the rows that are there when the column is added. -/
def initial (c : Column) : Value := c.dflt.elim .null (·.value)

def required (c : Column) : Column := { c with notNull := true }

def withDefault (c : Column) (d : Default) : Column := { c with dflt := some d }

def key (c : Column) (n : ℕ) : Column := { c with pk := n }

end Column

/-- A column of type `TEXT`. -/
def text (name : String) : Column := { name, type := "TEXT" }

/-- A column of type `INTEGER`. -/
def integer (name : String) : Column := { name, type := "INTEGER" }

/-- A foreign key, as `PRAGMA foreign_key_list` shows it. -/
structure ForeignKey where
  column : String
  table : String
  parent : Option String
  onDelete : String
  deriving DecidableEq

/-- What `CREATE TABLE` says. -/
structure TableDef where
  columns : List Column
  foreignKeys : List ForeignKey := []
  deriving DecidableEq

/-- The words of the definition that `sqlite_master` stores. -/
def TableDef.words (d : TableDef) : List String :=
  (d.columns.flatMap fun c => [c.name, c.type] ++ (c.dflt.map (·.shown)).toList) ++
    d.foreignKeys.flatMap fun k =>
      [k.column, "REFERENCES", k.table] ++ k.parent.toList ++ ["ON DELETE", k.onDelete]

/-- A row: null where its table has no column. -/
abbrev Row := String → Value

structure Table extends TableDef where
  rows : List Row := []

namespace Table

variable (t : Table)

/-- The names of the columns. -/
def names : List String := t.columns.map (·.name)

/-- The primary key. -/
def key : List String := (t.columns.filter (·.pk ≠ 0)).map (·.name)

/-- The row made of values for some of the columns. -/
def row (values : List (String × Value)) : Row := fun c =>
  (values.lookup c).getD (((t.columns.find? (·.name = c)).map Column.initial).getD .null)

/-- The row is null in a column that must not be. -/
def lacks (r : Row) : Bool := t.columns.any fun c => c.notNull && r c.name = .null

/-- Two rows have the same primary key. -/
def sameKey (r r' : Row) : Bool := t.key ≠ [] && t.key.all fun c => r c ≠ .null && r' c = r c

/-- A row has the primary key already. -/
def conflicts (r : Row) : Bool := t.rows.any (t.sameKey r)

/-- No row has a value in a column that is not there. -/
def Tidy : Prop := ∀ r ∈ t.rows, ∀ c, c ∉ t.names → r c = .null

end Table

structure Index where
  name : String
  table : String
  columns : List String
  unique : Bool := false
  /-- The column of `WHERE … IS NOT NULL`. -/
  filled : Option String := none
  deriving DecidableEq

/-- Two rows have the same columns of a unique index. -/
def Index.equal (i : Index) (r r' : Row) : Bool :=
  i.columns.all fun c => r c ≠ .null && r' c = r c

/-- The rows can be in the index. -/
def Index.admits (i : Index) (rows : List Row) : Bool :=
  !i.unique || decide ((rows.filter fun r => i.filled.all fun c => r c ≠ .null).Pairwise fun r r' =>
    i.equal r r' = false)

/-- A database. -/
structure Db where
  tables : String → Option Table := fun _ => none
  indexes : List Index := []
  triggers : List (String × String) := []

namespace Db

variable (db : Db)

/-- The rows of a table. -/
def rows (name : String) : List Row := (db.tables name).elim [] (·.rows)

/-- `PRAGMA table_info`. -/
def tableInfo (name : String) : List Column := (db.tables name).elim [] (·.columns)

/-- `PRAGMA foreign_key_list`. -/
def foreignKeyList (name : String) : List ForeignKey := (db.tables name).elim [] (·.foreignKeys)

/-- The table stands under a name. -/
def set (name : String) (t : Table) : Db :=
  { db with tables := Function.update db.tables name (some t) }

@[simp] theorem set_tables (name : String) (t : Table) :
    (db.set name t).tables = Function.update db.tables name (some t) := rfl

/-- What the row refers to is there. -/
def referred (t : Table) (r : Row) : Bool :=
  t.foreignKeys.all fun k => r k.column = .null ||
    (db.tables k.table).any fun t' =>
      (k.parent <|> t'.key.head?).any fun c => t'.rows.any fun r' => r' c = r k.column

end Db

/-! ### Statements -/

section Statements

variable (name : String) (db : Db)

def noSuchTable : String := "no such table: " ++ name

/-- A statement on a table that is there. -/
def withTable (f : Table → Except String Db) : Except String Db :=
  match db.tables name with
  | none => .error (noSuchTable name)
  | some t => f t

/-- `CREATE TABLE`. -/
def createTable (d : TableDef) : Except String Db :=
  if (db.tables name).isSome then .error ("table " ++ name ++ " already exists")
  else .ok (db.set name { d with })

/-- `CREATE TABLE IF NOT EXISTS`. -/
def createTableIfNotExists (d : TableDef) : Except String Db :=
  if (db.tables name).isSome then .ok db else .ok (db.set name { d with })

/-- `CREATE [UNIQUE] INDEX IF NOT EXISTS`. -/
def createIndexIfNotExists (i : Index) : Except String Db :=
  withTable i.table db fun t =>
    if db.indexes.any (·.name = i.name) then .ok db
    else if ¬ i.columns ⊆ t.names then .error "no such column"
    else if i.admits t.rows then .ok { db with indexes := db.indexes ++ [i] }
    else .error "UNIQUE constraint failed"

/-- `DROP INDEX IF EXISTS`. -/
def dropIndexIfExists : Except String Db :=
  .ok { db with indexes := db.indexes.filter (·.name ≠ name) }

/-- `CREATE TRIGGER IF NOT EXISTS`. -/
def createTriggerIfNotExists (table : String) : Except String Db :=
  withTable table db fun _ =>
    if db.triggers.any (·.1 = name) then .ok db
    else .ok { db with triggers := db.triggers ++ [(name, table)] }

/-- The rows of `INSERT OR IGNORE` that are left out are those a constraint forbids. -/
def insertOrIgnore (values : List (String × Value)) : Except String Db :=
  withTable name db fun t =>
    let r := t.row values
    if ¬ values.map Prod.fst ⊆ t.names then .error "no such column"
    else if t.lacks r || t.conflicts r then .ok db
    else if db.referred t r then .ok (db.set name { t with rows := t.rows ++ [r] })
    else .error "FOREIGN KEY constraint failed"

/-- `INSERT`. -/
def insert (values : List (String × Value)) : Except String Db :=
  withTable name db fun t =>
    let r := t.row values
    if ¬ values.map Prod.fst ⊆ t.names then .error "no such column"
    else if t.lacks r then .error "NOT NULL constraint failed"
    else if t.conflicts r then .error "UNIQUE constraint failed"
    else if db.referred t r then .ok (db.set name { t with rows := t.rows ++ [r] })
    else .error "FOREIGN KEY constraint failed"

/-- `INSERT … ON CONFLICT(key) DO UPDATE SET column = excluded.column`. -/
def upsert (values : List (String × Value)) (column : String) : Except String Db :=
  withTable name db fun t =>
    let r := t.row values
    if ¬ values.map Prod.fst ⊆ t.names then .error "no such column"
    else if t.lacks r then .error "NOT NULL constraint failed"
    else if t.conflicts r then
      .ok (db.set name { t with
        rows := t.rows.map fun r' =>
          if t.sameKey r r' then Function.update r' column (r column) else r' })
    else if db.referred t r then .ok (db.set name { t with rows := t.rows ++ [r] })
    else .error "FOREIGN KEY constraint failed"

/-- `INSERT … SELECT` of columns and constants, in the order of the rows read. -/
def insertSelect (columns : List (String × (String ⊕ Value))) (source : String) :
    Except String Db :=
  withTable source db fun t =>
    if ¬ columns.filterMap (fun c => c.2.getLeft?) ⊆ t.names then .error "no such column"
    else t.rows.foldlM (fun db r => insert name db
      (columns.map fun c => (c.1, c.2.elim r id))) db

/-- `UPDATE`, with the columns it names. -/
def update (columns : List String) (p : Row → Bool) (f : Row → Row) : Except String Db :=
  withTable name db fun t =>
    let rows := t.rows.map fun r => if p r then f r else r
    if ¬ columns ⊆ t.names then .error "no such column"
    else if rows.any t.lacks then .error "NOT NULL constraint failed"
    else if t.rows.all fun r => !p r || db.referred t (f r) then .ok (db.set name { t with rows })
    else .error "FOREIGN KEY constraint failed"

/-- `DELETE`, with the columns it names. -/
def delete (columns : List String) (p : Row → Bool) : Except String Db :=
  withTable name db fun t =>
    if ¬ columns ⊆ t.names then .error "no such column"
    else .ok (db.set name { t with rows := t.rows.filter fun r => !p r })

def duplicateColumn (column : String) : String := "duplicate column name: " ++ column

/-- `ALTER TABLE … ADD COLUMN`. -/
def addColumn (c : Column) : Except String Db :=
  withTable name db fun t =>
    if c.name ∈ t.names then .error (duplicateColumn c.name)
    else .ok (db.set name
      { t with
        columns := t.columns ++ [c]
        rows := t.rows.map fun r => Function.update r c.name c.initial })

/-- `DROP TABLE` of a table that no other refers to, with its indexes and triggers. -/
def dropTable : Except String Db :=
  withTable name db fun _ => .ok
    { tables := Function.update db.tables name none
      indexes := db.indexes.filter (·.table ≠ name)
      triggers := db.triggers.filter (·.2 ≠ name) }

/-- `DROP TABLE IF EXISTS`. -/
def dropTableIfExists : Except String Db :=
  if (db.tables name).isSome then dropTable name db else .ok db

/-- `ALTER TABLE … RENAME TO`. -/
def renameTable (newName : String) : Except String Db :=
  withTable name db fun t =>
    if (db.tables newName).isSome then
      .error ("there is already another table or index with this name: " ++ newName)
    else .ok
      { tables := Function.update (Function.update db.tables name none) newName (some t)
        indexes := db.indexes.map fun i => if i.table = name then { i with table := newName } else i
        triggers := db.triggers.map fun g => if g.2 = name then (g.1, newName) else g }

end Statements

/-! ### Rows -/

section Rows

variable {t : Table} {values : List (String × Value)} {c : String} {v : Value}

theorem Table.row_of_lookup (h : values.lookup c = some v) : t.row values c = v := by
  rw [Table.row, h, Option.getD_some]

theorem Table.lookup_eq_none (h : c ∉ values.map Prod.fst) : values.lookup c = none := by
  induction values with
  | nil => rfl
  | cons v values ih =>
    rw [List.map_cons, List.mem_cons, not_or] at h
    rw [List.lookup_cons, beq_eq_false_iff_ne.2 h.1]
    exact ih h.2

/-- A new row is null where its table has no column. -/
theorem Table.row_of_not_mem (hvalues : values.map Prod.fst ⊆ t.names) (hc : c ∉ t.names) :
    t.row values c = .null := by
  have hfind : t.columns.find? (·.name = c) = none := by
    refine List.find?_eq_none.2 fun d hd h => hc ?_
    rw [← of_decide_eq_true h]
    exact List.mem_map_of_mem hd
  rw [Table.row, Table.lookup_eq_none fun h => hc (hvalues h), hfind]
  rfl

end Rows

/-! ### What a statement leaves -/

variable {name : String} {db db' : Db}

theorem withTable_eq_ok {f : Table → Except String Db} :
    withTable name db f = .ok db' ↔ ∃ t, db.tables name = some t ∧ f t = .ok db' := by
  unfold withTable
  rcases db.tables name with _ | t <;> simp

theorem createTable_eq_ok {d : TableDef} : createTable name db d = .ok db' ↔
    db.tables name = none ∧ db' = db.set name { d with } := by
  unfold createTable
  rcases db.tables name with _ | t <;> simp [eq_comm]

theorem createTableIfNotExists_eq_ok {d : TableDef} : createTableIfNotExists name db d = .ok db' ↔
    (db.tables name).isSome ∧ db' = db ∨
      db.tables name = none ∧ db' = db.set name { d with } := by
  unfold createTableIfNotExists
  rcases db.tables name with _ | t <;> simp [eq_comm]

theorem tables_of_createIndex {i : Index} (h : createIndexIfNotExists db i = .ok db') :
    db'.tables = db.tables := by
  obtain ⟨t, -, h⟩ := withTable_eq_ok.1 h
  split_ifs at h <;> cases h <;> rfl

theorem tables_of_dropIndex (h : dropIndexIfExists name db = .ok db') : db'.tables = db.tables := by
  cases h
  rfl

theorem tables_of_createTrigger {table : String}
    (h : createTriggerIfNotExists name db table = .ok db') : db'.tables = db.tables := by
  obtain ⟨t, -, h⟩ := withTable_eq_ok.1 h
  split_ifs at h <;> cases h <;> rfl

theorem insertOrIgnore_eq_ok {values : List (String × Value)}
    (h : insertOrIgnore name db values = .ok db') : ∃ t, db.tables name = some t ∧
      ((t.lacks (t.row values) || t.conflicts (t.row values)) = true ∧ db' = db ∨
        (values.map Prod.fst ⊆ t.names ∧ t.conflicts (t.row values) = false ∧
          db' = db.set name { t with rows := t.rows ++ [t.row values] })) := by
  obtain ⟨t, ht, h⟩ := withTable_eq_ok.1 h
  refine ⟨t, ht, ?_⟩
  dsimp only at h
  split_ifs at h with hnames hbad
  · cases h
    exact .inl ⟨hbad, rfl⟩
  · cases h
    rw [Bool.or_eq_true, not_or, Bool.not_eq_true, Bool.not_eq_true] at hbad
    exact .inr ⟨hnames, hbad.2, rfl⟩

theorem insert_eq_ok {values : List (String × Value)} (h : insert name db values = .ok db') :
    ∃ t, db.tables name = some t ∧
      db' = db.set name { t with rows := t.rows ++ [t.row values] } := by
  obtain ⟨t, ht, h⟩ := withTable_eq_ok.1 h
  dsimp only at h
  split_ifs at h
  cases h
  exact ⟨t, ht, rfl⟩

/-- Rows that are inserted one after the other stand at the end in that order. -/
theorem foldlM_insert_eq_ok {values : Row → List (String × Value)} {rows : List Row} {t : Table}
    (ht : db.tables name = some t)
    (h : rows.foldlM (fun db r => insert name db (values r)) db = .ok db') :
    db'.tables = Function.update db.tables name
      (some { t with rows := t.rows ++ rows.map fun r => t.row (values r) }) := by
  induction rows generalizing db t with
  | nil =>
    cases h
    rw [List.map_nil, List.append_nil, ← ht, Function.update_eq_self]
  | cons r rows ih =>
    rw [List.foldlM_cons] at h
    rcases h₁ : insert name db (values r) with e | db₁ <;> rw [h₁] at h
    · cases h
    · obtain ⟨u, hu, rfl⟩ := insert_eq_ok h₁
      rw [ht] at hu
      cases hu
      have hih := ih (by rw [Db.set_tables, Function.update_self]) h
      rw [hih, Db.set_tables, Function.update_idem]
      simp only [List.map_cons, List.append_assoc, List.singleton_append]
      rfl

theorem insertSelect_eq_ok {columns : List (String × (String ⊕ Value))} {source : String}
    {t : Table} (ht : db.tables name = some t)
    (h : insertSelect name db columns source = .ok db') : ∃ u, db.tables source = some u ∧
      db'.tables = Function.update db.tables name (some { t with
        rows := t.rows ++ u.rows.map fun r =>
          t.row (columns.map fun c => (c.1, c.2.elim r id)) }) := by
  obtain ⟨u, hu, h⟩ := withTable_eq_ok.1 h
  split_ifs at h
  exact ⟨u, hu, foldlM_insert_eq_ok ht h⟩

theorem upsert_eq_ok {values : List (String × Value)} {column : String}
    (h : upsert name db values column = .ok db') : ∃ t, db.tables name = some t ∧
      values.map Prod.fst ⊆ t.names ∧ (db' = db.set name { t with
          rows := t.rows.map fun r' =>
            if t.sameKey (t.row values) r' then Function.update r' column (t.row values column)
            else r' } ∨
        t.conflicts (t.row values) = false ∧
          db' = db.set name { t with rows := t.rows ++ [t.row values] }) := by
  obtain ⟨t, ht, h⟩ := withTable_eq_ok.1 h
  refine ⟨t, ht, ?_⟩
  dsimp only at h
  split_ifs at h with hnames _ hconflicts
  · cases h
    exact ⟨hnames, .inl rfl⟩
  · cases h
    exact ⟨hnames, .inr ⟨Bool.not_eq_true _ ▸ hconflicts, rfl⟩⟩

theorem update_eq_ok {columns : List String} {p : Row → Bool} {f : Row → Row}
    (h : update name db columns p f = .ok db') : ∃ t, db.tables name = some t ∧
      columns ⊆ t.names ∧
        db' = db.set name { t with rows := t.rows.map fun r => if p r then f r else r } := by
  obtain ⟨t, ht, h⟩ := withTable_eq_ok.1 h
  dsimp only at h
  split_ifs at h with hnames
  cases h
  exact ⟨t, ht, hnames, rfl⟩

theorem delete_eq_ok {columns : List String} {p : Row → Bool}
    (h : delete name db columns p = .ok db') : ∃ t, db.tables name = some t ∧
      db' = db.set name { t with rows := t.rows.filter fun r => !p r } := by
  obtain ⟨t, ht, h⟩ := withTable_eq_ok.1 h
  split_ifs at h
  cases h
  exact ⟨t, ht, rfl⟩

theorem addColumn_eq_ok {c : Column} : addColumn name db c = .ok db' ↔
    ∃ t, db.tables name = some t ∧ c.name ∉ t.names ∧ db' = db.set name
      { t with
        columns := t.columns ++ [c]
        rows := t.rows.map fun r => Function.update r c.name c.initial } := by
  unfold addColumn
  rw [withTable_eq_ok]
  refine exists_congr fun t => and_congr_right fun _ => ?_
  by_cases hc : c.name ∈ t.names <;> simp [hc, eq_comm]

theorem addColumn_eq_error {c : Column} {e : String} (h : addColumn name db c = .error e) :
    db.tables name = none ∨ ∃ t, db.tables name = some t ∧ c.name ∈ t.names := by
  unfold addColumn withTable at h
  rcases ht : db.tables name with _ | t
  · exact .inl rfl
  · rw [ht] at h
    dsimp only at h
    split_ifs at h with hc
    exact .inr ⟨t, rfl, hc⟩

theorem tables_of_dropTable (h : dropTable name db = .ok db') :
    db'.tables = Function.update db.tables name none := by
  obtain ⟨t, -, h⟩ := withTable_eq_ok.1 h
  cases h
  rfl

theorem tables_of_dropTableIfExists (h : dropTableIfExists name db = .ok db') :
    db'.tables = Function.update db.tables name none := by
  unfold dropTableIfExists at h
  split_ifs at h with hsome
  · exact tables_of_dropTable h
  · cases h
    rw [Bool.not_eq_true, Option.isSome_eq_false_iff, Option.isNone_iff_eq_none] at hsome
    rw [← hsome, Function.update_eq_self]

theorem tables_of_renameTable {newName : String} (h : renameTable name db newName = .ok db') :
    ∃ t, db.tables name = some t ∧ db.tables newName = none ∧
      db'.tables = Function.update (Function.update db.tables name none) newName (some t) := by
  obtain ⟨t, ht, h⟩ := withTable_eq_ok.1 h
  split_ifs at h with hsome
  cases h
  rw [Bool.not_eq_true, Option.isSome_eq_false_iff, Option.isNone_iff_eq_none] at hsome
  exact ⟨t, ht, hsome, rfl⟩

end Ddl
