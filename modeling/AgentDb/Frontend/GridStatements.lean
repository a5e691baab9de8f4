import AgentDb.Frontend.GridPages
import AgentDb.Frontend.StatementSplit

/-!
# What the builders of the data grid promise

For names that the engine takes as they are written, and values without NUL, each builder gives one
statement: every name in it is one quoted identifier and every value one token, or a sign and a
number, whatever the names and the values hold; and `split_statements` leaves the text in one
piece (`grid_statements`).
-/

namespace AgentDb
namespace Frontend
namespace SqlBuild

open SqlTokens
open SqlScript (splitStatements)

variable {engine : Engine} {table : CatalogTable}

/-- The engine takes the names of a catalog table as they are written. -/
def Named (engine : Engine) (table : CatalogTable) : Prop :=
  ∀ name ∈ tableNames engine table ++ table.columns.map (·.name), Writable engine name

instance (engine : Engine) (table : CatalogTable) : Decidable (Named engine table) :=
  inferInstanceAs (Decidable (∀ name ∈ _, _))

/-- No value holds the character that no statement may hold. -/
def TextValues (values : Table String (Option String)) : Prop :=
  ∀ c ∈ values.rows, ∀ v ∈ c.2, NulFree v

instance (values : Table String (Option String)) : Decidable (TextValues values) :=
  inferInstanceAs (Decidable (∀ c ∈ values.rows, ∀ v ∈ c.2, NulFree v))

def TextFilters (filters : Table String String) : Prop := ∀ c ∈ filters.rows, NulFree c.2

def Literal.tokens (value : Literal) : List Token := value.lexemes.reduceOption

/-- What a value may be given as: `NULL`, one number, a sign and a number, or one string. -/
inductive GivenAs : Option String → List Token → Prop
  | null : GivenAs none [.word "NULL"]
  | blank {v : String} (h : trim v = "") : GivenAs (some v) [.word "NULL"]
  | number {v : String} : GivenAs (some v) [.number (trim v)]
  | negative {v n : String} (h : trim v = "-" ++ n) : GivenAs (some v) [.symbol '-', .number n]
  | string {v : String} : GivenAs (some v) [.string v]

/-- A text is read as one statement, by the engine and by `split_statements`; for MySQL the latter
is said of names between whose backticks there is nothing that it stops at. -/
def OneStatement (engine : Engine) (sql : String) (s : Statement) : Prop :=
  SqlTokens.tokens (dialect engine) sql.toList = some (s.tokens engine) ∧
    .symbol ';' ∉ s.tokens engine ∧
    ((engine = .mysql → ∀ name, .ident name ∈ s.tokens engine → Quiet name) →
      splitStatements sql engine = [sql])

theorem oneStatement_of_writes {sql : String} {s : Statement} (h : Writes engine sql s)
    (hkeyed : s.Keyed) (hnames : ∀ name ∈ s.names engine, Writable engine name)
    (hliterals : ∀ value ∈ s.literals, value.Writable) : OneStatement engine sql s :=
  ⟨tokens_statement h hnames hliterals, semicolon_notMem (chain_statement hnames hliterals),
    split_statement h hkeyed hnames hliterals⟩

/-! ### The values -/

theorem givenAs_literal (dataType : String) (value : Option String) :
    GivenAs value (literal dataType value).tokens := by
  cases value with
  | none => exact .null
  | some v =>
      unfold literal
      dsimp only
      split
      · rename_i h
        exact .blank h.2
      split
      · show GivenAs _ (numberLexemes (trim v)).reduceOption
        unfold numberLexemes
        split
        · rename_i cs hcs
          refine .negative ?_
          rw [← String.toList_inj, hcs]
          simp
        · exact .number
      · exact .string

theorem literal_writable {dataType : String} {value : Option String}
    (h : ∀ v ∈ value, NulFree v) : (literal dataType value).Writable := by
  cases value with
  | none => trivial
  | some v =>
      unfold literal
      dsimp only
      split
      · trivial
      split
      · rename_i hnumber
        exact hnumber.2
      · exact h v rfl

theorem nulFree_trim {s : String} (h : NulFree s) : NulFree (trim s) := by
  intro hmem
  refine h ?_
  rw [trim, String.toList_ofList, List.mem_reverse] at hmem
  have hrev := (List.dropWhile_suffix _).subset hmem
  exact (List.dropWhile_suffix _).subset (List.mem_reverse.1 hrev)

/-- A condition is on its column, and compares with what the filter holds. -/
theorem condition_writable {col : CatalogColumn} {raw : String} {c : Condition}
    (h : condition col raw = some c) (hraw : NulFree raw) :
    c.col = col.name ∧ c.literal.Writable := by
  have htrim := nulFree_trim hraw
  unfold condition at h
  dsimp only at h
  split at h
  · cases h
  split at h
  · cases h
    exact ⟨rfl, trivial⟩
  split at h
  · cases h
    exact ⟨rfl, trivial⟩
  split at h
  · rename_i cs hcs
    cases h
    refine ⟨rfl, ?_⟩
    show (literal col.dataType (some (String.ofList cs))).Writable
    refine literal_writable fun v hv hmem => ?_
    cases hv
    rw [String.toList_ofList] at hmem
    exact htrim (hcs ▸ List.mem_cons_of_mem _ hmem)
  · cases h
    refine ⟨rfl, ?_⟩
    show '\x00' ∉ _
    simpa [NulFree] using htrim

theorem get_mem {α : Type} {t : Table String α} {name : String} {v : α}
    (h : t.get name = some v) : (name, v) ∈ t.rows := by
  obtain ⟨r, hr, rfl⟩ := Option.map_eq_some_iff.1 h
  obtain ⟨hname, -⟩ := List.find?_eq_some_iff_append.1 hr
  have hmem := List.mem_of_find?_eq_some hr
  rwa [← of_decide_eq_true hname]

theorem conditions_writable {columns : List CatalogColumn} {filters : Table String String}
    (hfilters : TextFilters filters) {c : Condition} (hc : c ∈ conditions columns filters) :
    (∃ col ∈ columns, c.col = col.name) ∧ c.literal.Writable := by
  obtain ⟨col, hcol, hc⟩ := List.mem_flatMap.1 hc
  have hraw : NulFree ((filters.get col.name).getD "") := by
    cases h : filters.get col.name with
    | none => exact List.not_mem_nil
    | some raw => exact hfilters _ (get_mem h)
  obtain ⟨hname, hliteral⟩ := condition_writable (Option.mem_toList.1 hc) hraw
  exact ⟨⟨col, hcol, hname⟩, hliteral⟩

/-- The columns that a statement assigns have the values they are given. -/
theorem mem_assigned {values : Table String (Option String)} {columns : List CatalogColumn}
    {cols : List (CatalogColumn × Option String)} (h : assigned values columns = .ok cols)
    {c : CatalogColumn × Option String} (hc : c ∈ cols) :
    c.1 ∈ columns ∧ values.get c.1.name = some c.2 := by
  induction columns generalizing cols with
  | nil =>
      cases h
      cases hc
  | cons col columns ih =>
      unfold assigned read at h
      cases hget : values.get col.name with
      | none =>
          rw [hget] at h
          by_cases hinherited : col.name ∈ inheritedNames
          · simp [hinherited] at h
          · simp only [hinherited, if_false] at h
            exact (ih h hc).imp_left (List.mem_cons_of_mem _)
      | some v =>
          rw [hget] at h
          dsimp only at h
          cases hrest : assigned values columns with
          | error e =>
              rw [hrest] at h
              cases h
          | ok rest =>
              rw [hrest] at h
              cases h
              rcases List.mem_cons.1 hc with rfl | hc
              · exact ⟨List.mem_cons_self, hget⟩
              · exact (ih hrest hc).imp_left (List.mem_cons_of_mem _)

theorem named_table (h : Named engine table) :
    ∀ name ∈ tableNames engine table, Writable engine name :=
  fun name hname => h name (List.mem_append_left _ hname)

theorem named_column (h : Named engine table) {col : CatalogColumn} (hcol : col ∈ table.columns) :
    Writable engine col.name :=
  h col.name (List.mem_append_right _ (List.mem_map_of_mem hcol))

/-- What a table is read in order of are columns of the table, and the one that is asked for. -/
theorem sortKeys_writable (h : Named engine table) {sort : Option GridSort}
    (hsort : ∀ s ∈ sort, Writable engine s.col) {key : SortKey}
    (hkey : key ∈ sortKeys table sort) : Writable engine key.col := by
  have hcolumns : ∀ cols : List CatalogColumn, (∀ col ∈ cols, col ∈ table.columns) →
      ∀ key ∈ cols.map fun c => (⟨c.name, none⟩ : SortKey), Writable engine key.col := by
    intro cols hcols key hkey
    obtain ⟨col, hcol, rfl⟩ := List.mem_map.1 hkey
    exact named_column h (hcols col hcol)
  have hpk : ∀ col ∈ pkColumns table, col ∈ table.columns := fun col hcol =>
    (List.mem_filter.1 hcol).1
  cases sort with
  | none =>
      refine hcolumns _ (fun col hcol => ?_) key hkey
      split at hcol
      · exact List.mem_of_mem_take hcol
      · exact hpk col hcol
  | some sort =>
      rcases List.mem_cons.1 hkey with rfl | hkey
      · exact hsort sort rfl
      · exact hcolumns _ (fun col hcol => hpk col (List.mem_filter.1 hcol).1) key hkey

/-! ### The builders -/

/-- What is assigned to columns of the table can be written. -/
theorem assigned_writable (h : Named engine table) {values : Table String (Option String)}
    (hvalues : TextValues values) {cols : List (CatalogColumn × Option String)}
    (hcols : assigned values table.columns = .ok cols) {c : CatalogColumn × Option String}
    (hc : c ∈ cols) : Writable engine c.1.name ∧ (literal c.1.dataType c.2).Writable := by
  obtain ⟨hcolumn, hget⟩ := mem_assigned hcols hc
  exact ⟨named_column h hcolumn, literal_writable (hvalues _ (get_mem hget))⟩

theorem insert_statement (h : Named engine table) {values : Table String (Option String)}
    {sql : String} (hvalues : TextValues values)
    (hsql : buildInsert engine table values = .ok sql) :
    ∃ cols, assigned values table.columns = .ok cols ∧
      OneStatement engine sql (insertOf table cols) := by
  obtain ⟨cols, hcols, -, hwrites⟩ := insert_text hsql
  refine ⟨cols, hcols, oneStatement_of_writes hwrites trivial ?_ ?_⟩
  · simp only [insertOf, Statement.names, List.map_map, List.forall_mem_append,
      List.forall_mem_map]
    exact ⟨named_table h, fun c hc => (assigned_writable h hvalues hcols hc).1⟩
  · simp only [insertOf, Statement.literals, List.map_map, List.forall_mem_map]
    exact fun c hc => (assigned_writable h hvalues hcols hc).2

theorem update_statement (h : Named engine table)
    {pkValues setValues : Table String (Option String)} {sql : String}
    (hpk : TextValues pkValues) (hset : TextValues setValues)
    (hkey : ∀ c ∈ pkValues.rows, Writable engine c.1)
    (hsql : buildUpdate engine table pkValues setValues = .ok sql) :
    ∃ cols, assigned setValues table.columns = .ok cols ∧ pkValues.rows ≠ [] ∧
      OneStatement engine sql (updateOf table cols pkValues) := by
  obtain ⟨cols, hcols, -, hne, hwrites⟩ := update_text hsql
  refine ⟨cols, hcols, hne, oneStatement_of_writes hwrites ?_ ?_ ?_⟩
  · exact fun hnil => hne (List.map_eq_nil_iff.1 hnil)
  · simp only [updateOf, keyOf, Statement.names, List.map_map, List.forall_mem_append,
      List.forall_mem_map]
    exact ⟨named_table h, fun c hc => (assigned_writable h hset hcols hc).1, hkey⟩
  · simp only [updateOf, keyOf, Statement.literals, List.map_map, List.forall_mem_append,
      List.forall_mem_map]
    exact ⟨fun c hc => (assigned_writable h hset hcols hc).2,
      fun c hc => literal_writable (hpk c hc)⟩

theorem delete_statement (h : Named engine table) {pkValues : Table String (Option String)}
    {sql : String} (hpk : TextValues pkValues)
    (hkey : ∀ c ∈ pkValues.rows, Writable engine c.1)
    (hsql : buildDelete engine table pkValues = .ok sql) :
    pkValues.rows ≠ [] ∧ OneStatement engine sql (deleteOf table pkValues) := by
  obtain ⟨hne, hwrites⟩ := delete_text hsql
  refine ⟨hne, oneStatement_of_writes hwrites ?_ ?_ ?_⟩
  · exact fun hnil => hne (List.map_eq_nil_iff.1 hnil)
  · simp only [deleteOf, keyOf, Statement.names, List.map_map, List.forall_mem_append,
      List.forall_mem_map]
    exact ⟨named_table h, hkey⟩
  · simp only [deleteOf, keyOf, Statement.literals, List.map_map, List.forall_mem_map]
    exact fun c hc => literal_writable (hpk c hc)

/-- The conditions of the filters can be written. -/
theorem filters_writable (h : Named engine table) {filters : Table String String}
    (hfilters : TextFilters filters) :
    (∀ c ∈ conditions table.columns filters, Writable engine c.col) ∧
      ∀ c ∈ conditions table.columns filters, c.literal.Writable := by
  refine ⟨fun c hc => ?_, fun c hc => (conditions_writable hfilters hc).2⟩
  obtain ⟨col, hcol, hname⟩ := (conditions_writable hfilters hc).1
  rw [hname]
  exact named_column h hcol

theorem page_statement (h : Named engine table) {filters : Table String String}
    {sort : Option GridSort} {limit offset : ℕ} {sql : String} (hfilters : TextFilters filters)
    (hsort : ∀ s ∈ sort, Writable engine s.col)
    (hsql : buildPageQuery engine table filters sort limit offset = .ok sql) :
    OneStatement engine sql (.page ⟨table, conditions table.columns filters,
      sortKeys table sort, limit, offset⟩) := by
  refine oneStatement_of_writes (page_text hsql) trivial ?_ ?_
  · simp only [Statement.names, List.forall_mem_append, List.forall_mem_map]
    exact ⟨named_table h, (filters_writable h hfilters).1,
      fun key hkey => sortKeys_writable h hsort hkey⟩
  · simp only [Statement.literals, List.forall_mem_map]
    exact (filters_writable h hfilters).2

theorem count_statement (h : Named engine table) {filters : Table String String} {sql : String}
    (hfilters : TextFilters filters) (hsql : buildCountQuery engine table filters = .ok sql) :
    OneStatement engine sql (.count ⟨table, conditions table.columns filters⟩) := by
  refine oneStatement_of_writes (count_text hsql) trivial ?_ ?_
  · simp only [Statement.names, List.forall_mem_append, List.forall_mem_map]
    exact ⟨named_table h, (filters_writable h hfilters).1⟩
  · simp only [Statement.literals, List.forall_mem_map]
    exact (filters_writable h hfilters).2

/-- **The statements of the data grid.** Whatever names that the engine takes as they are written,
and whatever values without NUL, the texts of the builders are read as one statement each: with
every name as one quoted identifier, with every value as it is given, with one equality for every
column of the key where a row is changed or deleted. -/
theorem grid_statements (engine : Engine) (table : CatalogTable) (hnamed : Named engine table) :
    (∀ values sql, TextValues values → buildInsert engine table values = .ok sql →
      ∃ cols, assigned values table.columns = .ok cols ∧
        OneStatement engine sql (insertOf table cols)) ∧
    (∀ pkValues setValues sql, TextValues pkValues → TextValues setValues →
      (∀ c ∈ pkValues.rows, Writable engine c.1) →
      buildUpdate engine table pkValues setValues = .ok sql →
      ∃ cols, assigned setValues table.columns = .ok cols ∧ pkValues.rows ≠ [] ∧
        OneStatement engine sql (updateOf table cols pkValues)) ∧
    (∀ pkValues sql, TextValues pkValues → (∀ c ∈ pkValues.rows, Writable engine c.1) →
      buildDelete engine table pkValues = .ok sql →
      pkValues.rows ≠ [] ∧ OneStatement engine sql (deleteOf table pkValues)) ∧
    (∀ filters sort limit offset sql, TextFilters filters →
      (∀ s ∈ sort, Writable engine s.col) →
      buildPageQuery engine table filters sort limit offset = .ok sql →
      OneStatement engine sql (.page ⟨table, conditions table.columns filters,
        sortKeys table sort, limit, offset⟩)) ∧
    (∀ filters sql, TextFilters filters → buildCountQuery engine table filters = .ok sql →
      OneStatement engine sql (.count ⟨table, conditions table.columns filters⟩)) ∧
    ∀ dataType value, GivenAs value (literal dataType value).tokens :=
  ⟨fun _ _ hvalues hsql => insert_statement hnamed hvalues hsql,
    fun _ _ _ hpk hset hkey hsql => update_statement hnamed hpk hset hkey hsql,
    fun _ _ hpk hkey hsql => delete_statement hnamed hpk hkey hsql,
    fun _ _ _ _ _ hfilters hsort hsql => page_statement hnamed hfilters hsort hsql,
    fun _ _ hfilters hsql => count_statement hnamed hfilters hsql, givenAs_literal⟩

/-- One row is deleted, whatever its name holds. -/
theorem delete_log_statement : OneStatement .postgres
    "DELETE FROM \"log\" WHERE \"level\" = 1 AND \"message\" = 'it''s; --'"
    (deleteOf (logTable true) ((Table.empty.put "level" (some " 1 ")).put "message"
      (some "it's; --"))) :=
  ((grid_statements .postgres (logTable true) (by decide +kernel)).2.2.1 _ _ (by decide +kernel)
    (by decide +kernel) rfl).2

/-- A negative number is a sign and a number, and PostgreSQL does not read an empty name. -/
theorem negative_and_nameless :
    (∃ sql ts, buildInsert .postgres (logTable true) (Table.empty.put "level" (some "-5")) =
        .ok sql ∧ SqlTokens.tokens (dialect .postgres) sql.toList = some ts ∧
      ∀ t ∈ [Token.word "NULL", .number "-5", .string "-5"], t ∉ ts) ∧
    ∃ sql, buildDelete .postgres { logTable true with name := "" }
        (Table.empty.put "level" (some "5")) = .ok sql ∧
      SqlTokens.tokens (dialect .postgres) sql.toList = none := by
  refine ⟨⟨"INSERT INTO \"log\" (\"level\") VALUES (-5)", [.word "INSERT", .word "INTO",
    .ident "log", .symbol '(', .ident "level", .symbol ')', .word "VALUES", .symbol '(',
    .symbol '-', .number "5", .symbol ')'], ?_, ?_, ?_⟩,
    "DELETE FROM \"\" WHERE \"level\" = 5", ?_, ?_⟩
  · rfl
  · rfl
  · decide
  · rfl
  · rfl

end SqlBuild
end Frontend
end AgentDb
