import AgentDb.Frontend.SqlBuild
import AgentDb.Lib.SqlTokens

/-!
# What the statements of the data grid are written as

Each builder writes a statement down token by token, with single spaces in between: `insert_text`,
`update_text`, `delete_text`, `page_text` and `count_text`.
-/

namespace AgentDb
namespace Frontend
namespace SqlBuild

open SqlTokens

/-! ### The dialects -/

/-- As much of a text as fits into some bytes. -/
def clip : ℕ → List Char → List Char
  | _, [] => []
  | n, c :: cs => if c.utf8Size ≤ n then c :: clip (n - c.utf8Size) cs else []

/-- The dialects of the engines. PostgreSQL refuses an empty name and cuts a name behind 63 bytes;
MySQL has no names with characters from U+10000 on. A document engine has no statements, and is
treated as the builders treat it. -/
def dialect : Engine → Dialect
  | .postgres => ⟨'"', false, fun cs => if cs = [] then none else some (clip 63 cs), .inl rfl⟩
  | .mysql =>
      ⟨'\x60', true, fun cs => if cs.all (·.toNat < 0x10000) then some cs else none, .inr rfl⟩
  | .sqlite => ⟨'"', false, some, .inl rfl⟩
  | .mongodb => ⟨'"', false, some, .inl rfl⟩

theorem toList_double (c : Char) (s : String) :
    (double c s).toList = s.toList.flatMap (escape false c) := by
  rw [double, String.toList_ofList]
  congr 1
  funext e
  by_cases h : e = c <;> simp [escape, h]

theorem toList_quoteIdent (engine : Engine) (name : String) : (quoteIdent engine name).toList =
    enclose false (dialect engine).identQuote name.toList := by
  cases engine <;> simp [quoteIdent, toList_double, enclose, dialect]

theorem toList_sqlLiteral (engine : Engine) (value : String) :
    (sqlLiteral engine (some value)).toList =
      enclose (dialect engine).backslashEscapes '\'' value.toList := by
  by_cases hmysql : engine = .mysql
  · have hescape : ∀ c, (escape false '\\' c).flatMap (escape false '\'') =
        escape true '\'' c := fun c => by
      by_cases hback : c = '\\'
      · subst hback
        rfl
      · by_cases hquote : c = '\'' <;> simp [escape, hback, hquote]
    subst hmysql
    simp [sqlLiteral, toList_double, enclose, dialect, List.flatMap_assoc, hescape]
  · have hbs : (dialect engine).backslashEscapes = false := by
      cases engine <;> first | rfl | exact absurd rfl hmysql
    simp [sqlLiteral, hmysql, toList_double, enclose, hbs]

/-! ### What is written -/

/-- A token or a space. -/
abbrev Lexeme := Option Token

def space : Lexeme := none

def word (w : String) : Lexeme := some (.word w)

def symbol (c : Char) : Lexeme := some (.symbol c)

def ident (name : String) : Lexeme := some (.ident name)

/-- The schema that a table is named with. -/
def usedSchema (engine : Engine) (table : CatalogTable) : Option String :=
  if engine = .postgres then table.schema.filter (· ≠ "") else none

def tableLexemes (engine : Engine) (table : CatalogTable) : List Lexeme :=
  match usedSchema engine table with
  | some schema => [ident schema, symbol '.', ident table.name]
  | none => [ident table.name]

/-- The sign of a number is an operator before it. -/
def numberLexemes (text : String) : List Lexeme :=
  match text.toList with
  | '-' :: cs => [symbol '-', some (.number (.ofList cs))]
  | _ => [some (.number text)]

def Literal.lexemes : Literal → List Lexeme
  | .null => [word "NULL"]
  | .number text => numberLexemes text
  | .string value => [some (.string value)]

def equality (c : String × Literal) : List Lexeme :=
  [ident c.1, space, symbol '=', space] ++ c.2.lexemes

def Condition.lexemes (engine : Engine) : Condition → List Lexeme
  | .isNull col => [ident col, space, word "IS", space, word "NULL"]
  | .isNotNull col => [ident col, space, word "IS", space, word "NOT", space, word "NULL"]
  | .equals col value => equality (col, value)
  | .contains col pattern =>
      [word "CAST", symbol '(', ident col, space, word "AS", space, word (castText engine),
        symbol ')', space, word (likeOperator engine), space, some (.string pattern)]

def SortKey.lexemes (key : SortKey) : List Lexeme :=
  ident key.col :: match key.desc with
    | none => []
    | some true => [space, word "DESC"]
    | some false => [space, word "ASC"]

def commas (parts : List (List Lexeme)) : List Lexeme := [symbol ',', space].intercalate parts

def ands (parts : List (List Lexeme)) : List Lexeme :=
  [space, word "AND", space].intercalate parts

def whereLexemes (engine : Engine) (conditions : List Condition) : List Lexeme :=
  if conditions = [] then []
  else [space, word "WHERE", space] ++ ands (conditions.map (·.lexemes engine))

def orderLexemes (keys : List SortKey) : List Lexeme :=
  if keys = [] then []
  else [space, word "ORDER", space, word "BY", space] ++ commas (keys.map (·.lexemes))

def countLexeme (n : ℕ) : Lexeme := some (.number (toString n))

/-- What a text asks of the database. -/
inductive Statement
  | insert (table : CatalogTable) (values : List (String × Literal))
  | update (table : CatalogTable) (set key : List (String × Literal))
  | delete (table : CatalogTable) (key : List (String × Literal))
  | page (query : PageQuery)
  | count (query : CountQuery)

def Statement.lexemes (engine : Engine) : Statement → List Lexeme
  | .insert table values =>
      [word "INSERT", space, word "INTO", space] ++ tableLexemes engine table ++
        [space, symbol '('] ++ commas (values.map fun c => [ident c.1]) ++
        [symbol ')', space, word "VALUES", space, symbol '('] ++
        commas (values.map fun c => c.2.lexemes) ++ [symbol ')']
  | .update table set key =>
      [word "UPDATE", space] ++ tableLexemes engine table ++ [space, word "SET", space] ++
        commas (set.map equality) ++ [space, word "WHERE", space] ++ ands (key.map equality)
  | .delete table key =>
      [word "DELETE", space, word "FROM", space] ++ tableLexemes engine table ++
        [space, word "WHERE", space] ++ ands (key.map equality)
  | .page query =>
      [word "SELECT", space, symbol '*', space, word "FROM", space] ++
        tableLexemes engine query.table ++ whereLexemes engine query.conditions ++
        orderLexemes query.keys ++ [space, word "LIMIT", space, countLexeme query.limit, space,
          word "OFFSET", space, countLexeme query.offset]
  | .count query =>
      [word "SELECT", space, word "COUNT", symbol '(', symbol '*', symbol ')', space, word "AS",
        space, word "n", space, word "FROM", space] ++
        tableLexemes engine query.table ++ whereLexemes engine query.conditions

/-! ### The texts -/

variable {engine : Engine}

@[simp] theorem render_space (d : Dialect) : render d space = [' '] := rfl

@[simp] theorem render_word (d : Dialect) (w : String) : render d (word w) = w.toList := rfl

@[simp] theorem render_symbol (d : Dialect) (c : Char) : render d (symbol c) = [c] := rfl

@[simp] theorem render_ident (name : String) :
    render (dialect engine) (ident name) = (quoteIdent engine name).toList :=
  (toList_quoteIdent engine name).symm

@[simp] theorem render_string (value : String) : render (dialect engine) (some (.string value)) =
    (sqlLiteral engine (some value)).toList :=
  (toList_sqlLiteral engine value).symm

@[simp] theorem render_number (d : Dialect) (n : String) :
    render d (some (.number n)) = n.toList := rfl

@[simp] theorem render_countLexeme (d : Dialect) (n : ℕ) :
    render d (countLexeme n) = (toString n).toList := rfl

theorem text_intercalate (d : Dialect) (sep : List Lexeme) (parts : List (List Lexeme)) :
    text d (sep.intercalate parts) = (text d sep).intercalate (parts.map (text d)) := by
  induction parts with
  | nil => rfl
  | cons part parts ih =>
      cases parts with
      | nil => simp
      | cons next parts =>
          rw [List.intercalate_cons_cons, text_append, text_append, ih]
          simp [List.intercalate_cons_cons]

theorem text_commas (d : Dialect) (parts : List (List Lexeme)) :
    text d (commas parts) = [',', ' '].intercalate (parts.map (text d)) := text_intercalate d _ _

theorem text_ands (d : Dialect) (parts : List (List Lexeme)) :
    text d (ands parts) = " AND ".toList.intercalate (parts.map (text d)) := text_intercalate d _ _

theorem text_table (engine : Engine) (table : CatalogTable) :
    text (dialect engine) (tableLexemes engine table) = (tableRef engine table).toList := by
  unfold tableLexemes usedSchema tableRef
  by_cases hpostgres : engine = .postgres
  · rw [if_pos hpostgres]
    cases table.schema.filter (· ≠ "") <;> simp [hpostgres]
  · rw [if_neg hpostgres]
    cases table.schema.filter (· ≠ "") <;> simp [hpostgres]

theorem text_literal (value : Literal) :
    text (dialect engine) value.lexemes = (value.toSql engine).toList := by
  cases value with
  | null => simp [Literal.lexemes, Literal.toSql]
  | string value => simp [Literal.lexemes, Literal.toSql]
  | number t =>
      show text _ (numberLexemes t) = t.toList
      unfold numberLexemes
      split
      · rename_i cs hcs
        simp [hcs]
      · simp

theorem text_equality (name dataType : String) (value : Option String) :
    text (dialect engine) (equality (name, literal dataType value)) =
      (assignment engine name dataType value).toList := by
  simp [equality, assignment, text_literal, sqlValue_eq]

theorem text_condition (c : Condition) :
    text (dialect engine) (c.lexemes engine) = (c.toSql engine).toList := by
  cases c with
  | isNull col => simp [Condition.lexemes, Condition.toSql]
  | isNotNull col => simp [Condition.lexemes, Condition.toSql]
  | equals col value => simp [Condition.lexemes, Condition.toSql, equality, text_literal]
  | contains col pattern => simp [Condition.lexemes, Condition.toSql]

theorem text_sortKey (key : SortKey) :
    text (dialect engine) key.lexemes = (key.toSql engine).toList := by
  obtain ⟨col, desc⟩ := key
  cases desc with
  | none => simp [SortKey.lexemes, SortKey.toSql]
  | some desc => cases desc <;> simp [SortKey.lexemes, SortKey.toSql]

theorem text_where (conditions : List Condition) :
    text (dialect engine) (whereLexemes engine conditions) =
      (whereSql engine conditions).toList := by
  unfold whereLexemes whereSql
  split
  · rfl
  · simp [text_ands, Function.comp_def, text_condition]

theorem text_order (keys : List SortKey) :
    text (dialect engine) (orderLexemes keys) = (orderSql engine keys).toList := by
  unfold orderLexemes orderSql
  split
  · rfl
  · simp [text_commas, Function.comp_def, text_sortKey]

def insertOf (table : CatalogTable) (cols : List (CatalogColumn × Option String)) : Statement :=
  .insert table (cols.map fun c => (c.1.name, literal c.1.dataType c.2))

/-- The values that the columns of a key have. -/
def keyOf (table : CatalogTable) (pkValues : Table String (Option String)) :
    List (String × Literal) :=
  pkValues.rows.map fun c => (c.1, literal (typeOf table c.1) c.2)

def updateOf (table : CatalogTable) (cols : List (CatalogColumn × Option String))
    (pkValues : Table String (Option String)) : Statement :=
  .update table (cols.map fun c => (c.1.name, literal c.1.dataType c.2))
    (keyOf table pkValues)

def deleteOf (table : CatalogTable) (pkValues : Table String (Option String)) : Statement :=
  .delete table (keyOf table pkValues)

variable {table : CatalogTable} {values pkValues setValues : Table String (Option String)}
  {filters : Table String String} {sort : Option GridSort} {limit offset : ℕ} {sql : String}

/-- A text is that of a statement. -/
def Writes (engine : Engine) (sql : String) (statement : Statement) : Prop :=
  sql.toList = text (dialect engine) (statement.lexemes engine)

theorem insert_text (h : buildInsert engine table values = .ok sql) :
    ∃ cols, assigned values table.columns = .ok cols ∧ cols ≠ [] ∧
      Writes engine sql (insertOf table cols) := by
  unfold buildInsert at h
  cases hcols : assigned values table.columns with
  | error e =>
      rw [hcols] at h
      cases h
  | ok cols =>
      rw [hcols] at h
      change (if cols = [] then _ else _) = _ at h
      split at h
      · cases h
      · rename_i hne
        refine ⟨cols, rfl, hne, ?_⟩
        cases h
        simp [Writes, insertOf, Statement.lexemes, text_append, text_table, text_commas,
          Function.comp_def, text_literal, sqlValue_eq]

/-- The equalities for a key are joined as they are written. -/
theorem text_key (engine : Engine) (table : CatalogTable)
    (pkValues : Table String (Option String)) :
    text (dialect engine) (ands ((keyOf table pkValues).map equality)) =
      (" AND ".intercalate (keyParts engine table pkValues)).toList := by
  simp [text_ands, keyOf, keyParts, Function.comp_def, text_equality]

theorem keyParts_eq_nil : keyParts engine table pkValues = [] ↔ pkValues.rows = [] :=
  List.map_eq_nil_iff

theorem delete_text (h : buildDelete engine table pkValues = .ok sql) :
    pkValues.rows ≠ [] ∧ Writes engine sql (deleteOf table pkValues) := by
  unfold buildDelete at h
  dsimp only at h
  split at h
  · cases h
  · rename_i hkey
    rw [keyParts_eq_nil] at hkey
    refine ⟨hkey, ?_⟩
    cases h
    simp only [Writes, deleteOf, Statement.lexemes, text_append, text_table, text_key]
    simp

theorem update_text (h : buildUpdate engine table pkValues setValues = .ok sql) :
    ∃ cols, assigned setValues table.columns = .ok cols ∧ cols ≠ [] ∧ pkValues.rows ≠ [] ∧
      Writes engine sql (updateOf table cols pkValues) := by
  unfold buildUpdate assignments at h
  dsimp only at h
  split at h
  · cases h
  · rename_i hkey
    rw [keyParts_eq_nil] at hkey
    cases hcols : assigned setValues table.columns with
    | error e =>
        rw [hcols] at h
        cases h
    | ok cols =>
        rw [hcols] at h
        change (if cols.map _ = [] then _ else _) = _ at h
        split at h
        · cases h
        · rename_i hne
          rw [List.map_eq_nil_iff] at hne
          refine ⟨cols, rfl, hne, hkey, ?_⟩
          cases h
          simp only [Writes, updateOf, Statement.lexemes, text_append, text_table, text_key,
            text_commas]
          simp [Function.comp_def, text_equality]

theorem writes_page (query : PageQuery) :
    Writes engine (query.toSql engine) (.page query) := by
  have hselect : text (dialect engine) [word "SELECT", space, symbol '*', space, word "FROM",
      space] = "SELECT * FROM ".toList := rfl
  have hlimit : text (dialect engine) [space, word "LIMIT", space, countLexeme query.limit, space,
      word "OFFSET", space, countLexeme query.offset] = " LIMIT ".toList ++
        ((toString query.limit).toList ++ (" OFFSET ".toList ++ (toString query.offset).toList)) := by
    simp only [text_cons, text_nil, render_countLexeme, List.append_nil]
    rfl
  unfold Writes PageQuery.toSql Statement.lexemes
  simp only [text_append, text_table, text_where, text_order]
  rw [hselect, hlimit]
  simp only [String.toList_append, List.append_assoc]

theorem writes_count (query : CountQuery) :
    Writes engine (query.toSql engine) (.count query) := by
  have hselect : text (dialect engine) [word "SELECT", space, word "COUNT", symbol '(', symbol '*',
      symbol ')', space, word "AS", space, word "n", space, word "FROM", space] =
        "SELECT COUNT(*) AS n FROM ".toList := rfl
  unfold Writes CountQuery.toSql Statement.lexemes
  simp only [text_append, text_table, text_where]
  rw [hselect]
  simp only [String.toList_append, List.append_assoc]

theorem page_text (h : buildPageQuery engine table filters sort limit offset = .ok sql) :
    Writes engine sql (.page ⟨table, conditions table.columns filters, sortKeys table sort, limit,
      offset⟩) := by
  rw [buildPageQuery_eq] at h
  unfold pageQuery at h
  split at h
  · cases h
    exact writes_page _
  · cases h

theorem count_text (h : buildCountQuery engine table filters = .ok sql) :
    Writes engine sql (.count ⟨table, conditions table.columns filters⟩) := by
  rw [buildCountQuery_eq] at h
  unfold countQuery at h
  split at h
  · cases h
    exact writes_count _
  · cases h

end SqlBuild
end Frontend
end AgentDb
