import AgentDb.Frontend.SchemaDiff
import AgentDb.Lib.Table
import AgentDb.Model
import Mathlib.Data.List.DropRight

/-!
# The statements of the data grid: `sqlBuild.ts`

The texts of the queries that read a table page by page, and of the statements that edit its rows.
What they consist of is stated beside them: a filter is a `Condition`, a value a `Literal`, a page
is read by a `PageQuery`, and each builder gives the text of its parts.
-/

namespace AgentDb
namespace Frontend
namespace SqlBuild

/-! ### Objects -/

/-- What reading a property of an object gives: its own value, something that every object
inherits, or `undefined`. -/
inductive Property (α : Type)
  | own (v : α)
  | inherited
  | missing

/-- The names in `Object.prototype`. -/
def inheritedNames : List String :=
  ["constructor", "__defineGetter__", "__defineSetter__", "hasOwnProperty", "__lookupGetter__",
    "__lookupSetter__", "isPrototypeOf", "propertyIsEnumerable", "toString", "valueOf", "__proto__",
    "toLocaleString"]

/-- `object[name]`; the rows of the table are in the order of `Object.keys`. -/
def read {α : Type} (object : Table String α) (name : String) : Property α :=
  match object.get name with
  | some v => .own v
  | none => if name ∈ inheritedNames then .inherited else .missing

/-- What a builder throws. -/
inductive BuildError
  | error (message : String)
  | typeError
  deriving DecidableEq, Repr

/-- `GridSort`. -/
structure GridSort where
  col : String
  desc : Bool
  deriving DecidableEq, Repr

/-! ### Names -/

/-- `s.replace(/c/g, "cc")`. -/
def double (c : Char) (s : String) : String :=
  .ofList (s.toList.flatMap fun d => if d = c then [c, c] else [d])

/-- `quoteIdent` of `tableRef.ts`. -/
def quoteIdent (engine : Engine) (name : String) : String :=
  if engine = .mysql then "`" ++ double '\x60' name ++ "`" else "\"" ++ double '"' name ++ "\""

/-- `tableRef` of `tableRef.ts`. -/
def tableRef (engine : Engine) (t : CatalogTable) : String :=
  match t.schema.filter (· ≠ "") with
  | some schema =>
      if engine = .postgres then quoteIdent engine schema ++ "." ++ quoteIdent engine t.name
      else quoteIdent engine t.name
  | none => quoteIdent engine t.name

/-! ### Values -/

def sqlLiteral (engine : Engine) : Option String → String
  | none => "NULL"
  | some value =>
      let s := if engine = .mysql then double '\\' value else value
      "'" ++ double '\'' s ++ "'"

/-- `\w`. -/
def isWordChar (c : Char) : Bool := c.isAlphanum || c = '_'

/-- A word that `NUMERIC_RE` matches between two word boundaries. -/
def isNumericWord (word : List Char) : Bool :=
  let low := word.map Char.toLower
  let stem := String.ofList (low.rdropWhile Char.isDigit)
  stem ∈ ["int", "bigint", "smallint", "tinyint", "mediumint", "integer", "biginteger",
      "smallinteger", "tinyinteger", "mediuminteger", "serial", "bigserial", "smallserial",
      "float"] ||
    String.ofList low ∈ ["numeric", "decimal", "dec", "real", "double", "money", "fixed"]

def isNumericType (dataType : String) : Bool :=
  (dataType.toList.splitOnP fun c => !isWordChar c).any isNumericWord

/-- `\d+` at the head of a text, and what follows. -/
def digits? (cs : List Char) : Option (List Char) :=
  if cs.takeWhile Char.isDigit = [] then none else some (cs.dropWhile Char.isDigit)

/-- `\d+(\.\d+)?([eE][+-]?\d+)?`, to the end of the text. -/
def isUnsigned (cs : List Char) : Bool :=
  let fraction : List Char → Option (List Char)
    | '.' :: cs => digits? cs
    | cs => some cs
  let exponent : List Char → Bool
    | [] => true
    | e :: '+' :: cs => (e = 'e' ∨ e = 'E') ∧ digits? cs = some []
    | e :: '-' :: cs => (e = 'e' ∨ e = 'E') ∧ digits? cs = some []
    | e :: cs => (e = 'e' ∨ e = 'E') ∧ digits? cs = some []
  ((digits? cs).bind fraction).any exponent

/-- `/^-?\d+(\.\d+)?([eE][+-]?\d+)?$/`. -/
def isNumber : List Char → Bool
  | '-' :: cs => isUnsigned cs
  | cs => isUnsigned cs

def sqlValue (engine : Engine) (dataType : String) : Option String → String
  | none => "NULL"
  | some value =>
      let t := trim value
      if isNumericType dataType ∧ t = "" then "NULL"
      else if isNumericType dataType ∧ isNumber t.toList then t
      else sqlLiteral engine (some value)

/-- What a value is given as. -/
inductive Literal
  | null
  | number (text : String)
  | string (value : String)
  deriving DecidableEq, Repr

def Literal.toSql (engine : Engine) : Literal → String
  | .null => "NULL"
  | .number text => text
  | .string value => sqlLiteral engine (some value)

def literal (dataType : String) : Option String → Literal
  | none => .null
  | some value =>
      let t := trim value
      if isNumericType dataType ∧ t = "" then .null
      else if isNumericType dataType ∧ isNumber t.toList then .number t
      else .string value

theorem sqlValue_eq (engine : Engine) (dataType : String) (value : Option String) :
    sqlValue engine dataType value = (literal dataType value).toSql engine := by
  cases value with
  | none => rfl
  | some value =>
      unfold sqlValue literal
      dsimp only
      split
      · rfl
      split <;> rfl

def castText (engine : Engine) : String := if engine = .mysql then "CHAR" else "TEXT"

def typeOf (table : CatalogTable) (col : String) : String :=
  ((table.columns.find? fun c => c.name = col).map (·.dataType)).getD "text"

def pkColumns (table : CatalogTable) : List CatalogColumn := table.columns.filter (·.pk)

/-! ### Filters -/

/-- `s.toLowerCase()`, as far as it is compared with texts of ASCII. -/
def toLowerCase (s : String) : String := .ofList (s.toList.map Char.toLower)

/-- The operator of a filter that asks for a part of the text. -/
def likeOperator (engine : Engine) : String := if engine = .postgres then "ILIKE" else "LIKE"

def filterClause (engine : Engine) (col : CatalogColumn) (raw : String) : Option String :=
  let v := trim raw
  if v = "" then none
  else
    let q := quoteIdent engine col.name
    let low := toLowerCase v
    if low = "null" then some (q ++ " IS NULL")
    else if low = "not null" then some (q ++ " IS NOT NULL")
    else match v.toList with
      | '=' :: rest =>
          some (q ++ " = " ++ sqlValue engine col.dataType (some (String.ofList rest)))
      | _ => some ("CAST(" ++ q ++ " AS " ++ castText engine ++ ") " ++ likeOperator engine ++
          " " ++ sqlLiteral engine (some ("%" ++ v ++ "%")))

/-- What a filter asks of a row. -/
inductive Condition
  | isNull (col : String)
  | isNotNull (col : String)
  | equals (col : String) (value : Literal)
  | contains (col : String) (pattern : String)
  deriving DecidableEq, Repr

def Condition.toSql (engine : Engine) : Condition → String
  | .isNull col => quoteIdent engine col ++ " IS NULL"
  | .isNotNull col => quoteIdent engine col ++ " IS NOT NULL"
  | .equals col value => quoteIdent engine col ++ " = " ++ value.toSql engine
  | .contains col pattern =>
      "CAST(" ++ quoteIdent engine col ++ " AS " ++ castText engine ++ ") " ++
        likeOperator engine ++ " " ++ sqlLiteral engine (some pattern)

def condition (col : CatalogColumn) (raw : String) : Option Condition :=
  let v := trim raw
  if v = "" then none
  else if toLowerCase v = "null" then some (.isNull col.name)
  else if toLowerCase v = "not null" then some (.isNotNull col.name)
  else match v.toList with
    | '=' :: rest => some (.equals col.name (literal col.dataType (some (String.ofList rest))))
    | _ => some (.contains col.name ("%" ++ v ++ "%"))

theorem filterClause_eq (engine : Engine) (col : CatalogColumn) (raw : String) :
    filterClause engine col raw = (condition col raw).map (·.toSql engine) := by
  unfold filterClause condition
  dsimp only
  split
  · rfl
  split
  · rfl
  split
  · rfl
  split
  · rw [sqlValue_eq]
    rfl
  · rfl

/-- `filters[col.name] ?? ""`. What is inherited is no text, and calling `trim` on it throws. -/
def filterOf (filters : Table String String) (col : CatalogColumn) : Except BuildError String :=
  match read filters col.name with
  | .own raw => .ok raw
  | .missing => .ok ""
  | .inherited => .error .typeError

/-- The parts of `buildWhere`. -/
def whereParts (engine : Engine) (filters : Table String String) :
    List CatalogColumn → Except BuildError (List String)
  | [] => .ok []
  | col :: columns => do
      let raw ← filterOf filters col
      let parts ← whereParts engine filters columns
      return (filterClause engine col raw).toList ++ parts

def buildWhere (engine : Engine) (columns : List CatalogColumn) (filters : Table String String) :
    Except BuildError String :=
  (whereParts engine filters columns).map (" AND ".intercalate ·)

/-- What the filters ask of a row. -/
def conditions (columns : List CatalogColumn) (filters : Table String String) : List Condition :=
  columns.flatMap fun col => (condition col ((filters.get col.name).getD "")).toList

/-- Every column has a filter of its own, or no property under its name. -/
def Readable (columns : List CatalogColumn) (filters : Table String String) : Prop :=
  ∀ col ∈ columns, filters.get col.name = none → col.name ∉ inheritedNames

instance (columns : List CatalogColumn) (filters : Table String String) :
    Decidable (Readable columns filters) :=
  inferInstanceAs (Decidable (∀ col ∈ columns, _))

theorem filterOf_eq (filters : Table String String) (col : CatalogColumn) : filterOf filters col =
    if filters.get col.name = none ∧ col.name ∈ inheritedNames then .error .typeError
    else .ok ((filters.get col.name).getD "") := by
  unfold filterOf read
  cases filters.get col.name with
  | some raw => rfl
  | none => by_cases hname : col.name ∈ inheritedNames <;> simp [hname]

theorem whereParts_eq (engine : Engine) (columns : List CatalogColumn)
    (filters : Table String String) : whereParts engine filters columns =
      if Readable columns filters then .ok ((conditions columns filters).map (·.toSql engine))
      else .error .typeError := by
  induction columns with
  | nil => rfl
  | cons col columns ih =>
      have hreadable : Readable (col :: columns) filters ↔
          ¬ (filters.get col.name = none ∧ col.name ∈ inheritedNames) ∧
            Readable columns filters := by
        simp [Readable]
      rw [whereParts, filterOf_eq, ih]
      by_cases hcol : filters.get col.name = none ∧ col.name ∈ inheritedNames
      · rw [if_pos hcol, if_neg fun h => (hreadable.1 h).1 hcol]
        rfl
      by_cases hcolumns : Readable columns filters
      · rw [if_neg hcol, if_pos hcolumns, if_pos (hreadable.2 ⟨hcol, hcolumns⟩)]
        change Except.ok ((filterClause engine col ((filters.get col.name).getD "")).toList ++
          (conditions columns filters).map (·.toSql engine)) = _
        rw [filterClause_eq, conditions, conditions, List.flatMap_cons, List.map_append]
        cases condition col ((filters.get col.name).getD "") <;> rfl
      · rw [if_neg hcol, if_neg hcolumns, if_neg fun h => hcolumns (hreadable.1 h).2]
        rfl

/-! ### Reading -/

def pkTiebreakers (engine : Engine) (table : CatalogTable) (exclude : Option String) :
    List String :=
  ((pkColumns table).filter fun c => some c.name ≠ exclude).map fun c => quoteIdent engine c.name

def buildOrderBy (engine : Engine) (table : CatalogTable) : Option GridSort → String
  | some sort =>
      let dir := if sort.desc then "DESC" else "ASC"
      let keys := (quoteIdent engine sort.col ++ " " ++ dir) ::
        pkTiebreakers engine table (some sort.col)
      "ORDER BY " ++ ", ".intercalate keys
  | none =>
      let pk := pkColumns table
      let cols := if pk = [] then table.columns.take 1 else pk
      if cols = [] then ""
      else "ORDER BY " ++ ", ".intercalate (cols.map fun c => quoteIdent engine c.name)

/-- Limit and offset are whole numbers, and `nn` leaves them. -/
def buildPageQuery (engine : Engine) (table : CatalogTable) (filters : Table String String)
    (sort : Option GridSort) (limit offset : ℕ) : Except BuildError String := do
  let condition ← buildWhere engine table.columns filters
  let order := buildOrderBy engine table sort
  return "SELECT * FROM " ++ tableRef engine table ++
    (if condition ≠ "" then " WHERE " ++ condition else "") ++
    (if order ≠ "" then " " ++ order else "") ++
    " LIMIT " ++ toString limit ++ " OFFSET " ++ toString offset

def buildCountQuery (engine : Engine) (table : CatalogTable) (filters : Table String String) :
    Except BuildError String := do
  let condition ← buildWhere engine table.columns filters
  return "SELECT COUNT(*) AS n FROM " ++ tableRef engine table ++
    (if condition ≠ "" then " WHERE " ++ condition else "")

/-- A column to sort by; without a direction the order is the ascending one. -/
structure SortKey where
  col : String
  desc : Option Bool
  deriving DecidableEq, Repr

def SortKey.toSql (engine : Engine) (key : SortKey) : String :=
  quoteIdent engine key.col ++ match key.desc with
    | none => ""
    | some true => " DESC"
    | some false => " ASC"

/-- What a table is read in order of. -/
def sortKeys (table : CatalogTable) : Option GridSort → List SortKey
  | some sort => ⟨sort.col, some sort.desc⟩ ::
      ((pkColumns table).filter fun c => c.name ≠ sort.col).map fun c => ⟨c.name, none⟩
  | none =>
      let cols := if pkColumns table = [] then table.columns.take 1 else pkColumns table
      cols.map fun c => ⟨c.name, none⟩

theorem buildOrderBy_eq (engine : Engine) (table : CatalogTable) (sort : Option GridSort) :
    buildOrderBy engine table sort = if sortKeys table sort = [] then ""
      else "ORDER BY " ++ ", ".intercalate ((sortKeys table sort).map (·.toSql engine)) := by
  have hkey : ∀ name, SortKey.toSql engine ⟨name, none⟩ = quoteIdent engine name :=
    fun name => String.append_empty
  cases sort with
  | none =>
      unfold buildOrderBy sortKeys
      dsimp only
      generalize (if pkColumns table = [] then table.columns.take 1 else pkColumns table) = cols
      simp only [List.map_eq_nil_iff, List.map_map, Function.comp_def, hkey]
  | some sort =>
      unfold buildOrderBy sortKeys pkTiebreakers
      obtain ⟨col, desc⟩ := sort
      simp only [List.cons_ne_nil, if_false, List.map_cons, List.map_map, Function.comp_def, hkey,
        Option.some.injEq, ne_eq]
      cases desc <;> simp [SortKey.toSql, String.append_assoc]

/-- What a page is read by. -/
structure PageQuery where
  table : CatalogTable
  conditions : List Condition
  keys : List SortKey
  limit : ℕ
  offset : ℕ

/-- What the rows are counted by. -/
structure CountQuery where
  table : CatalogTable
  conditions : List Condition

def whereSql (engine : Engine) (conditions : List Condition) : String :=
  if conditions = [] then ""
  else " WHERE " ++ " AND ".intercalate (conditions.map (·.toSql engine))

def orderSql (engine : Engine) (keys : List SortKey) : String :=
  if keys = [] then "" else " ORDER BY " ++ ", ".intercalate (keys.map (·.toSql engine))

def PageQuery.toSql (engine : Engine) (query : PageQuery) : String :=
  "SELECT * FROM " ++ tableRef engine query.table ++ whereSql engine query.conditions ++
    orderSql engine query.keys ++ " LIMIT " ++ toString query.limit ++ " OFFSET " ++
    toString query.offset

def CountQuery.toSql (engine : Engine) (query : CountQuery) : String :=
  "SELECT COUNT(*) AS n FROM " ++ tableRef engine query.table ++ whereSql engine query.conditions

def pageQuery (table : CatalogTable) (filters : Table String String) (sort : Option GridSort)
    (limit offset : ℕ) : Except BuildError PageQuery :=
  if Readable table.columns filters then
    .ok ⟨table, conditions table.columns filters, sortKeys table sort, limit, offset⟩
  else .error .typeError

def countQuery (table : CatalogTable) (filters : Table String String) :
    Except BuildError CountQuery :=
  if Readable table.columns filters then .ok ⟨table, conditions table.columns filters⟩
  else .error .typeError

/-- A joined text is empty only where nothing is joined, or empty texts are. -/
theorem intercalate_eq_empty {sep : String} {parts : List String} (hparts : ∀ s ∈ parts, s ≠ "")
    (h : sep.intercalate parts = "") : parts = [] := by
  cases parts with
  | nil => rfl
  | cons part parts =>
      cases parts with
      | nil => exact absurd h (hparts part List.mem_cons_self)
      | cons next parts =>
          rw [String.intercalate_cons_cons, String.append_eq_empty_iff,
            String.append_eq_empty_iff] at h
          exact absurd h.1.1 (hparts part List.mem_cons_self)

theorem quoteIdent_ne (engine : Engine) (name : String) : quoteIdent engine name ≠ "" := by
  unfold quoteIdent
  split <;> simp

theorem Condition.toSql_ne (engine : Engine) (c : Condition) : c.toSql engine ≠ "" := by
  cases c <;> simp [Condition.toSql]

theorem whereSql_eq (engine : Engine) (conditions : List Condition) :
    (if " AND ".intercalate (conditions.map (·.toSql engine)) ≠ "" then
      " WHERE " ++ " AND ".intercalate (conditions.map (·.toSql engine)) else "") =
    whereSql engine conditions := by
  unfold whereSql
  by_cases h : conditions = []
  · subst h
    rfl
  · have hparts : " AND ".intercalate (conditions.map (·.toSql engine)) ≠ "" := fun hempty =>
      h (List.map_eq_nil_iff.1 (intercalate_eq_empty (fun s hs => by
        obtain ⟨c, -, rfl⟩ := List.mem_map.1 hs
        exact c.toSql_ne engine) hempty))
    rw [if_pos hparts, if_neg h]

theorem buildWhere_eq (engine : Engine) (columns : List CatalogColumn)
    (filters : Table String String) : buildWhere engine columns filters =
      if Readable columns filters then
        .ok (" AND ".intercalate ((conditions columns filters).map (·.toSql engine)))
      else .error .typeError := by
  rw [buildWhere, whereParts_eq]
  split <;> rfl

/-- The text of a page is the text of its query. -/
theorem buildPageQuery_eq (engine : Engine) (table : CatalogTable) (filters : Table String String)
    (sort : Option GridSort) (limit offset : ℕ) :
    buildPageQuery engine table filters sort limit offset =
      (pageQuery table filters sort limit offset).map (·.toSql engine) := by
  unfold buildPageQuery pageQuery
  rw [buildWhere_eq]
  by_cases h : Readable table.columns filters
  · rw [if_pos h, if_pos h]
    have horder : (if buildOrderBy engine table sort ≠ "" then
        " " ++ buildOrderBy engine table sort else "") = orderSql engine (sortKeys table sort) := by
      rw [buildOrderBy_eq, orderSql]
      by_cases hkeys : sortKeys table sort = []
      · simp [hkeys]
      · have hne : ∀ s, "ORDER BY " ++ s ≠ "" := fun s => by
          simp
        rw [if_neg hkeys, if_neg hkeys, if_pos (hne _), ← String.append_assoc]
        rfl
    change Except.ok _ = Except.ok _
    rw [whereSql_eq, horder]
    rfl
  · rw [if_neg h, if_neg h]
    rfl

theorem buildCountQuery_eq (engine : Engine) (table : CatalogTable)
    (filters : Table String String) : buildCountQuery engine table filters =
      (countQuery table filters).map (·.toSql engine) := by
  unfold buildCountQuery countQuery
  rw [buildWhere_eq]
  by_cases h : Readable table.columns filters
  · rw [if_pos h, if_pos h]
    change Except.ok _ = Except.ok _
    rw [whereSql_eq]
    rfl
  · rw [if_neg h, if_neg h]
    rfl

/-! ### Writing -/

/-- The columns that an object has, with their values. A name that is inherited counts, and what is
read under it is no text: using it throws. -/
def assigned (values : Table String (Option String)) :
    List CatalogColumn → Except BuildError (List (CatalogColumn × Option String))
  | [] => .ok []
  | col :: columns =>
      match read values col.name with
      | .own value => (assigned values columns).map ((col, value) :: ·)
      | .missing => assigned values columns
      | .inherited => .error .typeError

def assignment (engine : Engine) (name dataType : String) (value : Option String) : String :=
  quoteIdent engine name ++ " = " ++ sqlValue engine dataType value

def assignments (engine : Engine) (table : CatalogTable) (values : Table String (Option String)) :
    Except BuildError (List String) :=
  (assigned values table.columns).map fun cols =>
    cols.map fun c => assignment engine c.1.name c.1.dataType c.2

def buildInsert (engine : Engine) (table : CatalogTable) (values : Table String (Option String)) :
    Except BuildError String := do
  let cols ← assigned values table.columns
  if cols = [] then .error (.error "INSERT with no columns")
  else
    let idents := ", ".intercalate (cols.map fun c => quoteIdent engine c.1.name)
    let vals := ", ".intercalate (cols.map fun c => sqlValue engine c.1.dataType c.2)
    return "INSERT INTO " ++ tableRef engine table ++ " (" ++ idents ++ ") VALUES (" ++ vals ++ ")"

/-- The equalities for the columns of the key. -/
def keyParts (engine : Engine) (table : CatalogTable) (pkValues : Table String (Option String)) :
    List String :=
  pkValues.rows.map fun c => assignment engine c.1 (typeOf table c.1) c.2

def buildUpdate (engine : Engine) (table : CatalogTable)
    (pkValues setValues : Table String (Option String)) : Except BuildError String := do
  let key := keyParts engine table pkValues
  if key = [] then .error (.error "refusing UPDATE without a primary key")
  else
    let set ← assignments engine table setValues
    if set = [] then .error (.error "UPDATE with no changed columns")
    else
      return "UPDATE " ++ tableRef engine table ++ " SET " ++ ", ".intercalate set ++ " WHERE " ++
        " AND ".intercalate key

def buildDelete (engine : Engine) (table : CatalogTable)
    (pkValues : Table String (Option String)) : Except BuildError String :=
  let key := keyParts engine table pkValues
  if key = [] then .error (.error "refusing DELETE without a primary key")
  else .ok ("DELETE FROM " ++ tableRef engine table ++ " WHERE " ++ " AND ".intercalate key)

end SqlBuild
end Frontend
end AgentDb
