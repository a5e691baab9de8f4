import AgentDb.Introspect.Model
import AgentDb.Protocol.CatalogWire
import AgentDb.Store.Connections

/-!
# Between the two catalogs: `introspect/catalog_v2.rs`

What introspection returns is stored as a canonical snapshot and read back from it. A primary key
becomes a constraint, a foreign key one with a made-up name, numbered in an order of its own, and
the objects are told apart by their kinds. The other way every one of these is undone.
-/

namespace AgentDb
namespace Introspect

open Protocol Sorting
open Store (ConnectionProfile)

/-! ### Kinds -/

/-- `engine`. -/
def engine : Engine → DatabaseEngine
  | .postgres => .postgres
  | .mysql => .mysql
  | .sqlite => .sqlite
  | .mongodb => .mongodb

/-- `object_kind`. -/
def objectKind (kind : String) : ObjectKind :=
  if kind ∈ ["table", "collection"] then .table
  else if kind = "view" then .view
  else if kind = "materialized_view" then .materializedView
  else if kind ∈ ["function", "procedure", "routine"] then .routine
  else if kind = "sequence" then .sequence
  else if kind = "type" then .type
  else if kind = "trigger" then .trigger
  else .other

/-- `object_kind_name`. -/
def objectKindName : ObjectKind → String
  | .table => "table"
  | .view => "view"
  | .materializedView => "materialized_view"
  | .routine => "function"
  | .sequence => "sequence"
  | .type => "type"
  | .trigger => "trigger"
  | .other => "other"

/-- `char::is_ascii_whitespace`. -/
def isAsciiWhitespace (c : Char) : Bool := c ∈ [' ', '\t', '\n', Char.ofNat 12, '\r']

/-- `type_family`. -/
def typeFamily (nativeType : String) : NormalizedTypeFamily :=
  let dataType := (Store.trim nativeType).toList.map Char.toLower
  if "[]".toList <:+ dataType ∨ " array".toList <:+: dataType then .array
  else
    let base := String.ofList (dataType.takeWhile fun c => c ≠ '(' ∧ ¬ isAsciiWhitespace c)
    if base ∈ ["bool", "boolean"] then .boolean
    else if base ∈ ["int", "int2", "int4", "int8", "integer", "smallint", "bigint", "tinyint",
        "mediumint", "serial", "smallserial", "bigserial", "year"] then .integer
    else if base ∈ ["decimal", "numeric", "money"] then .decimal
    else if base ∈ ["float", "float4", "float8", "double", "real"] then .float
    else if base ∈ ["json", "jsonb"] then .json
    else if base = "uuid" then .uuid
    else if base ∈ ["timestamp", "timestamptz", "datetime"] then .timestamp
    else if base = "date" then .date
    else if base ∈ ["time", "timetz"] then .time
    else if base ∈ ["bytea", "blob", "tinyblob", "mediumblob", "longblob", "binary",
        "varbinary"] then .binary
    else if base ∈ ["document", "bson"] then .document
    else if base ∈ ["char", "character", "varchar", "nvarchar", "nchar", "text", "tinytext",
        "mediumtext", "longtext", "string", "citext", "xml"] then .text
    else .other

/-! ### To a snapshot -/

/-- The order foreign keys are numbered in. -/
def foreignKeyKey (foreignKey : ForeignKey) : String ×ₗ WithBot String ×ₗ String ×ₗ String :=
  toLex (foreignKey.column, toLex (textKey foreignKey.referencesSchema,
    toLex (foreignKey.referencesTable, foreignKey.referencesColumn)))

/-- The constraint of the primary key. -/
def primaryConstraint (table : Table) (columns : List String) : Constraint where
  name := "pk_" ++ table.name
  kind := .primary
  columns := columns
  referencedRelation := none
  referencedColumns := []
  checkExpression := none
  updateAction := none
  deleteAction := none
  deferrable := false
  validated := true

/-- The constraint of a foreign key. -/
def foreignConstraint (table : Table) (index : ℕ) (foreignKey : ForeignKey) : Constraint where
  name := "fk_" ++ table.name ++ "_" ++ foreignKey.column ++ "_" ++
    String.ofList (TextCode.decimal (index + 1))
  kind := .foreign
  columns := [foreignKey.column]
  referencedRelation :=
    some ⟨none, foreignKey.referencesSchema, foreignKey.referencesTable, .table, none⟩
  referencedColumns := [foreignKey.referencesColumn]
  checkExpression := none
  updateAction := none
  deleteAction := none
  deferrable := false
  validated := true

/-- A column at its place, which is numbered with a `u32`. -/
def toColumn (index : ℕ) (column : Column) : Protocol.Column where
  name := column.name
  ordinal := min (index + 1) (2 ^ 32 - 1)
  nativeType := column.dataType
  typeFamily := typeFamily column.dataType
  length := none
  precision := none
  scale := none
  nullable := column.nullable
  defaultExpression := none
  generatedExpression := none
  identity := false
  autoIncrement := false
  collation := none
  comment := none
  sensitivity := none

def toIndex (index : Index) : Protocol.Index where
  name := index.name
  method := none
  keys := index.columns.map fun column => ⟨some column, none, none⟩
  includedColumns := []
  predicate := none
  unique := index.unique
  valid := true

/-- `table_to_relation`. -/
def tableToRelation (table : Table) : Relation :=
  let primaryColumns := (table.columns.filter (·.pk)).map (·.name)
  let primary := if primaryColumns = [] then [] else [primaryConstraint table primaryColumns]
  let foreignKeys := sortBy foreignKeyKey table.foreignKeys
  { object := ⟨none, table.schema, table.name, objectKind table.kind, none⟩
    comment := none
    rowEstimate := table.rowEstimate
    partitionParent := none
    partitionChildren := []
    columns := table.columns.mapIdx toColumn
    constraints := primary ++ foreignKeys.mapIdx (foreignConstraint table)
    indexes := table.indexes.map toIndex }

/-- An object is a routine by its kind. -/
def isRoutine (object : DatabaseObject) : Bool := object.kind ∈ ["function", "procedure"]

def toRoutine (object : DatabaseObject) : Routine where
  object := ⟨none, object.schema, object.name, .routine, none⟩
  nativeKind := some object.kind
  arguments := []
  returnType := none
  language := none
  comment := none
  detail := object.detail
  parent := object.parent

def toDatabaseObject (object : DatabaseObject) : Protocol.DatabaseObject where
  object := ⟨none, object.schema, object.name, objectKind object.kind, none⟩
  nativeKind := some object.kind
  comment := none
  detail := object.detail
  parent := object.parent

/-- The schemas of a catalog, each once and in order. -/
def schemas (catalog : Catalog) : List String :=
  sortBy id (catalog.tables.filterMap (·.schema) ++ catalog.objects.filterMap (·.schema)).dedup

/-- What a snapshot of a catalog is made of. -/
def toContents (catalog : Catalog) : CatalogContents where
  namespaces := (schemas catalog).map fun name => ⟨name, none⟩
  relations := catalog.tables.map tableToRelation
  routines := (catalog.objects.filter isRoutine).map toRoutine
  otherObjects := (catalog.objects.filter fun object => ¬ isRoutine object).map toDatabaseObject

/-- The `Display` text of a `CatalogValidationError`. -/
def validationErrorText : CatalogValidationError → String
  | .schemaVersion actual expected => "unsupported catalog schema version " ++ toString actual ++
      "; expected " ++ toString expected
  | .fingerprint => "catalog fingerprint must be exactly 64 lowercase hexadecimal characters"
  | .fingerprintMismatch => "catalog fingerprint does not match the canonical catalog contents"
  | .emptyDatabase => "catalog database name cannot be empty"

/-- `to_snapshot`. -/
def toSnapshot (sha256 : List UInt8 → Vector UInt8 32) (now : DateTime)
    (profile : ConnectionProfile) (catalog : Catalog) : AppResult CatalogSnapshot :=
  (CatalogSnapshot.capture sha256 profile.id (engine profile.engine) profile.database now
    (toContents catalog)).mapError fun error =>
      .config ("could not build Catalog V2: " ++ validationErrorText error)

/-! ### From a snapshot -/

/-- The foreign keys of a constraint: one for each of its columns, if it refers to a relation. -/
def constraintForeignKeys (constraint : Constraint) : List ForeignKey :=
  match constraint.referencedRelation with
  | none => []
  | some referenced => constraint.columns.mapIdx fun index column =>
      { column := column
        referencesTable := referenced.name
        referencesColumn := constraint.referencedColumns[index]?.getD ""
        referencesSchema := referenced.namespace_ }

/-- `relation_to_table`. -/
def relationToTable (relation : Relation) : Table :=
  let primaryColumns := (relation.constraints.filter (·.kind = .primary)).flatMap (·.columns)
  { schema := relation.object.namespace_
    name := relation.object.name
    kind := objectKindName relation.object.kind
    columns := relation.columns.map fun column =>
      { name := column.name
        dataType := column.nativeType
        nullable := column.nullable
        pk := column.name ∈ primaryColumns }
    foreignKeys :=
      (relation.constraints.filter (·.kind = .foreign)).flatMap constraintForeignKeys
    indexes := relation.indexes.map fun index =>
      { name := index.name
        columns := index.keys.filterMap (·.column)
        unique := index.unique }
    rowEstimate := relation.rowEstimate }

def routineToObject (routine : Routine) : DatabaseObject where
  schema := routine.object.namespace_
  name := routine.object.name
  kind := routine.nativeKind.getD "function"
  detail := routine.detail.or
    (if routine.arguments = [] then none else some (", ".intercalate routine.arguments))
  parent := routine.parent

def otherToObject (object : Protocol.DatabaseObject) : DatabaseObject where
  schema := object.object.namespace_
  name := object.object.name
  kind := object.nativeKind.getD (objectKindName object.object.kind)
  detail := object.detail.or object.comment
  parent := object.parent

/-- `from_snapshot`. -/
def fromSnapshot (snapshot : CatalogSnapshot) : Catalog where
  tables := snapshot.relations.map relationToTable
  objects := snapshot.routines.map routineToObject ++ snapshot.otherObjects.map otherToObject

end Introspect
end AgentDb
