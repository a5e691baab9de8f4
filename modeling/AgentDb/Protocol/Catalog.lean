import AgentDb.Lib.JsonStruct
import AgentDb.Lib.Sorting
import AgentDb.Lib.Sha256
import AgentDb.Scalars

/-!
# Catalog snapshots: `catalog.rs` of `dopedb-protocol`

A snapshot is captured from the contents of a catalog: the contents are sorted into a canonical
order and the fingerprint is the SHA-256 digest of what they serialize as, without the row
estimates. The hash is a parameter. Every sort is by a key in a linear order (a missing text
before every text, bytes as the numbers they are), and every key ends with a part that determines
what is hashed of the member, so `Sorting.map_sortBy_eq_iff` applies to all six.

`fingerprint_eq_iff` is the main result: two captured fingerprints agree exactly when the
contents agree up to order and row estimates.
-/

namespace AgentDb
namespace Protocol

open Json TextCode Sorting

/-! ### Catalog objects -/

/-- `DatabaseEngine`. -/
inductive DatabaseEngine
  | postgres
  | mysql
  | sqlite
  | mongodb
  deriving DecidableEq, Repr

def DatabaseEngine.wireName : DatabaseEngine → String
  | .postgres => "postgres"
  | .mysql => "mysql"
  | .sqlite => "sqlite"
  | .mongodb => "mongodb"

structure Namespace where
  name : String
  comment : Option String
  deriving DecidableEq

inductive ObjectKind
  | table
  | view
  | materializedView
  | routine
  | sequence
  | type
  | trigger
  | other
  deriving DecidableEq, Repr

namespace ObjectKind

def wireName : ObjectKind → String
  | .table => "table"
  | .view => "view"
  | .materializedView => "materialized_view"
  | .routine => "routine"
  | .sequence => "sequence"
  | .type => "type"
  | .trigger => "trigger"
  | .other => "other"

/-- `object_kind_rank`. -/
def rank : ObjectKind → ℕ
  | .table => 0
  | .view => 1
  | .materializedView => 2
  | .routine => 3
  | .sequence => 4
  | .type => 5
  | .trigger => 6
  | .other => 7

theorem rank_injective : Function.Injective rank := by
  intro a b h
  cases a <;> cases b <;> first | rfl | exact absurd h (by decide)

end ObjectKind

structure ObjectRef where
  catalog : Option String
  namespace_ : Option String
  name : String
  kind : ObjectKind
  nativeId : Option String
  deriving DecidableEq

inductive NormalizedTypeFamily
  | boolean
  | integer
  | decimal
  | float
  | text
  | binary
  | json
  | date
  | time
  | timestamp
  | uuid
  | array
  | document
  | other
  deriving DecidableEq, Repr

def NormalizedTypeFamily.wireName : NormalizedTypeFamily → String
  | .boolean => "boolean"
  | .integer => "integer"
  | .decimal => "decimal"
  | .float => "float"
  | .text => "text"
  | .binary => "binary"
  | .json => "json"
  | .date => "date"
  | .time => "time"
  | .timestamp => "timestamp"
  | .uuid => "uuid"
  | .array => "array"
  | .document => "document"
  | .other => "other"

structure Column where
  name : String
  ordinal : ℕ
  nativeType : String
  typeFamily : NormalizedTypeFamily
  length : Option ℕ
  precision : Option ℕ
  scale : Option ℕ
  nullable : Bool
  defaultExpression : Option String
  generatedExpression : Option String
  identity : Bool
  autoIncrement : Bool
  collation : Option String
  comment : Option String
  sensitivity : Option String
  deriving DecidableEq

inductive ConstraintKind
  | primary
  | unique
  | foreign
  | check
  deriving DecidableEq, Repr

namespace ConstraintKind

def wireName : ConstraintKind → String
  | .primary => "primary"
  | .unique => "unique"
  | .foreign => "foreign"
  | .check => "check"

/-- `constraint_kind_rank`. -/
def rank : ConstraintKind → ℕ
  | .primary => 0
  | .unique => 1
  | .foreign => 2
  | .check => 3

end ConstraintKind

structure Constraint where
  name : String
  kind : ConstraintKind
  columns : List String
  referencedRelation : Option ObjectRef
  referencedColumns : List String
  checkExpression : Option String
  updateAction : Option String
  deleteAction : Option String
  deferrable : Bool
  validated : Bool
  deriving DecidableEq

inductive SortDirection
  | asc
  | desc
  deriving DecidableEq, Repr

def SortDirection.wireName : SortDirection → String
  | .asc => "asc"
  | .desc => "desc"

structure IndexKey where
  column : Option String
  expression : Option String
  direction : Option SortDirection
  deriving DecidableEq

structure Index where
  name : String
  method : Option String
  keys : List IndexKey
  includedColumns : List String
  predicate : Option String
  unique : Bool
  valid : Bool
  deriving DecidableEq

structure Relation where
  object : ObjectRef
  comment : Option String
  rowEstimate : Option ℤ
  partitionParent : Option ObjectRef
  partitionChildren : List ObjectRef
  columns : List Column
  constraints : List Constraint
  indexes : List Index
  deriving DecidableEq

structure Routine where
  object : ObjectRef
  nativeKind : Option String
  arguments : List String
  returnType : Option String
  language : Option String
  comment : Option String
  detail : Option String
  parent : Option String
  deriving DecidableEq

structure DatabaseObject where
  object : ObjectRef
  nativeKind : Option String
  comment : Option String
  detail : Option String
  parent : Option String
  deriving DecidableEq

/-- `CatalogContents`. -/
structure CatalogContents where
  namespaces : List Namespace
  relations : List Relation
  routines : List Routine
  otherObjects : List DatabaseObject
  deriving DecidableEq

/-! ### Serialization -/

open Serializer Field

def DatabaseEngine.serializer : Serializer DatabaseEngine :=
  .variant wireName fun a b h => by
    cases a <;> cases b <;> first | rfl | exact absurd h (by decide)

def ObjectKind.serializer : Serializer ObjectKind :=
  .variant wireName fun a b h => by
    cases a <;> cases b <;> first | rfl | exact absurd h (by decide)

def NormalizedTypeFamily.serializer : Serializer NormalizedTypeFamily :=
  .variant wireName fun a b h => by
    cases a <;> cases b <;> first | rfl | exact absurd h (by decide)

def ConstraintKind.serializer : Serializer ConstraintKind :=
  .variant wireName fun a b h => by
    cases a <;> cases b <;> first | rfl | exact absurd h (by decide)

def SortDirection.serializer : Serializer SortDirection :=
  .variant wireName fun a b h => by
    cases a <;> cases b <;> first | rfl | exact absurd h (by decide)

def Namespace.serializer : Serializer Namespace :=
  .struct [required "name" string name, optional "comment" string comment] (by decide)
    fun a b h => by
      cases a
      cases b
      simpa using h

def ObjectRef.serializer : Serializer ObjectRef :=
  .struct [optional "catalog" string catalog, optional "namespace" string namespace_,
      required "name" string name, required "kind" ObjectKind.serializer kind,
      optional "nativeId" string nativeId] (by decide)
    fun a b h => by
      cases a
      cases b
      simpa using h

def Column.serializer : Serializer Column :=
  .struct [required "name" string name, required "ordinal" nat ordinal,
      required "nativeType" string nativeType,
      required "typeFamily" NormalizedTypeFamily.serializer typeFamily,
      optional "length" nat length, optional "precision" nat precision, optional "scale" nat scale,
      required "nullable" bool nullable, optional "defaultExpression" string defaultExpression,
      optional "generatedExpression" string generatedExpression, required "identity" bool identity,
      required "autoIncrement" bool autoIncrement, optional "collation" string collation,
      optional "comment" string comment, optional "sensitivity" string sensitivity] (by decide)
    fun a b h => by
      cases a
      cases b
      simpa using h

def Constraint.serializer : Serializer Constraint :=
  .struct [required "name" string name, required "kind" ConstraintKind.serializer kind,
      required "columns" (list string) columns,
      optional "referencedRelation" ObjectRef.serializer referencedRelation,
      required "referencedColumns" (list string) referencedColumns,
      optional "checkExpression" string checkExpression,
      optional "updateAction" string updateAction, optional "deleteAction" string deleteAction,
      required "deferrable" bool deferrable, required "validated" bool validated] (by decide)
    fun a b h => by
      cases a
      cases b
      simpa using h

def IndexKey.serializer : Serializer IndexKey :=
  .struct [optional "column" string column, optional "expression" string expression,
      optional "direction" SortDirection.serializer direction] (by decide)
    fun a b h => by
      cases a
      cases b
      simpa using h

def Index.serializer : Serializer Index :=
  .struct [required "name" string name, optional "method" string method,
      required "keys" (list IndexKey.serializer) keys,
      required "includedColumns" (list string) includedColumns,
      optional "predicate" string predicate, required "unique" bool unique,
      required "valid" bool valid] (by decide)
    fun a b h => by
      cases a
      cases b
      simpa using h

def Routine.serializer : Serializer Routine :=
  .struct [required "object" ObjectRef.serializer object, optional "nativeKind" string nativeKind,
      required "arguments" (list string) arguments, optional "returnType" string returnType,
      optional "language" string language, optional "comment" string comment,
      optional "detail" string detail, optional "parent" string parent] (by decide)
    fun a b h => by
      cases a
      cases b
      simpa using h

def DatabaseObject.serializer : Serializer DatabaseObject :=
  .struct [required "object" ObjectRef.serializer object, optional "nativeKind" string nativeKind,
      optional "comment" string comment, optional "detail" string detail,
      optional "parent" string parent] (by decide)
    fun a b h => by
      cases a
      cases b
      simpa using h

/-- `RelationFingerprintPayload`: a relation without its row estimate. -/
structure RelationFingerprintPayload where
  object : ObjectRef
  comment : Option String
  partitionParent : Option ObjectRef
  partitionChildren : List ObjectRef
  columns : List Column
  constraints : List Constraint
  indexes : List Index
  deriving DecidableEq

def RelationFingerprintPayload.serializer : Serializer RelationFingerprintPayload :=
  .struct [required "object" ObjectRef.serializer object, optional "comment" string comment,
      optional "partitionParent" ObjectRef.serializer partitionParent,
      required "partitionChildren" (list ObjectRef.serializer) partitionChildren,
      required "columns" (list Column.serializer) columns,
      required "constraints" (list Constraint.serializer) constraints,
      required "indexes" (list Index.serializer) indexes] (by decide)
    fun a b h => by
      cases a
      cases b
      simpa using h

/-- `relation_fingerprint_payload`. -/
def relationFingerprintPayload (relation : Relation) : RelationFingerprintPayload where
  object := relation.object
  comment := relation.comment
  partitionParent := relation.partitionParent
  partitionChildren := relation.partitionChildren
  columns := relation.columns
  constraints := relation.constraints
  indexes := relation.indexes

/-- `CatalogFingerprintPayload`. -/
structure CatalogFingerprintPayload where
  schemaVersion : ℕ
  engine : DatabaseEngine
  namespaces : List Namespace
  relations : List RelationFingerprintPayload
  routines : List Routine
  otherObjects : List DatabaseObject
  deriving DecidableEq

def CatalogFingerprintPayload.serializer : Serializer CatalogFingerprintPayload :=
  .struct [required "schemaVersion" nat schemaVersion,
      required "engine" DatabaseEngine.serializer engine,
      required "namespaces" (list Namespace.serializer) namespaces,
      required "relations" (list RelationFingerprintPayload.serializer) relations,
      required "routines" (list Routine.serializer) routines,
      required "otherObjects" (list DatabaseObject.serializer) otherObjects] (by decide)
    fun a b h => by
      cases a
      cases b
      simpa using h

/-! ### The canonical order -/

/-- A missing text comes before every text. -/
def textKey : Option String → WithBot String
  | none => ⊥
  | some s => s

theorem textKey_injective : Function.Injective textKey := by
  intro a b h
  cases a <;> cases b <;> simp_all [textKey]

/-- The key of `compare_serialized`: byte strings in lexicographic order. -/
def serializedKey {α : Type} (s : Serializer α) (a : α) : List ℕ := (s.toVec a).map UInt8.toNat

theorem serializedKey_injective {α : Type} (s : Serializer α) :
    Function.Injective (serializedKey s) := by
  intro a b h
  exact s.toVec_injective (List.map_injective_iff.2 (fun _ _ => UInt8.toNat_inj.1) h)

/-- The key of `compare_object_ref`. -/
def objectRefKey (r : ObjectRef) :
    WithBot String ×ₗ WithBot String ×ₗ String ×ₗ ℕ ×ₗ WithBot String :=
  toLex (textKey r.catalog, toLex (textKey r.namespace_, toLex (r.name,
    toLex (r.kind.rank, textKey r.nativeId))))

theorem objectRefKey_injective : Function.Injective objectRefKey := by
  intro a b h
  cases a
  cases b
  simpa only [objectRefKey, EmbeddingLike.apply_eq_iff_eq, Prod.mk.injEq,
    textKey_injective.eq_iff, ObjectKind.rank_injective.eq_iff, ObjectRef.mk.injEq] using h

def namespaceKey (n : Namespace) : String ×ₗ WithBot String := toLex (n.name, textKey n.comment)

theorem namespaceKey_injective : Function.Injective namespaceKey := by
  intro a b h
  cases a
  cases b
  simpa only [namespaceKey, EmbeddingLike.apply_eq_iff_eq, Prod.mk.injEq,
    textKey_injective.eq_iff, Namespace.mk.injEq] using h

def columnKey (c : Column) : ℕ ×ₗ String ×ₗ List ℕ :=
  toLex (c.ordinal, toLex (c.name, serializedKey Column.serializer c))

def constraintKey (c : Constraint) : ℕ ×ₗ String ×ₗ List ℕ :=
  toLex (c.kind.rank, toLex (c.name, serializedKey Constraint.serializer c))

def indexKey (i : Index) : String ×ₗ List ℕ :=
  toLex (i.name, serializedKey Index.serializer i)

/-- The key of a member with an object reference; ties are broken by what it serializes as. -/
def objectKey {α : Type} (object : α → ObjectRef) (s : Serializer α) (a : α) :
    (WithBot String ×ₗ WithBot String ×ₗ String ×ₗ ℕ ×ₗ WithBot String) ×ₗ List ℕ :=
  toLex (objectRefKey (object a), serializedKey s a)

theorem columnKey_injective : Function.Injective columnKey := by
  intro a b h
  simp only [columnKey, EmbeddingLike.apply_eq_iff_eq, Prod.mk.injEq] at h
  exact serializedKey_injective _ h.2.2

theorem constraintKey_injective : Function.Injective constraintKey := by
  intro a b h
  simp only [constraintKey, EmbeddingLike.apply_eq_iff_eq, Prod.mk.injEq] at h
  exact serializedKey_injective _ h.2.2

theorem indexKey_injective : Function.Injective indexKey := by
  intro a b h
  simp only [indexKey, EmbeddingLike.apply_eq_iff_eq, Prod.mk.injEq] at h
  exact serializedKey_injective _ h.2

theorem objectKey_injective {α : Type} (object : α → ObjectRef) (s : Serializer α) :
    Function.Injective (objectKey object s) := by
  intro a b h
  simp only [objectKey, EmbeddingLike.apply_eq_iff_eq, Prod.mk.injEq] at h
  exact serializedKey_injective _ h.2

/-- The key of a relation looks at what is hashed of it and at nothing else. -/
def relationKey (r : Relation) :
    (WithBot String ×ₗ WithBot String ×ₗ String ×ₗ ℕ ×ₗ WithBot String) ×ₗ List ℕ :=
  toLex (objectRefKey r.object,
    serializedKey RelationFingerprintPayload.serializer (relationFingerprintPayload r))

theorem relationKey_eq (r : Relation) : relationKey r =
    objectKey RelationFingerprintPayload.object RelationFingerprintPayload.serializer
      (relationFingerprintPayload r) := rfl

/-- The lists inside a relation in their canonical order. -/
def canonicalizeRelation (relation : Relation) : Relation :=
  { relation with
    columns := sortBy columnKey relation.columns
    constraints := sortBy constraintKey relation.constraints
    indexes := sortBy indexKey relation.indexes
    partitionChildren := sortBy objectRefKey relation.partitionChildren }

/-- `canonicalize_contents`. -/
def canonicalizeContents (contents : CatalogContents) : CatalogContents where
  namespaces := sortBy namespaceKey contents.namespaces
  relations := sortBy relationKey (contents.relations.map canonicalizeRelation)
  routines := sortBy (objectKey Routine.object Routine.serializer) contents.routines
  otherObjects :=
    sortBy (objectKey DatabaseObject.object DatabaseObject.serializer) contents.otherObjects

/-- The same relation up to the order of its lists and its row estimate. -/
structure SameRelation (a b : Relation) : Prop where
  object : a.object = b.object
  comment : a.comment = b.comment
  partitionParent : a.partitionParent = b.partitionParent
  partitionChildren : a.partitionChildren.Perm b.partitionChildren
  columns : a.columns.Perm b.columns
  constraints : a.constraints.Perm b.constraints
  indexes : a.indexes.Perm b.indexes

/-- The same contents up to order and row estimates: every list is a rearrangement of the other,
and the relations correspond one to one. -/
structure SameContents (a b : CatalogContents) : Prop where
  namespaces : a.namespaces.Perm b.namespaces
  relations : ∃ l, a.relations.Perm l ∧ List.Forall₂ SameRelation l b.relations
  routines : a.routines.Perm b.routines
  otherObjects : a.otherObjects.Perm b.otherObjects

theorem payload_canonicalizeRelation {a b : Relation} :
    relationFingerprintPayload (canonicalizeRelation a) =
      relationFingerprintPayload (canonicalizeRelation b) ↔ SameRelation a b := by
  simp only [relationFingerprintPayload, canonicalizeRelation, RelationFingerprintPayload.mk.injEq,
    sortBy_eq_iff columnKey_injective, sortBy_eq_iff constraintKey_injective,
    sortBy_eq_iff indexKey_injective, sortBy_eq_iff objectRefKey_injective]
  constructor
  · rintro ⟨h1, h2, h3, h4, h5, h6, h7⟩
    exact ⟨h1, h2, h3, h4, h5, h6, h7⟩
  · rintro ⟨h1, h2, h3, h4, h5, h6, h7⟩
    exact ⟨h1, h2, h3, h4, h5, h6, h7⟩

/-- The payloads of the canonical relations agree exactly when the relations correspond. -/
theorem payloads_canonical_relations {a b : List Relation} :
    (sortBy relationKey (a.map canonicalizeRelation)).map relationFingerprintPayload =
        (sortBy relationKey (b.map canonicalizeRelation)).map relationFingerprintPayload ↔
      ∃ l, a.Perm l ∧ List.Forall₂ SameRelation l b := by
  rw [map_sortBy_eq_iff (objectKey_injective _ _) relationKey_eq, List.map_map, List.map_map,
    map_perm_map_iff]
  simp only [Function.comp_apply, payload_canonicalizeRelation]

/-! ### Fingerprints -/

/-- `CATALOG_SCHEMA_VERSION`. -/
def catalogSchemaVersion : ℕ := 2

def fingerprintPayload (engine : DatabaseEngine) (contents : CatalogContents) :
    CatalogFingerprintPayload where
  schemaVersion := catalogSchemaVersion
  engine := engine
  namespaces := contents.namespaces
  relations := contents.relations.map relationFingerprintPayload
  routines := contents.routines
  otherObjects := contents.otherObjects

/-- The bytes that are hashed. -/
def fingerprintText (engine : DatabaseEngine) (contents : CatalogContents) : List UInt8 :=
  CatalogFingerprintPayload.serializer.toVec (fingerprintPayload engine contents)

theorem fingerprintText_canonical_iff {engine : DatabaseEngine} {a b : CatalogContents} :
    fingerprintText engine (canonicalizeContents a) =
      fingerprintText engine (canonicalizeContents b) ↔ SameContents a b := by
  rw [fingerprintText, fingerprintText, (Serializer.toVec_injective _).eq_iff]
  simp only [fingerprintPayload, canonicalizeContents, CatalogFingerprintPayload.mk.injEq,
    true_and, sortBy_eq_iff namespaceKey_injective, payloads_canonical_relations,
    sortBy_eq_iff (objectKey_injective _ _)]
  constructor
  · rintro ⟨h1, h2, h3, h4⟩
    exact ⟨h1, h2, h3, h4⟩
  · rintro ⟨h1, h2, h3, h4⟩
    exact ⟨h1, h2, h3, h4⟩

theorem SameRelation.refl (a : Relation) : SameRelation a a :=
  ⟨rfl, rfl, rfl, .refl _, .refl _, .refl _, .refl _⟩

/-- The canonical order only moves members. -/
theorem sameContents_canonicalizeContents (contents : CatalogContents) :
    SameContents (canonicalizeContents contents) contents where
  namespaces := sortBy_perm _ _
  relations := by
    refine ⟨contents.relations.map canonicalizeRelation, sortBy_perm _ _, ?_⟩
    rw [List.forall₂_map_left_iff, List.forall₂_same]
    intro relation _
    exact ⟨rfl, rfl, rfl, sortBy_perm _ _, sortBy_perm _ _, sortBy_perm _ _, sortBy_perm _ _⟩
  routines := sortBy_perm _ _
  otherObjects := sortBy_perm _ _

section

variable (sha256 : List UInt8 → Vector UInt8 32)

/-- `catalog_fingerprint`. -/
def catalogFingerprint (engine : DatabaseEngine) (contents : CatalogContents) : String :=
  String.ofList (hex (sha256 (fingerprintText engine contents)).toList)

variable {sha256}

theorem catalogFingerprint_inj {engine : DatabaseEngine} {a b : CatalogContents} :
    catalogFingerprint sha256 engine a = catalogFingerprint sha256 engine b ↔
      sha256 (fingerprintText engine a) = sha256 (fingerprintText engine b) := by
  rw [catalogFingerprint, catalogFingerprint, String.ofList_inj, hex_injective.eq_iff,
    Vector.toList_inj]

/-- `valid_fingerprint`. -/
def validFingerprint (fingerprint : String) : Bool :=
  let bytes := utf8 fingerprint
  bytes.length = 64 ∧ bytes.all fun byte => (48 ≤ byte ∧ byte ≤ 57) ∨ (97 ≤ byte ∧ byte ≤ 102)

theorem utf8_hex (bytes : List UInt8) :
    utf8 (String.ofList (hex bytes)) = (hex bytes).map fun c => UInt8.ofNat c.toNat := by
  have hdigit : ∀ d : Fin 16, String.utf8EncodeChar (Nat.digitChar d) =
      [UInt8.ofNat (Nat.digitChar d).toNat] := by decide
  rw [utf8, String.toList_ofList, List.map_eq_flatMap]
  refine List.flatMap_congr fun c hc => ?_
  obtain ⟨d, hd, rfl⟩ := digitChar_mem_hex hc
  exact hdigit ⟨d, hd⟩

theorem validFingerprint_catalogFingerprint (engine : DatabaseEngine)
    (contents : CatalogContents) :
    validFingerprint (catalogFingerprint sha256 engine contents) = true := by
  have hdigit : ∀ d : Fin 16, (48 ≤ UInt8.ofNat (Nat.digitChar d).toNat ∧
      UInt8.ofNat (Nat.digitChar d).toNat ≤ 57) ∨ (97 ≤ UInt8.ofNat (Nat.digitChar d).toNat ∧
      UInt8.ofNat (Nat.digitChar d).toNat ≤ 102) := by decide
  simp only [validFingerprint, catalogFingerprint, utf8_hex, decide_eq_true_eq]
  refine ⟨by simp, List.all_eq_true.2 fun byte hbyte => ?_⟩
  obtain ⟨c, hc, rfl⟩ := List.mem_map.1 hbyte
  obtain ⟨d, hd, rfl⟩ := digitChar_mem_hex hc
  exact decide_eq_true (hdigit ⟨d, hd⟩)

/-! ### Snapshots -/

/-- `CatalogSnapshot`. -/
structure CatalogSnapshot where
  schemaVersion : ℕ
  connectionId : Uuid
  engine : DatabaseEngine
  database : String
  capturedAt : DateTime
  fingerprint : String
  namespaces : List Namespace
  relations : List Relation
  routines : List Routine
  otherObjects : List DatabaseObject
  deriving DecidableEq

/-- `CatalogValidationError`. -/
inductive CatalogValidationError
  | schemaVersion (actual expected : ℕ)
  | fingerprint
  | fingerprintMismatch
  | emptyDatabase
  deriving DecidableEq, Repr

namespace CatalogSnapshot

/-- `from_canonical_parts`. -/
def fromCanonicalParts (connectionId : Uuid) (engine : DatabaseEngine) (database : String)
    (capturedAt : DateTime) (fingerprint : String) (contents : CatalogContents) :
    CatalogSnapshot where
  schemaVersion := catalogSchemaVersion
  connectionId := connectionId
  engine := engine
  database := database
  capturedAt := capturedAt
  fingerprint := fingerprint
  namespaces := contents.namespaces
  relations := contents.relations
  routines := contents.routines
  otherObjects := contents.otherObjects

def contents (snapshot : CatalogSnapshot) : CatalogContents where
  namespaces := snapshot.namespaces
  relations := snapshot.relations
  routines := snapshot.routines
  otherObjects := snapshot.otherObjects

/-- `validate_shape`. -/
def validateShape (snapshot : CatalogSnapshot) : Except CatalogValidationError Unit :=
  if snapshot.schemaVersion ≠ catalogSchemaVersion then
    .error (.schemaVersion snapshot.schemaVersion catalogSchemaVersion)
  else if isBlank snapshot.database then .error .emptyDatabase
  else if ¬ validFingerprint snapshot.fingerprint then .error .fingerprint
  else .ok ()

variable (sha256)

/-- `CatalogSnapshot::capture`. -/
def capture (connectionId : Uuid) (engine : DatabaseEngine) (database : String)
    (capturedAt : DateTime) (contents : CatalogContents) :
    Except CatalogValidationError CatalogSnapshot := do
  let contents := canonicalizeContents contents
  let fingerprint := catalogFingerprint sha256 engine contents
  let snapshot := fromCanonicalParts connectionId engine database capturedAt fingerprint contents
  snapshot.validateShape
  pure snapshot

/-- `canonical_fingerprint`. -/
def canonicalFingerprint (snapshot : CatalogSnapshot) : String :=
  catalogFingerprint sha256 snapshot.engine (canonicalizeContents snapshot.contents)

/-- `validate`. -/
def validate (snapshot : CatalogSnapshot) : Except CatalogValidationError Unit := do
  snapshot.validateShape
  if snapshot.fingerprint ≠ snapshot.canonicalFingerprint sha256 then
    throw .fingerprintMismatch

/-- `CatalogSnapshot::new`, which every snapshot that is read back goes through. -/
def new (connectionId : Uuid) (engine : DatabaseEngine) (database : String)
    (capturedAt : DateTime) (fingerprint : String) (contents : CatalogContents) :
    Except CatalogValidationError CatalogSnapshot := do
  let contents := canonicalizeContents contents
  let snapshot := fromCanonicalParts connectionId engine database capturedAt fingerprint contents
  snapshot.validate sha256
  pure snapshot

variable {sha256}

theorem validateShape_fromCanonicalParts (connectionId : Uuid) (engine : DatabaseEngine)
    (database : String) (capturedAt : DateTime) (contents : CatalogContents) :
    (fromCanonicalParts connectionId engine database capturedAt
      (catalogFingerprint sha256 engine contents) contents).validateShape =
      if isBlank database then .error .emptyDatabase else .ok () := by
  simp only [validateShape, fromCanonicalParts, ne_eq, not_true_eq_false, if_false,
    validFingerprint_catalogFingerprint]

/-- A capture fails exactly for a blank database name. -/
theorem capture_eq (connectionId : Uuid) (engine : DatabaseEngine) (database : String)
    (capturedAt : DateTime) (contents : CatalogContents) :
    capture sha256 connectionId engine database capturedAt contents =
      if isBlank database then .error .emptyDatabase
      else .ok (fromCanonicalParts connectionId engine database capturedAt
        (catalogFingerprint sha256 engine (canonicalizeContents contents))
        (canonicalizeContents contents)) := by
  simp only [capture, validateShape_fromCanonicalParts]
  split <;> rfl

theorem of_capture_eq_ok {connectionId : Uuid} {engine : DatabaseEngine} {database : String}
    {capturedAt : DateTime} {contents : CatalogContents} {snapshot : CatalogSnapshot}
    (h : capture sha256 connectionId engine database capturedAt contents = .ok snapshot) :
    snapshot = fromCanonicalParts connectionId engine database capturedAt
      (catalogFingerprint sha256 engine (canonicalizeContents contents))
      (canonicalizeContents contents) ∧ isBlank database = false := by
  rw [capture_eq] at h
  split at h
  · cases h
  · rename_i hblank
    exact ⟨(Except.ok.inj h).symm, by simpa using hblank⟩

/-- A captured snapshot passes its own validation. -/
theorem validate_of_capture {connectionId : Uuid} {engine : DatabaseEngine} {database : String}
    {capturedAt : DateTime} {contents : CatalogContents} {snapshot : CatalogSnapshot}
    (h : capture sha256 connectionId engine database capturedAt contents = .ok snapshot) :
    snapshot.validate sha256 = .ok () := by
  obtain ⟨rfl, hblank⟩ := of_capture_eq_ok h
  have hsame : catalogFingerprint sha256 engine
      (canonicalizeContents (canonicalizeContents contents)) =
        catalogFingerprint sha256 engine (canonicalizeContents contents) :=
    catalogFingerprint_inj.2 (congrArg sha256
      (fingerprintText_canonical_iff.2 (sameContents_canonicalizeContents contents)))
  rw [validate, validateShape_fromCanonicalParts, if_neg (by simp [hblank])]
  exact if_neg (not_not.2 hsame.symm)

/-- **The fingerprint of a capture is the schema.** Two captures of one engine, of any two
connections, databases and times, have the same fingerprint exactly when their contents agree up
to the order of every list and the row estimates, provided the hash keeps the two hashed texts
apart. -/
theorem fingerprint_eq_iff {connectionId connectionId' : Uuid} {engine : DatabaseEngine}
    {database database' : String} {capturedAt capturedAt' : DateTime}
    {contents contents' : CatalogContents} {snapshot snapshot' : CatalogSnapshot}
    (hcapture : capture sha256 connectionId engine database capturedAt contents = .ok snapshot)
    (hcapture' :
      capture sha256 connectionId' engine database' capturedAt' contents' = .ok snapshot')
    (hsha256 : Set.InjOn sha256 {fingerprintText engine (canonicalizeContents contents),
      fingerprintText engine (canonicalizeContents contents')}) :
    snapshot.fingerprint = snapshot'.fingerprint ↔ SameContents contents contents' := by
  obtain ⟨rfl, -⟩ := of_capture_eq_ok hcapture
  obtain ⟨rfl, -⟩ := of_capture_eq_ok hcapture'
  calc catalogFingerprint sha256 engine (canonicalizeContents contents) =
        catalogFingerprint sha256 engine (canonicalizeContents contents')
      ↔ sha256 (fingerprintText engine (canonicalizeContents contents)) =
        sha256 (fingerprintText engine (canonicalizeContents contents')) := catalogFingerprint_inj
    _ ↔ fingerprintText engine (canonicalizeContents contents) =
        fingerprintText engine (canonicalizeContents contents') :=
      hsha256.eq_iff (Set.mem_insert _ _) (Set.mem_insert_of_mem _ rfl)
    _ ↔ SameContents contents contents' := fingerprintText_canonical_iff

/-- A table named `duplicate` with one text column. -/
def sampleRelation (columnName : String) (rowEstimate : ℤ) : Relation where
  object := ⟨none, some "public", "duplicate", .table, none⟩
  comment := none
  rowEstimate := some rowEstimate
  partitionParent := none
  partitionChildren := []
  columns := [⟨columnName, 1, "text", .text, none, none, none, false, none, none, false, false,
    none, none, none⟩]
  constraints := []
  indexes := []

/-- Row estimates cannot reorder relations of one identity. -/
theorem fingerprint_eq_iff_duplicate : ∃ snapshot snapshot',
    capture Sha256.sha256 (.ofByte 1) .postgres "app" (.ofDay 1)
      ⟨[], [sampleRelation "alpha" 1, sampleRelation "beta" 2], [], []⟩ = .ok snapshot ∧
    capture Sha256.sha256 (.ofByte 2) .postgres "production" (.ofDay 2)
      ⟨[], [sampleRelation "beta" 1, sampleRelation "alpha" 2], [], []⟩ = .ok snapshot' ∧
    snapshot.fingerprint = snapshot'.fingerprint := by
  have hsame : SameContents ⟨[], [sampleRelation "alpha" 1, sampleRelation "beta" 2], [], []⟩
      ⟨[], [sampleRelation "beta" 1, sampleRelation "alpha" 2], [], []⟩ := by
    refine ⟨.refl _, ⟨[sampleRelation "beta" 2, sampleRelation "alpha" 1], .swap _ _ _, ?_⟩,
      .refl _, .refl _⟩
    have hrelation : ∀ name m n, SameRelation (sampleRelation name m) (sampleRelation name n) :=
      fun name m n => ⟨rfl, rfl, rfl, .refl _, .refl _, .refl _, .refl _⟩
    exact .cons (hrelation _ _ _) (.cons (hrelation _ _ _) .nil)
  have hcapture := fun connectionId engine capturedAt contents =>
    (@capture_eq Sha256.sha256 connectionId engine "app" capturedAt contents).trans
      (if_neg (by decide))
  have hcapture' := fun connectionId engine capturedAt contents =>
    (@capture_eq Sha256.sha256 connectionId engine "production" capturedAt contents).trans
      (if_neg (by decide))
  refine ⟨_, _, hcapture _ _ _ _, hcapture' _ _ _ _, ?_⟩
  refine (fingerprint_eq_iff (hcapture _ _ _ _) (hcapture' _ _ _ _) ?_).2 hsame
  rw [fingerprintText_canonical_iff.2 hsame, Set.pair_eq_singleton]
  exact Set.injOn_singleton _ _

end CatalogSnapshot

end

end Protocol
end AgentDb
