import AgentDb.Protocol.Catalog
import AgentDb.Protocol.Derived

/-!
# Catalog snapshots as JSON: reading them back

A snapshot is written with its absent fields left out. The readers take an absent option for
`None` and an absent list for an empty one, and know no other fields. What was read goes through
`CatalogSnapshot::new`: it is sorted once more, and its fingerprint is compared with its contents.

`snapshot_travels` is the main result: a captured snapshot is read back as it was, and a snapshot
is refused when what the fingerprint covers was changed, or the fingerprint was. The order of the
lists is the canonical one, except that nothing orders relations which differ in their row
estimates only (`new_keeps_order_of_ties`).
-/

namespace AgentDb
namespace Protocol

open Json Codec Sorting

/-! ### The readers -/

def DatabaseEngine.codec : Codec DatabaseEngine :=
  named serializer [.postgres, .mysql, .sqlite, .mongodb] wireName

theorem DatabaseEngine.kept (engine : DatabaseEngine) : Kept 1 codec engine :=
  kept_named (fun engine => by cases engine <;> decide) engine

def ObjectKind.codec : Codec ObjectKind :=
  named serializer [.table, .view, .materializedView, .routine, .sequence, .type, .trigger, .other]
    wireName

theorem ObjectKind.kept (kind : ObjectKind) : Kept 1 codec kind :=
  kept_named (fun kind => by cases kind <;> decide) kind

def NormalizedTypeFamily.codec : Codec NormalizedTypeFamily :=
  named serializer [.boolean, .integer, .decimal, .float, .text, .binary, .json, .date, .time,
    .timestamp, .uuid, .array, .document, .other] wireName

theorem NormalizedTypeFamily.kept (family : NormalizedTypeFamily) : Kept 1 codec family :=
  kept_named (fun family => by cases family <;> decide) family

def ConstraintKind.codec : Codec ConstraintKind :=
  named serializer [.primary, .unique, .foreign, .check] wireName

theorem ConstraintKind.kept (kind : ConstraintKind) : Kept 1 codec kind :=
  kept_named (fun kind => by cases kind <;> decide) kind

def SortDirection.codec : Codec SortDirection := named serializer [.asc, .desc] wireName

theorem SortDirection.kept (direction : SortDirection) : Kept 1 codec direction :=
  kept_named (fun direction => by cases direction <;> decide) direction

theorem kept_optionalText (o : Option String) : ∀ s ∈ o, Kept 1 text s := fun s _ => kept_text s

theorem kept_texts (l : List String) : ∀ s ∈ l, Kept 1 text s := fun s _ => kept_text s

def Namespace.shape : Shape Namespace Namespace (String → Option String → Namespace) :=
  .required "name" text name <| .optional "comment" text comment .done

def Namespace.codec : Codec Namespace := ⟨serializer, shape.read mk⟩

theorem Namespace.kept (n : Namespace) : Kept 2 codec n := by
  refine Shape.kept_struct shape mk ?_ rfl
  exact .required (kept_text _) <| .optional (kept_optionalText _) Shape.keeps_done

def ObjectRef.shape : Shape ObjectRef ObjectRef
    (Option String → Option String → String → ObjectKind → Option String → ObjectRef) :=
  .optional "catalog" text catalog <| .optional "namespace" text namespace_ <|
  .required "name" text name <| .required "kind" ObjectKind.codec kind <|
  .optional "nativeId" text nativeId .done

def ObjectRef.codec : Codec ObjectRef := ⟨serializer, shape.read mk⟩

theorem ObjectRef.kept (r : ObjectRef) : Kept 2 codec r := by
  refine Shape.kept_struct shape mk ?_ rfl
  exact .optional (kept_optionalText _) <| .optional (kept_optionalText _) <|
    .required (kept_text _) <| .required (ObjectKind.kept _) <|
    .optional (kept_optionalText _) Shape.keeps_done

def Column.shape : Shape Column Column
    (String → ℕ → String → NormalizedTypeFamily → Option ℕ → Option ℕ → Option ℕ → Bool →
      Option String → Option String → Bool → Bool → Option String → Option String →
      Option String → Column) :=
  .required "name" text name <| .required "ordinal" (unsigned 32) ordinal <|
  .required "nativeType" text nativeType <|
  .required "typeFamily" NormalizedTypeFamily.codec typeFamily <|
  .optional "length" (unsigned 64) length <| .optional "precision" (unsigned 32) precision <|
  .optional "scale" (unsigned 32) scale <| .required "nullable" bool nullable <|
  .optional "defaultExpression" text defaultExpression <|
  .optional "generatedExpression" text generatedExpression <|
  .required "identity" bool identity <| .required "autoIncrement" bool autoIncrement <|
  .optional "collation" text collation <| .optional "comment" text comment <|
  .optional "sensitivity" text sensitivity .done

def Column.codec : Codec Column := ⟨serializer, shape.read mk⟩

/-- The numbers of a column fit their types. -/
structure Column.InRange (c : Column) : Prop where
  ordinal : c.ordinal < 2 ^ 32
  length : ∀ n ∈ c.length, n < 2 ^ 64
  precision : ∀ n ∈ c.precision, n < 2 ^ 32
  scale : ∀ n ∈ c.scale, n < 2 ^ 32

theorem Column.kept {c : Column} (h : c.InRange) : Kept 2 codec c := by
  have hu32 : ∀ n < 2 ^ 32, Kept 1 (unsigned 32) n := fun n => kept_unsigned (by decide)
  have hu64 : ∀ n < 2 ^ 64, Kept 1 (unsigned 64) n := fun n => kept_unsigned le_rfl
  refine Shape.kept_struct shape mk ?_ rfl
  exact .required (kept_text _) <| .required (hu32 _ h.ordinal) <| .required (kept_text _) <|
    .required (NormalizedTypeFamily.kept _) <| .optional (fun _ hn => hu64 _ (h.length _ hn)) <|
    .optional (fun _ hn => hu32 _ (h.precision _ hn)) <|
    .optional (fun _ hn => hu32 _ (h.scale _ hn)) <| .required (kept_bool _) <|
    .optional (kept_optionalText _) <| .optional (kept_optionalText _) <|
    .required (kept_bool _) <| .required (kept_bool _) <| .optional (kept_optionalText _) <|
    .optional (kept_optionalText _) <| .optional (kept_optionalText _) Shape.keeps_done

def Constraint.shape : Shape Constraint Constraint
    (String → ConstraintKind → List String → Option ObjectRef → List String → Option String →
      Option String → Option String → Bool → Bool → Constraint) :=
  .required "name" text name <| .required "kind" ConstraintKind.codec kind <|
  .list "columns" text columns <|
  .optional "referencedRelation" ObjectRef.codec referencedRelation <|
  .list "referencedColumns" text referencedColumns <|
  .optional "checkExpression" text checkExpression <|
  .optional "updateAction" text updateAction <| .optional "deleteAction" text deleteAction <|
  .required "deferrable" bool deferrable <| .required "validated" bool validated .done

def Constraint.codec : Codec Constraint := ⟨serializer, shape.read mk⟩

theorem Constraint.kept (c : Constraint) : Kept 3 codec c := by
  refine Shape.kept_struct shape mk ?_ rfl
  exact .required (kept_text _) <| .required (ConstraintKind.kept _) <| .list (kept_texts _) <|
    .optional (fun r _ => r.kept) <| .list (kept_texts _) <| .optional (kept_optionalText _) <|
    .optional (kept_optionalText _) <| .optional (kept_optionalText _) <|
    .required (kept_bool _) <| .required (kept_bool _) Shape.keeps_done

def IndexKey.shape : Shape IndexKey IndexKey
    (Option String → Option String → Option SortDirection → IndexKey) :=
  .optional "column" text column <| .optional "expression" text expression <|
  .optional "direction" SortDirection.codec direction .done

def IndexKey.codec : Codec IndexKey := ⟨serializer, shape.read mk⟩

theorem IndexKey.kept (k : IndexKey) : Kept 2 codec k := by
  refine Shape.kept_struct shape mk ?_ rfl
  exact .optional (kept_optionalText _) <| .optional (kept_optionalText _) <|
    .optional (fun d _ => d.kept) Shape.keeps_done

def Index.shape : Shape Index Index
    (String → Option String → List IndexKey → List String → Option String → Bool → Bool →
      Index) :=
  .required "name" text name <| .optional "method" text method <|
  .list "keys" IndexKey.codec keys <| .list "includedColumns" text includedColumns <|
  .optional "predicate" text predicate <| .required "unique" bool unique <|
  .required "valid" bool valid .done

def Index.codec : Codec Index := ⟨serializer, shape.read mk⟩

theorem Index.kept (i : Index) : Kept 4 codec i := by
  refine Shape.kept_struct shape mk ?_ rfl
  exact .required (kept_text _) <| .optional (kept_optionalText _) <|
    .list (fun k _ => k.kept) <| .list (kept_texts _) <| .optional (kept_optionalText _) <|
    .required (kept_bool _) <| .required (kept_bool _) Shape.keeps_done

def Relation.serializer : Serializer Relation :=
  .struct [.required "object" ObjectRef.serializer object, .optional "comment" .string comment,
      .optional "rowEstimate" .int rowEstimate,
      .optional "partitionParent" ObjectRef.serializer partitionParent,
      .required "partitionChildren" (.list ObjectRef.serializer) partitionChildren,
      .required "columns" (.list Column.serializer) columns,
      .required "constraints" (.list Constraint.serializer) constraints,
      .required "indexes" (.list Index.serializer) indexes] (by decide)
    fun a b h => by
      cases a
      cases b
      simpa using h

def Relation.shape : Shape Relation Relation
    (ObjectRef → Option String → Option ℤ → Option ObjectRef → List ObjectRef → List Column →
      List Constraint → List Index → Relation) :=
  .required "object" ObjectRef.codec object <| .optional "comment" text comment <|
  .optional "rowEstimate" i64 rowEstimate <|
  .optional "partitionParent" ObjectRef.codec partitionParent <|
  .list "partitionChildren" ObjectRef.codec partitionChildren <|
  .list "columns" Column.codec columns <| .list "constraints" Constraint.codec constraints <|
  .list "indexes" Index.codec indexes .done

def Relation.codec : Codec Relation := ⟨serializer, shape.read mk⟩

/-- The numbers of a relation fit their types. -/
structure Relation.InRange (r : Relation) : Prop where
  rowEstimate : ∀ n ∈ r.rowEstimate, -(2 : ℤ) ^ 63 ≤ n ∧ n < 2 ^ 63
  columns : ∀ c ∈ r.columns, c.InRange

theorem Relation.kept {r : Relation} (h : r.InRange) : Kept 6 codec r := by
  refine Shape.kept_struct shape mk ?_ rfl
  exact .required (ObjectRef.kept _) <| .optional (kept_optionalText _) <|
    .optional (fun _ hn => kept_i64 (h.rowEstimate _ hn)) <| .optional (fun r _ => r.kept) <|
    .list (fun r _ => r.kept) <| .list (fun c hc => Column.kept (h.columns c hc)) <|
    .list (fun c _ => c.kept) <| .list (fun i _ => i.kept) Shape.keeps_done

def Routine.shape : Shape Routine Routine
    (ObjectRef → Option String → List String → Option String → Option String → Option String →
      Option String → Option String → Routine) :=
  .required "object" ObjectRef.codec object <| .optional "nativeKind" text nativeKind <|
  .list "arguments" text arguments <| .optional "returnType" text returnType <|
  .optional "language" text language <| .optional "comment" text comment <|
  .optional "detail" text detail <| .optional "parent" text parent .done

def Routine.codec : Codec Routine := ⟨serializer, shape.read mk⟩

theorem Routine.kept (r : Routine) : Kept 3 codec r := by
  refine Shape.kept_struct shape mk ?_ rfl
  exact .required (ObjectRef.kept _) <| .optional (kept_optionalText _) <|
    .list (kept_texts _) <| .optional (kept_optionalText _) <| .optional (kept_optionalText _) <|
    .optional (kept_optionalText _) <| .optional (kept_optionalText _) <|
    .optional (kept_optionalText _) Shape.keeps_done

def DatabaseObject.shape : Shape DatabaseObject DatabaseObject
    (ObjectRef → Option String → Option String → Option String → Option String →
      DatabaseObject) :=
  .required "object" ObjectRef.codec object <| .optional "nativeKind" text nativeKind <|
  .optional "comment" text comment <| .optional "detail" text detail <|
  .optional "parent" text parent .done

def DatabaseObject.codec : Codec DatabaseObject := ⟨serializer, shape.read mk⟩

theorem DatabaseObject.kept (o : DatabaseObject) : Kept 3 codec o := by
  refine Shape.kept_struct shape mk ?_ rfl
  exact .required (ObjectRef.kept _) <| .optional (kept_optionalText _) <|
    .optional (kept_optionalText _) <| .optional (kept_optionalText _) <|
    .optional (kept_optionalText _) Shape.keeps_done

/-! ### Snapshots on the wire -/

/-- The numbers of a catalog fit their types. -/
def CatalogContents.InRange (contents : CatalogContents) : Prop :=
  ∀ r ∈ contents.relations, r.InRange

/-- `WireCatalogSnapshot`: a snapshot that was read and not looked at. -/
structure WireCatalogSnapshot where
  schemaVersion : ℕ
  connectionId : Uuid
  engine : DatabaseEngine
  database : String
  capturedAt : DateTime
  fingerprint : String
  namespaces : List Namespace
  relations : List Relation
  routines : List Routine
  otherObjects : List DatabaseObject

def WireCatalogSnapshot.contents (wire : WireCatalogSnapshot) : CatalogContents where
  namespaces := wire.namespaces
  relations := wire.relations
  routines := wire.routines
  otherObjects := wire.otherObjects

/-- Why a text is no snapshot. -/
inductive SnapshotReadError
  | json (line column : ℕ)
  | shape
  | invalid (error : CatalogValidationError)
  deriving DecidableEq

namespace CatalogSnapshot

def serializer : Serializer CatalogSnapshot :=
  .struct [.required "schemaVersion" .nat schemaVersion,
      .required "connectionId" (.variant Uuid.toText Uuid.toText_injective) connectionId,
      .required "engine" DatabaseEngine.serializer engine,
      .required "database" .string database,
      .required "capturedAt" (.variant DateTime.wireText DateTime.wireText_injective) capturedAt,
      .required "fingerprint" .string fingerprint,
      .required "namespaces" (.list Namespace.serializer) namespaces,
      .required "relations" (.list Relation.serializer) relations,
      .required "routines" (.list Routine.serializer) routines,
      .required "otherObjects" (.list DatabaseObject.serializer) otherObjects] (by decide)
    fun a b h => by
      cases a
      cases b
      simpa using h

section Reading

variable (sha256 : List UInt8 → Vector UInt8 32) (x : Serde)
  (parseDateTime : String → Option DateTime)

/-- The fields of a snapshot, which make a `WireCatalogSnapshot`. -/
def shape : Shape CatalogSnapshot WireCatalogSnapshot
    (ℕ → Uuid → DatabaseEngine → String → DateTime → String → List Namespace → List Relation →
      List Routine → List DatabaseObject → WireCatalogSnapshot) :=
  .required "schemaVersion" (unsigned 32) schemaVersion <|
  .required "connectionId" (parsed _ Uuid.toText_injective x.parseUuid) connectionId <|
  .required "engine" DatabaseEngine.codec engine <| .required "database" text database <|
  .required "capturedAt" (parsed _ DateTime.wireText_injective parseDateTime) capturedAt <|
  .required "fingerprint" text fingerprint <| .list "namespaces" Namespace.codec namespaces <|
  .list "relations" Relation.codec relations <| .list "routines" Routine.codec routines <|
  .list "otherObjects" DatabaseObject.codec otherObjects .done

/-- What is made of the fields that were read. -/
def ofWire (wire : WireCatalogSnapshot) : Except CatalogValidationError CatalogSnapshot :=
  if wire.schemaVersion ≠ catalogSchemaVersion then
    .error (.schemaVersion wire.schemaVersion catalogSchemaVersion)
  else
    new sha256 wire.connectionId wire.engine wire.database wire.capturedAt wire.fingerprint
      wire.contents

/-- The fields of a text. -/
def readWire (bytes : List UInt8) : Except SnapshotReadError WireCatalogSnapshot := do
  let v ← (x.fromSlice bytes).mapError fun position => .json position.1 position.2
  ((shape x parseDateTime).read WireCatalogSnapshot.mk v).elim (.error .shape) .ok

/-- `serde_json::from_slice` of a snapshot. -/
def fromSlice (bytes : List UInt8) : Except SnapshotReadError CatalogSnapshot :=
  (readWire x parseDateTime bytes).bind fun wire => (ofWire sha256 wire).mapError .invalid

variable {x parseDateTime}

theorem kept_shape (hx : x.RoundTrips) {snapshot : CatalogSnapshot}
    (hversion : snapshot.schemaVersion = catalogSchemaVersion)
    (hcaptured : parseDateTime snapshot.capturedAt.wireText = some snapshot.capturedAt)
    (hrange : snapshot.contents.InRange) : (shape x parseDateTime).Keeps 7 snapshot := by
  have hu32 : snapshot.schemaVersion < 2 ^ 32 := by
    rw [hversion]
    decide
  exact .required (kept_unsigned (by decide) hu32) <| .required (kept_parsed (hx.uuid _)) <|
    .required (DatabaseEngine.kept _) <| .required (kept_text _) <|
    .required (kept_parsed hcaptured) <| .required (kept_text _) <|
    .list (fun n _ => n.kept) <| .list (fun r hr => Relation.kept (hrange r hr)) <|
    .list (fun r _ => r.kept) <| .list (fun o _ => o.kept) Shape.keeps_done

theorem readWire_eq_ok {bytes : List UInt8} {v : Value} {wire : WireCatalogSnapshot}
    (hjson : x.fromSlice bytes = .ok v)
    (hread : (shape x parseDateTime).read WireCatalogSnapshot.mk v = some wire) :
    readWire x parseDateTime bytes = .ok wire := by
  rw [readWire, hjson]
  simp only [Except.mapError, bind, Except.bind, hread, Option.elim_some]

/-- What is written of a snapshot is read again. -/
theorem readWire_text (hx : x.RoundTrips) (snapshot : CatalogSnapshot)
    (hversion : snapshot.schemaVersion = catalogSchemaVersion)
    (hcaptured : parseDateTime snapshot.capturedAt.wireText = some snapshot.capturedAt)
    (hrange : snapshot.contents.InRange) :
    readWire x parseDateTime (x.text (serializer.toValue snapshot)) =
      .ok ⟨snapshot.schemaVersion, snapshot.connectionId, snapshot.engine, snapshot.database,
        snapshot.capturedAt, snapshot.fingerprint, snapshot.namespaces, snapshot.relations,
        snapshot.routines, snapshot.otherObjects⟩ := by
  have hkept := kept_shape hx hversion hcaptured hrange
  have hprintable : Printable 8 (serializer.toValue snapshot) := hkept.printable_struct _ _
  have hread : (shape x parseDateTime).read WireCatalogSnapshot.mk (serializer.toValue snapshot) =
      some ((shape x parseDateTime).build snapshot WireCatalogSnapshot.mk) :=
    hkept.read_struct _ _ WireCatalogSnapshot.mk
  exact readWire_eq_ok
    (hx.json _ hprintable.plain (hprintable.depth.trans (by norm_num))) hread

end Reading

end CatalogSnapshot

/-! ### The canonical order -/

theorem canonicalizeRelation_canonicalizeRelation (r : Relation) :
    canonicalizeRelation (canonicalizeRelation r) = canonicalizeRelation r := by
  simp only [canonicalizeRelation, sortBy_sortBy]

/-- What is in the canonical order already stays as it is. -/
theorem canonicalizeContents_canonicalizeContents (contents : CatalogContents) :
    canonicalizeContents (canonicalizeContents contents) = canonicalizeContents contents := by
  have hrelations : (sortBy relationKey (contents.relations.map canonicalizeRelation)).map
      canonicalizeRelation = sortBy relationKey (contents.relations.map canonicalizeRelation) := by
    refine (List.map_congr_left fun r hr => ?_).trans (List.map_id _)
    obtain ⟨r', -, rfl⟩ := List.mem_map.1 ((sortBy_perm _ _).subset hr)
    exact canonicalizeRelation_canonicalizeRelation r'
  simp only [canonicalizeContents, sortBy_sortBy, hrelations]

theorem inRange_canonicalizeContents {contents : CatalogContents} (h : contents.InRange) :
    (canonicalizeContents contents).InRange := by
  intro r hr
  obtain ⟨r', hr', rfl⟩ := List.mem_map.1 ((sortBy_perm _ _).subset hr)
  have hcolumns : ∀ c ∈ sortBy columnKey r'.columns, c.InRange := fun c hc =>
    (h r' hr').columns c ((sortBy_perm _ _).subset hc)
  exact ⟨(h r' hr').rowEstimate, hcolumns⟩

/-- The same relation up to the order of its lists. -/
structure ReorderedRelation (a b : Relation) : Prop extends SameRelation a b where
  rowEstimate : a.rowEstimate = b.rowEstimate

/-- The relation of a payload, with a row estimate. -/
def RelationFingerprintPayload.relation (payload : RelationFingerprintPayload)
    (rowEstimate : Option ℤ) : Relation where
  object := payload.object
  comment := payload.comment
  rowEstimate := rowEstimate
  partitionParent := payload.partitionParent
  partitionChildren := payload.partitionChildren
  columns := payload.columns
  constraints := payload.constraints
  indexes := payload.indexes

theorem relation_relationFingerprintPayload (r : Relation) :
    (relationFingerprintPayload r).relation r.rowEstimate = r := rfl

theorem canonicalizeRelation_eq_iff {a b : Relation} :
    canonicalizeRelation a = canonicalizeRelation b ↔ ReorderedRelation a b := by
  constructor
  · intro h
    refine ⟨payload_canonicalizeRelation.1 (congrArg relationFingerprintPayload h), ?_⟩
    have hestimate : (canonicalizeRelation a).rowEstimate = (canonicalizeRelation b).rowEstimate :=
      congrArg Relation.rowEstimate h
    exact hestimate
  · rintro ⟨hsame, hestimate⟩
    rw [← relation_relationFingerprintPayload (canonicalizeRelation a),
      payload_canonicalizeRelation.2 hsame]
    exact congrArg (relationFingerprintPayload (canonicalizeRelation b)).relation hestimate

/-- The same contents, in any order. -/
structure Reordered (a b : CatalogContents) : Prop where
  namespaces : a.namespaces.Perm b.namespaces
  relations : ∃ l, a.relations.Perm l ∧ List.Forall₂ ReorderedRelation l b.relations
  routines : a.routines.Perm b.routines
  otherObjects : a.otherObjects.Perm b.otherObjects

theorem Reordered.sameContents {a b : CatalogContents} (h : Reordered a b) : SameContents a b where
  namespaces := h.namespaces
  relations := by
    obtain ⟨l, hperm, hforall⟩ := h.relations
    exact ⟨l, hperm, hforall.imp fun _ _ h => h.toSameRelation⟩
  routines := h.routines
  otherObjects := h.otherObjects

/-- The canonical relations of contents in another order are the same ones. -/
theorem Reordered.perm {a b : CatalogContents} (h : Reordered a b) :
    (a.relations.map canonicalizeRelation).Perm (b.relations.map canonicalizeRelation) := by
  obtain ⟨l, hperm, hforall⟩ := h.relations
  exact map_perm_map_iff.2 ⟨l, hperm, hforall.imp fun _ _ h => canonicalizeRelation_eq_iff.2 h⟩

/-- The row estimates of the relations of one payload, as they are given. -/
def rowEstimates (payload : RelationFingerprintPayload) (relations : List Relation) :
    List (Option ℤ) :=
  (relations.filter fun r =>
    relationFingerprintPayload (canonicalizeRelation r) = payload).map (·.rowEstimate)

/-- The relations of one payload are told apart by their row estimates. -/
theorem filter_payload (payload : RelationFingerprintPayload) (relations : List Relation) :
    (relations.map canonicalizeRelation).filter
        (fun r => relationFingerprintPayload r = payload) =
      (rowEstimates payload relations).map payload.relation := by
  rw [List.filter_map, rowEstimates, List.map_map]
  refine List.map_congr_left fun r hr => ?_
  have hpayload : relationFingerprintPayload (canonicalizeRelation r) = payload := by
    simpa using (List.mem_filter.1 hr).2
  rw [← hpayload]
  rfl

/-- The canonical relations are the same when those of one payload are given in the same order. -/
theorem canonical_relations_eq_iff {a b : List Relation} :
    sortBy relationKey (a.map canonicalizeRelation) =
        sortBy relationKey (b.map canonicalizeRelation) ↔
      ∀ payload, rowEstimates payload a = rowEstimates payload b := by
  have hinjective : ∀ payload : RelationFingerprintPayload,
      Function.Injective payload.relation := by
    intro payload m n h
    exact congrArg Relation.rowEstimate h
  -- A key is the one of a payload, or of no relation.
  let payloadKey := objectKey RelationFingerprintPayload.object
    RelationFingerprintPayload.serializer
  have hfilter : ∀ (payload : RelationFingerprintPayload) (l : List Relation),
      (l.map canonicalizeRelation).filter (fun r => relationKey r = payloadKey payload) =
        (rowEstimates payload l).map payload.relation := by
    intro payload l
    rw [← filter_payload]
    simp only [relationKey_eq, payloadKey, (objectKey_injective _ _).eq_iff]
  rw [sortBy_eq_iff_filter]
  constructor
  · intro h payload
    have hsame := h (payloadKey payload)
    rw [hfilter, hfilter] at hsame
    exact List.map_injective_iff.2 (hinjective payload) hsame
  · intro h k
    by_cases hk : ∃ payload, payloadKey payload = k
    · obtain ⟨payload, rfl⟩ := hk
      rw [hfilter, hfilter, h payload]
    · have hnone : ∀ l : List Relation, l.filter (fun r => relationKey r = k) = [] := by
        intro l
        refine List.filter_eq_nil_iff.2 fun r _ hr => hk ⟨relationFingerprintPayload r, ?_⟩
        exact (relationKey_eq r).symm.trans (of_decide_eq_true hr)
      rw [hnone, hnone]

/-! ### Fingerprints, across engines -/

theorem fingerprintText_canonical_eq_iff {engine engine' : DatabaseEngine}
    {a b : CatalogContents} :
    fingerprintText engine (canonicalizeContents a) =
      fingerprintText engine' (canonicalizeContents b) ↔ engine = engine' ∧ SameContents a b := by
  constructor
  · intro h
    have hpayload := CatalogFingerprintPayload.serializer.toVec_injective h
    obtain rfl : engine = engine' := congrArg CatalogFingerprintPayload.engine hpayload
    exact ⟨rfl, fingerprintText_canonical_iff.1 h⟩
  · rintro ⟨rfl, hsame⟩
    exact fingerprintText_canonical_iff.2 hsame

theorem catalogFingerprint_eq_iff {sha256 : List UInt8 → Vector UInt8 32}
    {engine engine' : DatabaseEngine} {a b : CatalogContents} :
    catalogFingerprint sha256 engine a = catalogFingerprint sha256 engine' b ↔
      sha256 (fingerprintText engine a) = sha256 (fingerprintText engine' b) := by
  rw [catalogFingerprint, catalogFingerprint, String.ofList_inj, TextCode.hex_injective.eq_iff,
    Vector.toList_inj]

namespace CatalogSnapshot

section Travels

variable {sha256 : List UInt8 → Vector UInt8 32} {connectionId : Uuid} {engine : DatabaseEngine}
  {database fingerprint : String} {capturedAt : DateTime} {contents : CatalogContents}
  {snapshot : CatalogSnapshot}

theorem validateShape_eq_ok_iff : snapshot.validateShape = .ok () ↔
    snapshot.schemaVersion = catalogSchemaVersion ∧ isBlank snapshot.database = false ∧
      validFingerprint snapshot.fingerprint = true := by
  unfold validateShape
  split_ifs with hversion hblank hvalid <;> simp_all

theorem validate_eq_ok_iff : snapshot.validate sha256 = .ok () ↔
    snapshot.schemaVersion = catalogSchemaVersion ∧ isBlank snapshot.database = false ∧
      snapshot.fingerprint = snapshot.canonicalFingerprint sha256 := by
  have hmatch : (if snapshot.fingerprint ≠ snapshot.canonicalFingerprint sha256 then
      throw .fingerprintMismatch else pure PUnit.unit : Except CatalogValidationError Unit) =
      .ok () ↔ snapshot.fingerprint = snapshot.canonicalFingerprint sha256 := by
    by_cases hsame : snapshot.fingerprint = snapshot.canonicalFingerprint sha256
    · rw [if_neg (not_not.2 hsame)]
      exact ⟨fun _ => hsame, fun _ => rfl⟩
    · rw [if_pos hsame, Except.throw_eq_ok]
      exact ⟨False.elim, hsame⟩
  rw [validate, Except.bind_eq_ok]
  constructor
  · rintro ⟨⟨⟩, hshape, hsame⟩
    obtain ⟨hversion, hblank, -⟩ := validateShape_eq_ok_iff.1 hshape
    exact ⟨hversion, hblank, hmatch.1 hsame⟩
  · rintro ⟨hversion, hblank, hsame⟩
    -- A fingerprint that is the digest of the contents has the shape of one.
    have hvalid : validFingerprint snapshot.fingerprint = true := by
      rw [hsame]
      exact validFingerprint_catalogFingerprint _ _
    exact ⟨(), validateShape_eq_ok_iff.2 ⟨hversion, hblank, hvalid⟩, hmatch.2 hsame⟩

/-- What `new` accepts, and what it makes of it. -/
theorem new_eq_ok_iff :
    new sha256 connectionId engine database capturedAt fingerprint contents = .ok snapshot ↔
      isBlank database = false ∧
      fingerprint = catalogFingerprint sha256 engine (canonicalizeContents contents) ∧
      snapshot = fromCanonicalParts connectionId engine database capturedAt fingerprint
        (canonicalizeContents contents) := by
  have hcanonical : (fromCanonicalParts connectionId engine database capturedAt fingerprint
      (canonicalizeContents contents)).canonicalFingerprint sha256 =
        catalogFingerprint sha256 engine (canonicalizeContents contents) :=
    congrArg (catalogFingerprint sha256 engine) (canonicalizeContents_canonicalizeContents _)
  rw [new, Except.bind_eq_ok]
  constructor
  · rintro ⟨⟨⟩, hvalid, hsnapshot⟩
    obtain ⟨-, hblank, hsame⟩ := validate_eq_ok_iff.1 hvalid
    exact ⟨hblank, hsame.trans hcanonical, (Except.ok.inj hsnapshot).symm⟩
  · rintro ⟨hblank, hsame, rfl⟩
    exact ⟨(), validate_eq_ok_iff.2 ⟨rfl, hblank, hsame.trans hcanonical.symm⟩, rfl⟩

/-- The wire was changed under a snapshot: what the fingerprint covers, or the fingerprint. -/
def Changed (snapshot : CatalogSnapshot) (wire : WireCatalogSnapshot) : Prop :=
  (wire.fingerprint = snapshot.fingerprint ∧
    ¬ (wire.engine = snapshot.engine ∧ SameContents wire.contents snapshot.contents)) ∨
  (wire.fingerprint ≠ snapshot.fingerprint ∧
    wire.engine = snapshot.engine ∧ SameContents wire.contents snapshot.contents)

/-- Two lists of relations that differ at most in the order of relations of one payload. -/
structure SameUpToTies (a b : List Relation) : Prop where
  perm : a.Perm b
  payloads : a.map relationFingerprintPayload = b.map relationFingerprintPayload

theorem fromSlice_eq {x : Serde} {parseDateTime : String → Option DateTime}
    {bytes : List UInt8} {wire : WireCatalogSnapshot}
    (hwire : readWire x parseDateTime bytes = .ok wire) :
    fromSlice sha256 x parseDateTime bytes = (ofWire sha256 wire).mapError .invalid := by
  rw [fromSlice, hwire]
  rfl

/-- A captured snapshot is accepted when it is read. -/
theorem ofWire_capture (hcapture : capture sha256 connectionId engine database capturedAt contents =
    .ok snapshot) : ofWire sha256 ⟨snapshot.schemaVersion, snapshot.connectionId, snapshot.engine,
      snapshot.database, snapshot.capturedAt, snapshot.fingerprint, snapshot.namespaces,
      snapshot.relations, snapshot.routines, snapshot.otherObjects⟩ = .ok snapshot := by
  obtain ⟨rfl, hblank⟩ := of_capture_eq_ok hcapture
  have hcanonical := canonicalizeContents_canonicalizeContents contents
  refine (if_neg (not_not.2 rfl)).trans (new_eq_ok_iff.2 ⟨hblank, ?_, ?_⟩)
  · exact (congrArg (catalogFingerprint sha256 engine) hcanonical).symm
  · exact congrArg (fromCanonicalParts connectionId engine database capturedAt
      (catalogFingerprint sha256 engine (canonicalizeContents contents))) hcanonical.symm

/-- A snapshot that was changed is refused, as far as the hash keeps the contents apart. -/
theorem ofWire_changed (hcapture : capture sha256 connectionId engine database capturedAt contents =
      .ok snapshot) {wire : WireCatalogSnapshot} (hchanged : Changed snapshot wire)
    (hsha256 : Set.InjOn sha256 {fingerprintText engine (canonicalizeContents contents),
      fingerprintText wire.engine (canonicalizeContents wire.contents)})
    (snapshot' : CatalogSnapshot) : ofWire sha256 wire ≠ .ok snapshot' := by
  intro hread
  obtain ⟨rfl, -⟩ := of_capture_eq_ok hcapture
  have hnew : new sha256 wire.connectionId wire.engine wire.database wire.capturedAt
      wire.fingerprint wire.contents = .ok snapshot' := by
    unfold ofWire at hread
    split_ifs at hread
    exact hread
  obtain ⟨-, hfingerprint, -⟩ := new_eq_ok_iff.1 hnew
  have hcovered : fingerprintText wire.engine (canonicalizeContents wire.contents) =
      fingerprintText engine (canonicalizeContents contents) ↔
        wire.engine = engine ∧ SameContents wire.contents (canonicalizeContents contents) := by
    have h : fingerprintText wire.engine (canonicalizeContents wire.contents) =
        fingerprintText engine (canonicalizeContents (canonicalizeContents contents)) ↔
          wire.engine = engine ∧ SameContents wire.contents (canonicalizeContents contents) :=
      fingerprintText_canonical_eq_iff
    rwa [canonicalizeContents_canonicalizeContents] at h
  rcases hchanged with ⟨hsame, hother⟩ | ⟨hother, hsame⟩
  · have hdigest := catalogFingerprint_eq_iff.1 (hfingerprint.symm.trans hsame)
    exact hother (hcovered.1 (hsha256 (by simp) (by simp) hdigest))
  · refine hother (hfingerprint.trans (catalogFingerprint_eq_iff.2 ?_))
    rw [hcovered.2 hsame]

/-- What `new` makes of the contents of a capture in another order. -/
theorem new_reordered (hcapture : capture sha256 connectionId engine database capturedAt contents =
      .ok snapshot) {reordered : CatalogContents} (h : Reordered reordered contents)
    (connectionId' : Uuid) (database' : String) (hdatabase' : isBlank database' = false)
    (capturedAt' : DateTime) : ∃ snapshot',
      new sha256 connectionId' engine database' capturedAt' snapshot.fingerprint reordered =
        .ok snapshot' ∧
      snapshot'.namespaces = snapshot.namespaces ∧ snapshot'.routines = snapshot.routines ∧
      snapshot'.otherObjects = snapshot.otherObjects ∧
      SameUpToTies snapshot'.relations snapshot.relations ∧
      (snapshot'.relations = snapshot.relations ↔
        ∀ payload, rowEstimates payload reordered.relations =
          rowEstimates payload contents.relations) := by
  obtain ⟨rfl, -⟩ := of_capture_eq_ok hcapture
  have hsame := h.sameContents
  have hfingerprint : catalogFingerprint sha256 engine (canonicalizeContents contents) =
      catalogFingerprint sha256 engine (canonicalizeContents reordered) :=
    catalogFingerprint_inj.2 (congrArg sha256 (fingerprintText_canonical_iff.2 hsame).symm)
  refine ⟨_, new_eq_ok_iff.2 ⟨hdatabase', hfingerprint, rfl⟩, ?_, ?_, ?_, ⟨?_, ?_⟩,
    canonical_relations_eq_iff⟩
  · exact (sortBy_eq_iff namespaceKey_injective).2 h.namespaces
  · exact (sortBy_eq_iff (objectKey_injective _ _)).2 h.routines
  · exact (sortBy_eq_iff (objectKey_injective _ _)).2 h.otherObjects
  · exact ((sortBy_perm _ _).trans h.perm).trans (sortBy_perm _ _).symm
  · exact payloads_canonical_relations.2 hsame.relations

/-- **A captured snapshot travels.** It is read back from its text as it was; canonical contents
stay as they are; `new` takes the contents in any order and gives the same lists, up to relations
that differ in their row estimates only; and a snapshot under which something was changed is
refused. -/
theorem snapshot_travels (sha256 : List UInt8 → Vector UInt8 32) (x : Serde) (hx : x.RoundTrips)
    (parseDateTime : String → Option DateTime) (connectionId : Uuid) (engine : DatabaseEngine)
    (database : String) (capturedAt : DateTime) (contents : CatalogContents)
    (hrange : contents.InRange) (hdatabase : isBlank database = false)
    (hcaptured : parseDateTime capturedAt.wireText = some capturedAt) : ∃ snapshot,
      capture sha256 connectionId engine database capturedAt contents = .ok snapshot ∧
      fromSlice sha256 x parseDateTime (x.text (serializer.toValue snapshot)) = .ok snapshot ∧
      canonicalizeContents (canonicalizeContents contents) = canonicalizeContents contents ∧
      (∀ reordered, Reordered reordered contents → ∀ connectionId' database' capturedAt',
        isBlank database' = false → ∃ snapshot',
          new sha256 connectionId' engine database' capturedAt' snapshot.fingerprint reordered =
            .ok snapshot' ∧
          snapshot'.namespaces = snapshot.namespaces ∧ snapshot'.routines = snapshot.routines ∧
          snapshot'.otherObjects = snapshot.otherObjects ∧
          SameUpToTies snapshot'.relations snapshot.relations ∧
          (snapshot'.relations = snapshot.relations ↔
            ∀ payload, rowEstimates payload reordered.relations =
              rowEstimates payload contents.relations)) ∧
      ∀ bytes wire, readWire x parseDateTime bytes = .ok wire → Changed snapshot wire →
        Set.InjOn sha256 {fingerprintText engine (canonicalizeContents contents),
          fingerprintText wire.engine (canonicalizeContents wire.contents)} →
        ∀ snapshot', fromSlice sha256 x parseDateTime bytes ≠ .ok snapshot' := by
  have hcapture : capture sha256 connectionId engine database capturedAt contents = _ :=
    (capture_eq connectionId engine database capturedAt contents).trans
      (if_neg (by simp [hdatabase]))
  refine ⟨_, hcapture, ?_, canonicalizeContents_canonicalizeContents contents, ?_, ?_⟩
  · have hwire := readWire_text hx (fromCanonicalParts connectionId engine database capturedAt
      (catalogFingerprint sha256 engine (canonicalizeContents contents))
      (canonicalizeContents contents)) rfl hcaptured (inRange_canonicalizeContents hrange)
    rw [fromSlice_eq hwire, ofWire_capture hcapture]
    rfl
  · exact fun reordered h connectionId' database' capturedAt' hdatabase' =>
      new_reordered hcapture h connectionId' database' hdatabase' capturedAt'
  · intro bytes wire hwire hchanged hsha256 snapshot' hread
    rw [fromSlice_eq hwire] at hread
    cases hof : ofWire sha256 wire with
    | error e =>
      rw [hof] at hread
      cases hread
    | ok snapshot'' => exact ofWire_changed hcapture hchanged hsha256 _ hof

/-- Two relations of one name, which nothing orders. -/
theorem snapshot_travels_duplicate : ∃ snapshot,
    capture Sha256.sha256 (.ofByte 1) .postgres "app" (.ofDay 1)
      ⟨[], [sampleRelation "alpha" 1, sampleRelation "alpha" 2], [], []⟩ = .ok snapshot ∧
    fromSlice Sha256.sha256 compact (Function.partialInv DateTime.wireText)
      (compact.text (serializer.toValue snapshot)) = .ok snapshot := by
  have hrange : CatalogContents.InRange
      ⟨[], [sampleRelation "alpha" 1, sampleRelation "alpha" 2], [], []⟩ := by
    have hrelation : ∀ n : ℤ, -(2 : ℤ) ^ 63 ≤ n ∧ n < 2 ^ 63 →
        (sampleRelation "alpha" n).InRange := by
      refine fun n hn => ⟨fun m hm => ?_, fun c hc => ?_⟩
      · obtain rfl : n = m := Option.some.inj hm
        exact hn
      · obtain rfl := List.mem_singleton.1 hc
        exact ⟨by decide, by simp, by simp, by simp⟩
    intro r hr
    rcases List.mem_pair.1 hr with rfl | rfl
    · exact hrelation 1 (by norm_num)
    · exact hrelation 2 (by norm_num)
  obtain ⟨snapshot, hcapture, hread, -⟩ := snapshot_travels Sha256.sha256 compact
    compact_roundTrips (Function.partialInv DateTime.wireText) (.ofByte 1) .postgres "app"
    (.ofDay 1) ⟨[], [sampleRelation "alpha" 1, sampleRelation "alpha" 2], [], []⟩ hrange
    (by decide) (Function.partialInv_left DateTime.wireText_injective _)
  exact ⟨snapshot, hcapture, hread⟩

/-- Given in the other order they stay in it. -/
theorem new_keeps_order_of_ties : ∃ snapshot snapshot',
    capture Sha256.sha256 (.ofByte 1) .postgres "app" (.ofDay 1)
      ⟨[], [sampleRelation "alpha" 1, sampleRelation "alpha" 2], [], []⟩ = .ok snapshot ∧
    new Sha256.sha256 (.ofByte 1) .postgres "app" (.ofDay 1) snapshot.fingerprint
      ⟨[], [sampleRelation "alpha" 2, sampleRelation "alpha" 1], [], []⟩ = .ok snapshot' ∧
    snapshot'.relations ≠ snapshot.relations := by
  have hcapture := fun contents =>
    (@capture_eq Sha256.sha256 (.ofByte 1) .postgres "app" (.ofDay 1) contents).trans
      (if_neg (by decide))
  have hreordered : Reordered ⟨[], [sampleRelation "alpha" 2, sampleRelation "alpha" 1], [], []⟩
      ⟨[], [sampleRelation "alpha" 1, sampleRelation "alpha" 2], [], []⟩ := by
    have hrelation : ∀ r, ReorderedRelation r r := fun r => ⟨.refl r, rfl⟩
    exact ⟨.refl _, ⟨_, .swap _ _ _, .cons (hrelation _) (.cons (hrelation _) .nil)⟩, .refl _,
      .refl _⟩
  obtain ⟨snapshot', hnew, -, -, -, -, hsame⟩ := new_reordered (hcapture _) hreordered
    (.ofByte 1) "app" (by decide) (.ofDay 1)
  refine ⟨_, snapshot', hcapture _, hnew, fun h => ?_⟩
  let payload := relationFingerprintPayload (canonicalizeRelation (sampleRelation "alpha" 1))
  have hpayload : ∀ n,
      relationFingerprintPayload (canonicalizeRelation (sampleRelation "alpha" n)) = payload :=
    fun _ => rfl
  have hestimates : ∀ m n : ℤ, rowEstimates payload
      [sampleRelation "alpha" m, sampleRelation "alpha" n] = [some m, some n] := by
    intro m n
    rw [rowEstimates, List.filter_eq_self.2 (by simp [hpayload])]
    rfl
  have hties := hsame.1 h payload
  rw [hestimates, hestimates] at hties
  cases hties

end Travels

end CatalogSnapshot

end Protocol
end AgentDb
