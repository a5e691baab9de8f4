import AgentDb.Operations.Sample
import AgentDb.Services.DocumentService
import AgentDb.Services.ScopeGateRun

/-!
# What a document query is when it runs

Between the proposal and the run a query is stored as canonical JSON, so it comes back with its
keys sorted. MongoDB reads a sort specification, an embedded document to compare with and several
stages in the order of their keys: `query_kept_iff` says which queries reach the target as they
were submitted.
-/

namespace AgentDb
namespace Services
namespace Document

open Json Mongo Operations Safety ScopeGate Store

/-- Two values that print alike are one value. -/
def PrintsApart (x : Crates) : Prop :=
  ∀ v w : Value, v.NoFloat → w.NoFloat → x.toString v = x.toString w → v = w

/-- The operation is planned under a fresh id in an untampered store, and the record is what is
read of it at some later time. -/
def PlannedAndRead (x : Crates) (operation : NewOperation) (record : OperationRecord) : Prop :=
  ∃ (before later : List Operations.Call) (runtimeId eventId : Uuid) (createdAt : DateTime)
    (op : OperationRecord),
    (∀ row ∈ (Operations.run x before).operations, row.id ≠ operation.id ∧
      row.idempotencyKey ≠ operation.idempotencyKey) ∧
    (insertPlanned x runtimeId operation createdAt eventId (Operations.run x before)).1 = .ok op ∧
    (runFrom x (insertPlanned x runtimeId operation createdAt eventId
      (Operations.run x before)).2 later).get x operation.id = .ok record

section

variable {x : Crates} {debug : String → String}

theorem payload_of_plannedAndRead (hx : x.ReadsTrue) {operation : NewOperation}
    {record : OperationRecord} (hfloat : operation.payload.NoFloat)
    (h : PlannedAndRead x operation record) :
    record.payload = canonicalValue operation.payload := by
  obtain ⟨before, later, runtimeId, eventId, createdAt, op, hfresh, hplan, hget⟩ := h
  have hids : (Operations.run x before).UniqueIds :=
    (Sound.run (D := fun _ => True) (fun _ _ => trivial) before fun c _ => by
      cases c <;> trivial).ids
  exact payload_of_get hx hids hfloat hfresh hplan later hget

theorem noFloat_nullable {v : Option Value} (h : ∀ w ∈ v.toList, w.NoFloat) :
    (nullable v).NoFloat := by
  cases v with
  | none => exact .null
  | some v => exact h v (List.mem_singleton_self v)

theorem noFloat_number (n : Option ℕ) :
    (nullable (n.map fun n => .number (.int n))).NoFloat := by
  cases n with
  | none => exact .null
  | some n => exact .int n

theorem noFloat_queryValue {q : DocumentQuery} (h : ∀ v ∈ parts q, v.NoFloat) :
    (queryValue q).NoFloat := by
  refine .object fun e he => ?_
  cases q with
  | find collection filter projection sort skip limit =>
    simp only [parts, List.mem_append, or_imp, forall_and] at h
    simp only [queryEntries, List.mem_cons, List.not_mem_nil, or_false] at he
    rcases he with rfl | rfl | rfl | rfl | rfl | rfl | rfl
    · exact .string _
    · exact .string _
    · exact noFloat_nullable h.1.1
    · exact noFloat_nullable h.1.2
    · exact noFloat_nullable h.2
    · exact noFloat_number skip
    · exact noFloat_number limit
  | aggregate collection pipeline =>
    simp only [queryEntries, List.mem_cons, List.not_mem_nil, or_false] at he
    rcases he with rfl | rfl | rfl
    · exact .string _
    · exact .string _
    · exact .array h
  | count collection filter =>
    simp only [queryEntries, List.mem_cons, List.not_mem_nil, or_false] at he
    rcases he with rfl | rfl | rfl
    · exact .string _
    · exact .string _
    · exact noFloat_nullable h

theorem noFloat_desktopPayload {p : StoredDesktopDocumentPayload}
    (h : ∀ v ∈ parts p.query, v.NoFloat) : p.toValue.NoFloat := by
  refine .object fun e he => ?_
  simp only [List.mem_cons, List.not_mem_nil, or_false] at he
  rcases he with rfl | rfl
  · exact noFloat_queryValue h
  · exact .string _

theorem noFloat_agentPayload {p : StoredAgentDocumentPayload}
    (h : ∀ v ∈ parts p.query, v.NoFloat) : p.toValue.NoFloat := by
  refine .object fun e he => ?_
  simp only [List.mem_cons, List.not_mem_nil, or_false] at he
  rcases he with rfl | rfl | rfl | rfl
  · exact noFloat_queryValue h
  · exact .string _
  · exact .int _
  · exact .string _

/-- What `run_desktop_read` hands on is the query of its payload. -/
theorem payload_of_runDesktopRead {planned : OperationRecord} {pin : PinnedConnection}
    {settings : SafetySettings} {claimed connected backend : AppResult Unit} {q : DocumentQuery}
    {n : ℕ}
    (h : runDesktopRead x debug planned pin settings claimed connected backend = .ok (q, n)) :
    ∃ payload, StoredDesktopDocumentPayload.fromValue planned.payload = .ok payload ∧
      q = payload.query := by
  unfold runDesktopRead at h
  obtain ⟨_, -, h⟩ := Except.bind_eq_ok.1 h
  obtain ⟨payload, hpayload, h⟩ := Except.bind_eq_ok.1 h
  obtain ⟨_, -, h⟩ := Except.bind_eq_ok.1 h
  obtain ⟨_, -, h⟩ := Except.bind_eq_ok.1 h
  obtain ⟨_, -, h⟩ := Except.bind_eq_ok.1 h
  refine ⟨payload, hpayload, ?_⟩
  split at h
  · cases h
  · obtain ⟨_, -, h⟩ := Except.bind_eq_ok.1 h
    obtain ⟨_, -, h⟩ := Except.bind_eq_ok.1 h
    obtain ⟨_, -, h⟩ := Except.bind_eq_ok.1 h
    exact (Prod.mk.inj (Except.ok.inj h)).1.symm

theorem payload_of_proposeDesktopRead {pin : PinnedConnection} {settings : SafetySettings}
    {q : DocumentQuery} {origin : Option String} {id : Uuid} {expiresAt : DateTime}
    {operation : NewOperation}
    (h : proposeDesktopRead x debug pin settings q origin id expiresAt = .ok operation) :
    operation.payload = StoredDesktopDocumentPayload.toValue ⟨q, origin.getD "manual"⟩ := by
  unfold proposeDesktopRead at h
  obtain ⟨_, -, h⟩ := Except.bind_eq_ok.1 h
  obtain ⟨_, -, h⟩ := Except.bind_eq_ok.1 h
  dsimp only at h
  split at h
  · cases h
  · obtain rfl := Except.ok.inj h
    rfl

/-- A query that is let through is proposed. -/
theorem proposeDesktopRead_of_open {pin : PinnedConnection} {settings : SafetySettings}
    {q : DocumentQuery} {origin : Option String} {id : Uuid} {expiresAt : DateTime}
    (hengine : pin.profile.engine.isDocument = true)
    (hrole : pin.profile.workspaceAccess.canRead = true)
    (hopen : desktopBlockedReason settings (classify debug q) = none) :
    proposeDesktopRead x debug pin settings q origin id expiresAt =
      .ok (newDocumentRead x pin settings (actorForPin pin (origin.getD "manual"))
        (StoredDesktopDocumentPayload.toValue ⟨q, origin.getD "manual"⟩) (classify debug q) id
        expiresAt) := by
  unfold proposeDesktopRead
  simp only [Except.bind_eq_ok, refuseIf_eq_ok]
  refine ⟨(), by simp [hengine], (), by simp [hrole], ?_⟩
  rw [hopen]
  rfl

/-- A query that only reads is planned for an agent. -/
theorem planAgentRead_of_read {pin : PinnedConnection} {settings : SafetySettings}
    {request : AgentDocumentReadRequest} {id : Uuid} {expiresAt : DateTime}
    (hengine : pin.profile.engine.isDocument = true)
    (hread : (classify debug request.query).kind = .read) :
    planAgentRead x debug pin settings request id expiresAt =
      .ok (newDocumentRead x pin settings
        (agentActorForPin pin request.origin.asStr request.origin.asStr)
        (StoredAgentDocumentPayload.toValue ⟨request.query, request.queryText,
          boundedAgentRows request.maxRows settings.maxRows, request.origin⟩)
        (classify debug request.query) id expiresAt) := by
  unfold planAgentRead
  simp only [Except.bind_eq_ok, refuseIf_eq_ok]
  exact ⟨(), by simp [hengine], (), by simp [hread], rfl⟩

theorem payload_of_planAgentRead {pin : PinnedConnection} {settings : SafetySettings}
    {request : AgentDocumentReadRequest} {id : Uuid} {expiresAt : DateTime}
    {operation : NewOperation}
    (h : planAgentRead x debug pin settings request id expiresAt = .ok operation) :
    operation.payload = StoredAgentDocumentPayload.toValue ⟨request.query, request.queryText,
      boundedAgentRows request.maxRows settings.maxRows, request.origin⟩ := by
  unfold planAgentRead at h
  obtain ⟨_, -, h⟩ := Except.bind_eq_ok.1 h
  obtain ⟨_, -, h⟩ := Except.bind_eq_ok.1 h
  obtain rfl := Except.ok.inj h
  rfl

/-- The desktop hands on the canonical form of what was proposed. -/
theorem handed_desktop (hx : x.ReadsTrue) {q q' : DocumentQuery}
    (hfloat : ∀ v ∈ parts q, v.NoFloat) (hrange : InRange q) {n : ℕ} {origin : Option String}
    {pin pin' : PinnedConnection} {settings settings' : SafetySettings} {id : Uuid}
    {expiresAt : DateTime} {operation : NewOperation} {planned : OperationRecord}
    {claimed connected backend : AppResult Unit}
    (hpropose : proposeDesktopRead x debug pin settings q origin id expiresAt = .ok operation)
    (hread : PlannedAndRead x operation planned)
    (hrun : runDesktopRead x debug planned pin' settings' claimed connected backend =
      .ok (q', n)) : q' = canonicalQuery q := by
  have hpayload := payload_of_proposeDesktopRead hpropose
  have hplanned := payload_of_plannedAndRead hx (hpayload ▸ noFloat_desktopPayload hfloat) hread
  obtain ⟨payload, hfrom, rfl⟩ := payload_of_runDesktopRead hrun
  rw [hplanned, hpayload, fromValue_desktopPayload hrange] at hfrom
  rw [← Except.ok.inj hfrom]

/-- The agent service reads the canonical form of what was requested, beside the text it was
requested with. -/
theorem read_agent (hx : x.ReadsTrue) {q : DocumentQuery} (hfloat : ∀ v ∈ parts q, v.NoFloat)
    (hrange : InRange q) {maxRows : Option ℕ} {origin : AgentQueryInvocationOrigin}
    {pin : PinnedConnection} {settings : SafetySettings} {id : Uuid} {expiresAt : DateTime}
    {operation : NewOperation} {record : OperationRecord}
    (hplan : planAgentRead x debug pin settings (.tryNew x q maxRows origin) id expiresAt =
      .ok operation) (hread : PlannedAndRead x operation record) :
    StoredAgentDocumentPayload.fromValue record.payload = .ok ⟨canonicalQuery q,
      x.toString (queryValue q), boundedAgentRows maxRows settings.maxRows, origin⟩ := by
  have hpayload := payload_of_planAgentRead hplan
  have hplanned := payload_of_plannedAndRead hx (hpayload ▸ noFloat_agentPayload hfloat) hread
  have hrows : boundedAgentRows maxRows settings.maxRows < 2 ^ 64 :=
    lt_of_le_of_lt (Nat.min_le_right _ _) (by decide)
  rw [hplanned, hpayload]
  exact fromValue_agentPayload hrange hrows

theorem noFloat_canonicalQuery {q : DocumentQuery} (h : ∀ v ∈ parts q, v.NoFloat) :
    ∀ v ∈ parts (canonicalQuery q), v.NoFloat := by
  have hback : ∀ v : Option Value, (∀ w ∈ v.toList, w.NoFloat) →
      ∀ w ∈ (readBack v).toList, w.NoFloat := by
    intro v hv w hw
    cases v with
    | none => cases hw
    | some v =>
      have hcanonical := noFloat_canonicalValue (hv v (List.mem_singleton_self v))
      cases v with
      | null => cases hw
      | _ => exact List.mem_singleton.1 hw ▸ hcanonical
  cases q with
  | find collection filter projection sort skip limit =>
    simp only [parts, canonicalQuery, List.mem_append, or_imp, forall_and] at h ⊢
    exact ⟨⟨hback filter h.1.1, hback projection h.1.2⟩, hback sort h.2⟩
  | aggregate collection pipeline =>
    intro w hw
    obtain ⟨v, hv, rfl⟩ := List.mem_map.1 hw
    exact noFloat_canonicalValue (h v hv)
  | count collection filter => exact hback filter h

/-- The text of a query is that of what is read back of it exactly when its keys are sorted. -/
theorem queryText_kept_iff (hprint : PrintsApart x) {q : DocumentQuery}
    (hfloat : ∀ v ∈ parts q, v.NoFloat) :
    x.toString (queryValue (canonicalQuery q)) = x.toString (queryValue q) ↔ KeysSorted q := by
  refine Iff.trans ⟨fun h => ?_, fun h => by rw [h]⟩ (queryValue_canonicalQuery_iff q)
  exact hprint _ _ (noFloat_queryValue (noFloat_canonicalQuery hfloat))
    (noFloat_queryValue hfloat) h

/-- **A query reaches the target as it was submitted exactly when its keys are in ascending order
at every depth** and none of its optional fields is `null`. This holds of every desktop read that
is handed on and of every agent read that is; the agent service ends a claimed read as a mismatch
exactly when the keys are not in that order. -/
theorem query_kept_iff (hx : x.ReadsTrue) (hprint : PrintsApart x) {q : DocumentQuery}
    (hfloat : ∀ v ∈ parts q, v.NoFloat) (hrange : InRange q) :
    (∀ pin settings origin id expiresAt operation planned pin' settings' claimed connected backend
        q' n,
      proposeDesktopRead x debug pin settings q origin id expiresAt = .ok operation →
      PlannedAndRead x operation planned →
      runDesktopRead x debug planned pin' settings' claimed connected backend = .ok (q', n) →
      (q' = q ↔ KeysSorted q ∧ NoNull q)) ∧
    ∀ pin settings maxRows origin id expiresAt operation record claimed connected backend,
      planAgentRead x debug pin settings (.tryNew x q maxRows origin) id expiresAt = .ok operation →
      PlannedAndRead x operation record →
      (runAgentRead x record claimed connected backend = .mismatch ↔
        claimed = .ok () ∧ ¬ KeysSorted q) ∧
      ∀ q' n, runAgentRead x record claimed connected backend = .handed q' n →
        (q' = q ↔ KeysSorted q ∧ NoNull q) := by
  refine ⟨?_, ?_⟩
  · intro pin settings origin id expiresAt operation planned pin' settings' claimed connected
      backend q' n hpropose hread hrun
    rw [handed_desktop hx hfloat hrange hpropose hread hrun]
    exact canonicalQuery_eq_self_iff q
  · intro pin settings maxRows origin id expiresAt operation record claimed connected backend
      hplan hread
    have hpayload := read_agent hx hfloat hrange hplan hread
    have htext := queryText_kept_iff hprint hfloat
    unfold runAgentRead
    rw [hpayload]
    cases claimed with
    | error e => exact ⟨⟨nofun, fun h => nomatch h.1⟩, nofun⟩
    | ok _ =>
      dsimp only
      split
      · rename_i hdiffers
        exact ⟨⟨fun _ => ⟨rfl, fun hsorted => hdiffers (htext.2 hsorted)⟩, fun _ => rfl⟩, nofun⟩
      · rename_i hsame
        have hsorted : KeysSorted q := htext.1 (not_not.1 hsame)
        refine ⟨⟨fun h => ?_, fun h => absurd hsorted h.2⟩, fun q' n h => ?_⟩
        · split at h <;> cases h
        · split at h
          · cases h
          · cases h
          · obtain ⟨rfl, -⟩ := AgentRead.handed.inj h
            exact canonicalQuery_eq_self_iff q

end

/-! ### A query and its sort specification -/

theorem readsTrue_crates : crates.ReadsTrue := by
  intro v w hv h
  have hparse : crates.fromStr (crates.toString (canonicalValue v)) = some (canonicalValue v) :=
    Json.parse_print (noFloat_canonicalValue hv)
  exact (Option.some.inj (hparse.symm.trans h)).symm

theorem printsApart_crates : PrintsApart crates := by
  intro v w hv hw h
  have hsame : Json.print v = Json.print w := h
  rw [← Option.some.injEq, ← Json.parse_print hv, ← Json.parse_print hw, hsame]

/-- The payments connection as a document connection. -/
def documentsPin : PinnedConnection :=
  { paymentsPin with profile := { paymentsProfile with engine := .mongodb } }

def sortedBy (entries : List (String × Value)) : DocumentQuery :=
  .find "items" none none (some (.object entries)) none none

/-- Descending by `a`, then ascending by `b`. -/
def byA : List (String × Value) := [("a", .number (.int (-1))), ("b", .number (.int 1))]

/-- Ascending by `b`, then descending by `a`. -/
def byB : List (String × Value) := [("b", .number (.int 1)), ("a", .number (.int (-1)))]

/-- The desktop read of a query, as it is planned. -/
def desktopRead (q : DocumentQuery) : NewOperation :=
  newDocumentRead crates documentsPin default (actorForPin documentsPin "manual")
    (StoredDesktopDocumentPayload.toValue ⟨q, "manual"⟩) (classify id q) (.ofByte 1) (.ofDay 9)

/-- The agent read of a query, as it is planned. -/
def agentRead (q : DocumentQuery) : NewOperation :=
  newDocumentRead crates documentsPin default (agentActorForPin documentsPin "mcp" "mcp")
    (StoredAgentDocumentPayload.toValue ⟨q, crates.toString (queryValue q), 1000, .mcp⟩)
    (classify id q) (.ofByte 1) (.ofDay 9)

def preparedRead (operation : NewOperation) : PreparedOperation where
  runtimeId := .ofByte 5
  operation
  payload := CanonicalJson.fromValue crates operation.payload
  actorProvenanceJson := canonicalJson crates operation.actor.provenance.toValue
  previewJson := canonicalJson crates operation.preview
  policySnapshotJson := canonicalJson crates operation.policySnapshot

/-- What an operation needs to be planned in an empty store. -/
structure Plannable (operation : NewOperation) : Prop where
  valid : validateNewOperation operation = .ok ()
  payloadSize : (canonicalJson crates operation.payload).utf8ByteSize ≤ maxRequestBytes
  metadataSize : (canonicalJson crates operation.actor.provenance.toValue).utf8ByteSize +
    (canonicalJson crates operation.preview).utf8ByteSize +
    (canonicalJson crates operation.policySnapshot).utf8ByteSize ≤ maxResponseBytes
  payload : operation.payload.NoFloat
  preview : operation.preview.NoFloat
  policy : operation.policySnapshot.NoFloat
  provenance : OperationActorProvenance.fromValue
    (canonicalValue operation.actor.provenance.toValue) = .ok operation.actor.provenance
  checks : operation.actor.id ≠ "" ∧ operation.policyRevision ≠ "" ∧
    operation.idempotencyKey ≠ "" ∧ operation.payloadSchemaVersion ≠ 0 ∧
    operation.schemaFingerprint = none

/-- The record of an operation that was planned in an empty store. -/
def plannedRecord (operation : NewOperation) : OperationRecord :=
  ((preparedRead operation).row (.ofDay 1)).toRecord
    { payload := canonicalValue operation.payload
      actorProvenance := operation.actor.provenance
      preview := canonicalValue operation.preview
      policySnapshot := canonicalValue operation.policySnapshot }

theorem Plannable.new {operation : NewOperation} (h : Plannable operation) :
    PreparedOperation.new crates (.ofByte 5) operation = .ok (preparedRead operation) := by
  simp only [PreparedOperation.new, Except.bind_eq_ok, Except.pure_eq_ok, refuseIf_eq_ok]
  exact ⟨(), h.valid, (), not_lt.2 h.payloadSize, (), not_lt.2 h.metadataSize, rfl⟩

theorem Plannable.plannedAndRead {operation : NewOperation} (h : Plannable operation) :
    PlannedAndRead crates operation (plannedRecord operation) := by
  have hnew := h.new
  have hempty : run crates [] = {} := rfl
  have happ : Appendable crates {} operation.id
      (plannedDetails ((preparedRead operation).row (.ofDay 1))) (.ofByte 11) :=
    ⟨noFloat_of_textObject (textObject_plannedDetails _),
      size_plannedDetails_le (isLowerSha256_digest _), by simp [Tables.eventsOf, maxSequence],
      by intro e he; cases he⟩
  obtain ⟨op, hop⟩ := insertPlanned_succeeds (t := {}) crates_lawful (.empty (D := Value.NoFloat))
    hnew (.ofDay 1) h.payload h.preview h.policy h.provenance h.checks (by intro r hr; cases hr)
    (by intro r hr; cases hr) happ
  have hfresh : ∀ row ∈ (run crates []).operations, row.id ≠ operation.id ∧
      row.idempotencyKey ≠ operation.idempotencyKey := by
    intro row hrow
    cases hrow
  refine ⟨[], [], .ofByte 5, .ofByte 11, .ofDay 1, op, hfresh, by rw [hempty, hop], ?_⟩
  have hstored := storedPayload_prepared crates_lawful.roundTrips hnew (.ofDay 1) h.payload
    h.preview h.policy h.provenance
  have hfound : ∀ row : OperationRow, [row].find? (fun r => r.id = row.id) = some row :=
    fun row => List.find?_cons_of_pos (decide_eq_true rfl)
  have hrow : ∀ t : Tables, t.operations = [(preparedRead operation).row (.ofDay 1)] →
      t.row? operation.id = some ((preparedRead operation).row (.ofDay 1)) := by
    intro t ht
    rw [Tables.row?, ht]
    exact hfound _
  rw [hempty, hop, Tables.get, hrow _ rfl]
  exact rowToOperation_eq_ok.2 ⟨_, hstored, rfl⟩

theorem noFloat_classificationValue (c : Classification) : (classificationValue c).NoFloat := by
  simp only [classificationValue, Value.noFloat_object, Value.noFloat_array, List.forall_mem_cons,
    List.forall_mem_map, List.not_mem_nil, false_imp_iff, implies_true, and_true]
  exact ⟨.string _, .string _, .int _, .bool _, fun t _ => .string t, fun n _ => .string n,
    .bool _⟩

theorem noFloat_capturePolicy (pin : PinnedConnection) (settings : SafetySettings) :
    (capturePolicy x pin settings).snapshot.NoFloat := by
  have henv : ((pin.profile.env.map Value.string).getD .null).NoFloat := by
    cases pin.profile.env with
    | none => exact .null
    | some env => exact .string env
  simp only [capturePolicy, safetyValue, Value.noFloat_object, List.forall_mem_cons,
    List.not_mem_nil, false_imp_iff, implies_true, and_true]
  exact ⟨.string _, .int _, .string _, .int _, .string _, henv,
    ⟨.bool _, .bool _, .bool _, .bool _, .bool _, .int _, .int _⟩, .int _, .string _, .string _⟩

theorem inRange_sortedBy (entries : List (String × Value)) : InRange (sortedBy entries) :=
  ⟨nofun, nofun⟩

theorem noFloat_sortedBy {entries : List (String × Value)} (h : ∀ e ∈ entries, e.2.NoFloat) :
    ∀ v ∈ parts (sortedBy entries), v.NoFloat := by
  intro v hv
  obtain rfl := List.mem_singleton.1 hv
  exact .object h

theorem noFloat_byA : ∀ e ∈ byA, e.2.NoFloat := by
  simp only [byA, List.forall_mem_cons, List.not_mem_nil, false_imp_iff, implies_true, and_true]
  exact ⟨.int _, .int _⟩

theorem noFloat_byB : ∀ e ∈ byB, e.2.NoFloat := by
  simp only [byB, List.forall_mem_cons, List.not_mem_nil, false_imp_iff, implies_true, and_true]
  exact ⟨.int _, .int _⟩

/-- A desktop read whose query is let through is handed on with what is read back of it. -/
theorem run_desktopRead {q : DocumentQuery} (hq : InRange q)
    (hopen : desktopBlockedReason default (classify id (canonicalQuery q)) = none) :
    runDesktopRead crates id (plannedRecord (desktopRead q)) documentsPin default (.ok ()) (.ok ())
      (.ok ()) = .ok (canonicalQuery q, 1000) := by
  have hkind : ¬ ((plannedRecord (desktopRead q)).kind ≠ .documentRead ∨
      (plannedRecord (desktopRead q)).payloadSchemaVersion ≠ 1) := by
    rintro (h | h) <;> exact h rfl
  have hpayload : StoredDesktopDocumentPayload.fromValue (plannedRecord (desktopRead q)).payload =
      .ok ⟨canonicalQuery q, "manual"⟩ := fromValue_desktopPayload hq
  have hscope : ensureOperationScope (plannedRecord (desktopRead q)) documentsPin = .ok () := by
    refine refuseIf_eq_ok.2 ?_
    rintro (h | h | h | h) <;> exact h rfl
  have hrevision : ¬ ((capturePolicy crates documentsPin default).revision ≠
      (plannedRecord (desktopRead q)).policyRevision) := fun h => h rfl
  unfold runDesktopRead
  simp only [Except.bind_eq_ok]
  refine ⟨(), refuseIf_eq_ok.2 hkind, _, hpayload, (), hscope, (), refuseIf_eq_ok.2 fun h => h rfl, (),
    refuseIf_eq_ok.2 hrevision, ?_⟩
  rw [hopen]
  rfl

/-- The revision of a policy is a digest. -/
theorem policyRevision_spec (pin : PinnedConnection) (settings : SafetySettings)
    (actor : OperationActor) (payload : Value) (c : Classification) (id : Uuid)
    (expiresAt : DateTime) :
    isBlank (newDocumentRead x pin settings actor payload c id expiresAt).policyRevision = false ∧
      (newDocumentRead x pin settings actor payload c id expiresAt).policyRevision ≠ "" :=
  not_blank_of_isLowerSha256 (isLowerSha256_canonicalHash (capturePolicy x pin settings).snapshot)

/-- A text of so many characters fits in four bytes for each. -/
theorem size_canonicalJson_le {v : Value} {n : ℕ} (h : (printValue (canonicalValue v)).length ≤ n) :
    (canonicalJson crates v).utf8ByteSize ≤ 4 * n :=
  (length_le_utf8ByteSize_ofList _).2.trans (Nat.mul_le_mul_left 4 h)

theorem size_documentsPolicy :
    (canonicalJson crates (capturePolicy crates documentsPin default).snapshot).utf8ByteSize ≤
      4 * 1000 :=
  size_canonicalJson_le (by decide +kernel)

theorem plannable_newDocumentRead {actor : OperationActor} {payload : Value} {c : Classification}
    (hactor : isBlank actor.id = false ∧ isBlank actor.provenance.originSurface = false)
    (hprovenance : OperationActorProvenance.fromValue
      (canonicalValue actor.provenance.toValue) = .ok actor.provenance) (hpayload : payload.NoFloat)
    (hpayloadSize : (canonicalJson crates payload).utf8ByteSize ≤ maxRequestBytes)
    (hprovenanceSize : (printValue (canonicalValue actor.provenance.toValue)).length ≤ 1000)
    (hpreviewSize : (printValue (canonicalValue (classificationValue c))).length ≤ 1000) :
    Plannable (newDocumentRead crates documentsPin default actor payload c (.ofByte 1)
      (.ofDay 9)) where
  valid := validateNewOperation_ok
    (by decide +kernel : isBlank documentsPin.scope.accountScope.storageKey = false) hactor.1
    hactor.2 (policyRevision_spec documentsPin default actor payload c _ _).1
    (by decide +kernel : isBlank (Uuid.ofByte 1).toText = false)
    (by decide : ¬ documentsPin.connectionRevision < 1) (by decide : (1 : UInt32) ≠ 0) rfl
  payloadSize := hpayloadSize
  metadataSize := (Nat.add_le_add (Nat.add_le_add (size_canonicalJson_le hprovenanceSize)
    (size_canonicalJson_le hpreviewSize)) size_documentsPolicy).trans (by decide)
  payload := hpayload
  preview := noFloat_classificationValue c
  policy := noFloat_capturePolicy (x := crates) documentsPin default
  provenance := hprovenance
  checks := by
    refine ⟨?_, (policyRevision_spec documentsPin default actor payload c _ _).2, ?_, ?_, rfl⟩
    · intro hempty
      have hblank : isBlank actor.id = true := by rw [show actor.id = "" from hempty]; rfl
      exact Bool.false_ne_true (hactor.1.symm.trans hblank)
    · exact (by decide +kernel : (Uuid.ofByte 1).toText ≠ "")
    · exact (by decide : (1 : UInt32) ≠ 0)

theorem plannable_desktopRead {entries : List (String × Value)}
    (h : ∀ e ∈ entries, e.2.NoFloat) (hsize : (canonicalJson crates
      (StoredDesktopDocumentPayload.toValue ⟨sortedBy entries, "manual"⟩)).utf8ByteSize ≤
        maxRequestBytes) (hclass : classify id (sortedBy entries) = classify id (sortedBy byA)) :
    Plannable (desktopRead (sortedBy entries)) :=
  plannable_newDocumentRead (by decide) (by decide +kernel)
    (noFloat_desktopPayload (noFloat_sortedBy h)) hsize (by decide +kernel)
    (by rw [hclass]; decide +kernel)

theorem plannable_agentRead_byB : Plannable (agentRead (sortedBy byB)) :=
  plannable_newDocumentRead (by decide) (by decide +kernel)
    (noFloat_agentPayload (noFloat_sortedBy noFloat_byB))
    ((size_canonicalJson_le (n := 1000) (by decide +kernel)).trans (by decide)) (by decide +kernel)
    (by decide +kernel)

theorem keysSorted_sortedBy {entries : List (String × Value)} :
    KeysSorted (sortedBy entries) ↔ KeySorted (.object entries) :=
  ⟨fun h => h _ (List.mem_singleton_self _), fun h _ hv => List.mem_singleton.1 hv ▸ h⟩

theorem keysSorted_byA : KeysSorted (sortedBy byA) := by
  refine keysSorted_sortedBy.2 (.object (by decide) fun e he => ?_)
  simp only [byA, List.mem_cons, List.not_mem_nil, or_false] at he
  rcases he with rfl | rfl <;> exact .number _

theorem not_keysSorted_byB : ¬ KeysSorted (sortedBy byB) := by
  intro h
  cases keysSorted_sortedBy.1 h with
  | object hkeys _ => exact absurd hkeys (by decide)

/-- What is read back of the sort by `b` is the sort by `a`. -/
theorem canonicalQuery_byB : canonicalQuery (sortedBy byB) = sortedBy byA := by
  have hsorted : (canonicalEntries byB).insertionSort (fun a b => a.1 ≤ b.1) = byA := by
    rfl
  show DocumentQuery.find _ _ _ (some (canonicalValue (.object byB))) _ _ = _
  rw [canonicalValue, hsorted]
  rfl

/-- A read that sorts by the field that comes first is handed on as it was submitted. -/
theorem desktopRead_byA_kept :
    PlannedAndRead crates (desktopRead (sortedBy byA))
      (plannedRecord (desktopRead (sortedBy byA))) ∧
    ∃ q' n, runDesktopRead crates id (plannedRecord (desktopRead (sortedBy byA))) documentsPin
      default (.ok ()) (.ok ()) (.ok ()) = .ok (q', n) ∧ q' = sortedBy byA := by
  have hplanned := (plannable_desktopRead noFloat_byA (by decide +kernel) rfl).plannedAndRead
  have hrun := run_desktopRead (inRange_sortedBy byA) (by decide +kernel)
  refine ⟨hplanned, _, _, hrun, ?_⟩
  exact ((query_kept_iff readsTrue_crates printsApart_crates
    (noFloat_sortedBy noFloat_byA) (inRange_sortedBy byA)).1 documentsPin default none (.ofByte 1)
    (.ofDay 9) _ _ _ _ _ _ _ _ _ (by rfl) hplanned hrun).2
    ⟨keysSorted_byA, nofun, nofun, nofun⟩

/-- A read that sorts by `b` first is handed on as one that sorts by `a` first, and the agent
service does not run it at all. -/
theorem read_byB_not_kept :
    (proposeDesktopRead crates id documentsPin default (sortedBy byB) none (.ofByte 1) (.ofDay 9) =
        .ok (desktopRead (sortedBy byB)) ∧
      PlannedAndRead crates (desktopRead (sortedBy byB))
        (plannedRecord (desktopRead (sortedBy byB))) ∧
      runDesktopRead crates id (plannedRecord (desktopRead (sortedBy byB))) documentsPin default
        (.ok ()) (.ok ()) (.ok ()) = .ok (sortedBy byA, 1000) ∧ sortedBy byA ≠ sortedBy byB) ∧
    planAgentRead crates id documentsPin default (.tryNew crates (sortedBy byB) none .mcp)
        (.ofByte 1) (.ofDay 9) = .ok (agentRead (sortedBy byB)) ∧
      PlannedAndRead crates (agentRead (sortedBy byB)) (plannedRecord (agentRead (sortedBy byB))) ∧
      runAgentRead crates (plannedRecord (agentRead (sortedBy byB))) (.ok ()) (.ok ()) (.ok ()) =
        .mismatch := by
  have hplanned := (plannable_desktopRead noFloat_byB (by decide +kernel) rfl).plannedAndRead
  have hrun := run_desktopRead (inRange_sortedBy byB) (by decide +kernel)
  rw [canonicalQuery_byB] at hrun
  refine ⟨⟨by rfl, hplanned, hrun, ?_⟩, by rfl,
    plannable_agentRead_byB.plannedAndRead, ?_⟩
  · intro hsame
    exact not_keysSorted_byB (hsame ▸ keysSorted_byA)
  · have hpayload : StoredAgentDocumentPayload.fromValue
        (plannedRecord (agentRead (sortedBy byB))).payload =
        .ok ⟨canonicalQuery (sortedBy byB), crates.toString (queryValue (sortedBy byB)), 1000,
          .mcp⟩ := fromValue_agentPayload (inRange_sortedBy byB) (by decide)
    have hdiffers : crates.toString (queryValue (canonicalQuery (sortedBy byB))) ≠
        crates.toString (queryValue (sortedBy byB)) := fun h => not_keysSorted_byB
      ((queryText_kept_iff printsApart_crates (noFloat_sortedBy noFloat_byB)).1 h)
    unfold runAgentRead
    rw [hpayload]
    exact if_pos hdiffers

end Document
end Services
end AgentDb
