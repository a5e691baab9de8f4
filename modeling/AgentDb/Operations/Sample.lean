import AgentDb.Lib.JsonText
import AgentDb.Lib.Sha256
import AgentDb.Operations.Progress

/-!
# Concrete third-party code and a concrete run

`crates` is an instance of the third-party code with the compact JSON text of `Json.print` and
SHA-256; it is lawful. `sampleRun` is the run the theorems are instantiated at: an operation
that is planned, sent for approval, approved and claimed. That its four calls go through follows
from the lemmas of `Progress`, so no digest is ever computed.
-/

namespace AgentDb
namespace Operations

open Json

/-- The third-party code, concretely. -/
def crates : Crates where
  toString := Json.print
  fromStr := Json.parse
  sha256 := Sha256.sha256
  jsonValid := fun text => (Json.parse text).isSome

theorem noFloat_canonicalValue {v : Value} (h : v.NoFloat) : (canonicalValue v).NoFloat := by
  induction v using Value.ind with
  | null => exact h
  | bool b => exact h
  | number n => exact h
  | string s => exact h
  | array items ih =>
    rw [Value.noFloat_array] at h
    rw [canonicalValue, canonicalItems_eq_map, Value.noFloat_array]
    simpa using fun v hv => ih v hv (h v hv)
  | object entries ih =>
    rw [Value.noFloat_object] at h
    rw [canonicalValue, canonicalEntries_eq_map, Value.noFloat_object]
    intro e he
    rw [List.mem_insertionSort, List.mem_map] at he
    obtain ⟨e', he', rfl⟩ := he
    exact ih e' he' (h e' he')

theorem crates_lawful : crates.Lawful where
  roundTrips := fun _ hv => Json.parse_print (noFloat_canonicalValue hv)
  jsonValid := fun v hv => by
    rw [canonicalJson, CanonicalJson.fromValue, crates]
    simp only [Json.parse_print (noFloat_canonicalValue hv), Option.isSome_some]

/-- A digest is not a blank text. -/
theorem not_blank_of_isLowerSha256 {text : String} (h : isLowerSha256 text = true) :
    isBlank text = false ∧ text ≠ "" := by
  rw [isLowerSha256, Bool.and_eq_true, decide_eq_true_eq, List.all_eq_true] at h
  obtain ⟨hlength, hdigits⟩ := h
  obtain ⟨c, hc⟩ : ∃ c, c ∈ text.toList :=
    List.exists_mem_of_length_pos (by omega)
  have hspace : isWhitespace c = false := by
    have hdigit := hdigits c hc
    simp only [Bool.or_eq_true, Bool.and_eq_true, decide_eq_true_eq, Char.isDigit, Char.le_def,
      ge_iff_le, UInt32.le_iff_toNat_le] at hdigit
    have hrange : 48 ≤ c.toNat ∧ c.toNat ≤ 102 := by
      rcases hdigit with h | h
      · exact ⟨h.1, h.2.trans (by decide)⟩
      · have ha : 'a'.val.toNat = 97 ∧ 'f'.val.toNat = 102 := by decide
        rw [ha.1, ha.2] at h
        exact ⟨le_trans (by decide) h.1, h.2⟩
    simp [isWhitespace]
    omega
  refine ⟨?_, ?_⟩
  · rw [isBlank, List.all_eq_false]
    exact ⟨c, hc, by simp [hspace]⟩
  · rintro rfl
    cases hc

/-- The details of a plan fit, whatever its payload. -/
theorem size_plannedDetails_le {row : OperationRow} (hhash : isLowerSha256 row.payloadHash = true) :
    (canonicalJson crates (plannedDetails row)).utf8ByteSize ≤ maxResponseBytes := by
  have hsorted : canonicalValue (plannedDetails row) = plannedDetails row := by
    have hle : "payloadHash" ≤ "riskLevel" := by decide
    refine (canonicalValue_eq_self_iff _).2 (.object (List.pairwise_pair.2 hle) fun e he => ?_)
    simp only [List.mem_cons, List.not_mem_nil, or_false] at he
    rcases he with rfl | rfl <;> exact .string _
  have hlength : row.payloadHash.toList.length = 64 := by
    rw [isLowerSha256, Bool.and_eq_true, decide_eq_true_eq] at hhash
    exact hhash.1
  have hrisk : (riskLevelStr row.riskLevel).toList.length ≤ 8 := by
    cases row.riskLevel <;> decide
  have hkeys : "payloadHash".toList.length = 11 ∧ "riskLevel".toList.length = 9 := by decide
  have hsize := (length_le_utf8ByteSize_ofList (printValue (plannedDetails row))).2
  have hprint : canonicalJson crates (plannedDetails row) =
      String.ofList (printValue (plannedDetails row)) := by
    show print (canonicalValue (plannedDetails row)) = _
    rw [hsorted, print]
  rw [hprint]
  refine hsize.trans ?_
  have hquotes := fun s => (length_quote s).2
  have h1 := hquotes "payloadHash"
  have h2 := hquotes "riskLevel"
  have h3 := hquotes row.payloadHash
  have h4 := hquotes (riskLevelStr row.riskLevel)
  rw [hkeys.1] at h1
  rw [hkeys.2] at h2
  simp only [plannedDetails, printValue, printEntries, List.length_cons, List.length_append,
    List.length_nil]
  unfold maxResponseBytes
  omega

/-! ### An operation -/

def samplePayload : Value :=
  .object [("sql", .string "UPDATE items SET active = false WHERE id = 1")]

def samplePreview : Value := .object [("estimatedRows", .number (.int 1))]

def samplePolicy : Value := .object [("allowWrites", .bool true)]

def sampleProvenance : OperationActorProvenance := { originSurface := "sql_editor" }

/-- An operation of the given kind planned from the SQL editor. -/
def sampleOperation (kind : OperationKind) : NewOperation where
  id := .ofByte 1
  workspaceId := .ofByte 2
  accountScope := "personal"
  connectionId := .ofByte 3
  connectionRevision := 1
  terminalSessionId := some (.ofByte 4)
  actor := { kind := .localUser, id := "local-owner", provenance := sampleProvenance }
  kind
  payloadSchemaVersion := 1
  payload := samplePayload
  schemaFingerprint := none
  riskLevel := .medium
  preview := samplePreview
  policySnapshot := samplePolicy
  policyRevision := "policy-v1"
  singleUse := true
  idempotencyKey := "sample"
  expiresAt := some (.ofDay 9)

def samplePrepared (kind : OperationKind) : PreparedOperation where
  runtimeId := .ofByte 5
  operation := sampleOperation kind
  payload := CanonicalJson.fromValue crates samplePayload
  actorProvenanceJson := canonicalJson crates sampleProvenance.toValue
  previewJson := canonicalJson crates samplePreview
  policySnapshotJson := canonicalJson crates samplePolicy

/-- The row of the operation as it is planned. -/
def sampleRow (kind : OperationKind) : OperationRow := (samplePrepared kind).row (.ofDay 1)

theorem samplePrepared_eq (kind : OperationKind) :
    PreparedOperation.new crates (.ofByte 5) (sampleOperation kind) =
      .ok (samplePrepared kind) := by
  have hblank : isBlank "personal" = false ∧ isBlank "local-owner" = false ∧
      isBlank "sql_editor" = false ∧ isBlank "policy-v1" = false ∧ isBlank "sample" = false := by
    decide +kernel
  have hvalid : validateNewOperation (sampleOperation kind) = .ok () := by
    obtain ⟨h1, h2, h3, h4, h5⟩ := hblank
    exact validateNewOperation_ok h1 h2 h3 h4 h5 (by decide : ¬ (1 : ℤ) < 1)
      (by decide : (1 : UInt32) ≠ 0) rfl
  have hpayload : ¬ (CanonicalJson.fromValue crates samplePayload).json.utf8ByteSize >
      maxRequestBytes := by decide +kernel
  have hmetadata : ¬ (canonicalJson crates sampleProvenance.toValue).utf8ByteSize +
      (canonicalJson crates samplePreview).utf8ByteSize +
      (canonicalJson crates samplePolicy).utf8ByteSize > maxResponseBytes := by decide +kernel
  have hoperation : (sampleOperation kind).payload = samplePayload ∧
      (sampleOperation kind).actor.provenance = sampleProvenance ∧
      (sampleOperation kind).preview = samplePreview ∧
      (sampleOperation kind).policySnapshot = samplePolicy := ⟨rfl, rfl, rfl, rfl⟩
  obtain ⟨h1, h2, h3, h4⟩ := hoperation
  simp only [PreparedOperation.new, hvalid, h1, h2, h3, h4, refuseIf, if_neg hpayload,
    if_neg hmetadata, bind, Except.bind, pure, Except.pure, samplePrepared]

theorem fromValue_sampleProvenance :
    OperationActorProvenance.fromValue (canonicalValue sampleProvenance.toValue) =
      .ok sampleProvenance := by
  have hvalue : canonicalValue sampleProvenance.toValue =
      .object [("originSurface", .string "sql_editor")] := rfl
  rw [hvalue]
  simp [OperationActorProvenance.fromValue, readOptionalString, sampleProvenance, List.lookup, bind,
    Except.bind, pure, Except.pure]

/-- The payload hash of the operation. -/
def sampleHash : String := canonicalHash crates samplePayload

theorem sampleHash_eq :
    sampleHash = "6ac53d0f17b48a3270463f70f96319119929b1cbe7d426abb28b8ca1f8aaa675" := by
  have htext : canonicalJson crates samplePayload =
      "\x7b\"sql\":\"UPDATE items SET active = false WHERE id = 1\"\x7d" := by decide +kernel
  have hhash : sampleHash = digest crates (canonicalJson crates samplePayload) := rfl
  rw [hhash, htext]
  decide +kernel

/-! ### A run -/

/-- The calls so far left one operation, its approvals, and events of these identifiers. -/
structure Snapshot (calls : List Call) (row : OperationRow) (ids : List Uuid)
    (decisions : List OperationApprovalRecord) : Prop where
  noFloat : ∀ call ∈ calls, call.DetailsSatisfy Value.NoFloat
  operations : (run crates calls).operations = [row]
  events : (run crates calls).events.map (·.id) = ids
  approvals : (run crates calls).approvals = decisions

namespace Snapshot

variable {calls : List Call} {row : OperationRow} {ids : List Uuid}
  {decisions : List OperationApprovalRecord} {target : OperationState} {details : Value}
  {now : DateTime} {eventId : Uuid}

theorem sound (h : Snapshot calls row ids decisions) :
    Sound crates Value.NoFloat (run crates calls) :=
  .run (fun _ => noFloat_of_textObject) calls h.noFloat

theorem mem (h : Snapshot calls row ids decisions) : row ∈ (run crates calls).operations := by
  rw [h.operations]
  exact List.mem_singleton_self row

theorem appendable (h : Snapshot calls row ids decisions) {t : Tables}
    (ht : t.events = (run crates calls).events) (hd : details.NoFloat)
    (hsize : (canonicalJson crates details).utf8ByteSize ≤ maxResponseBytes)
    (hfresh : eventId ∉ ids) (hroom : ids.length < maxSequence) :
    Appendable crates t row.id details eventId := by
  refine ⟨hd, hsize, ?_, fun e he hid => hfresh ?_⟩
  · calc (t.eventsOf row.id).length
        ≤ t.events.length := List.length_filter_le _ _
      _ = ids.length := by rw [ht, ← h.events, List.length_map]
      _ < maxSequence := hroom
  · rw [ht] at he
    rw [← h.events, ← hid]
    exact List.mem_map_of_mem he

/-- A call that moves the row of a snapshot. -/
theorem moved (h : Snapshot calls row ids decisions) (call : Call) (target : OperationState)
    (details : Value) (now : DateTime) (eventId : Uuid)
    (hcall : call.DetailsSatisfy Value.NoFloat) {t : Tables} (ht : t.operations = (run crates calls).operations)
    (hevents : t.events = (run crates calls).events) {decisions' : List OperationApprovalRecord}
    (hdecisions : t.approvals = decisions') (happly : call.apply crates (run crates calls) =
      t.moveRow crates row target details now eventId) :
    Snapshot (calls ++ [call]) (row.moved target now) (ids ++ [eventId]) decisions' := by
  refine ⟨?_, ?_, ?_, by rw [run_concat, happly, ← hdecisions]; rfl⟩
  · intro c hc
    rcases List.mem_append.1 hc with hc | hc
    · exact h.noFloat c hc
    · rw [List.mem_singleton.1 hc]
      exact hcall
  · rw [run_concat, happly, Tables.moveRow, ht, h.operations]
    simp
  · rw [run_concat, happly, Tables.moveRow, hevents, List.map_append, h.events]
    rfl

theorem transition (h : Snapshot calls row ids decisions) (hne : target ≠ .executing)
    (hallowed : allowed row.state target) (hd : details.NoFloat)
    (hsize : (canonicalJson crates details).utf8ByteSize ≤ maxResponseBytes)
    (hfresh : eventId ∉ ids) (hroom : ids.length < maxSequence) :
    Snapshot (calls ++ [.transition row.id row.runtimeId target details now eventId])
      (row.moved target now) (ids ++ [eventId]) decisions := by
  obtain ⟨op, hop⟩ := transition_succeeds crates_lawful h.sound h.mem hne hallowed now
    (h.appendable rfl hd hsize hfresh hroom)
  exact h.moved (.transition row.id row.runtimeId target details now eventId) target details now
    eventId hd rfl rfl h.approvals (by rw [Call.apply, hop])

/-- The call by which an identified user approves an operation as it was reviewed. -/
def approval (row : OperationRow) (approver : OperationApprover) (approvalId : Uuid)
    (now : DateTime) (eventId : Uuid) : Call :=
  .decideApproval
    { operationId := row.id
      runtimeId := row.runtimeId
      expectedPayloadHash := row.payloadHash
      approver
      decision := .approved
      reason := none
      currentPolicyRevision := row.policyRevision
      now } approvalId eventId

theorem decideApproval (h : Snapshot calls row ids []) (hstate : row.state = .pendingApproval)
    (hpolicy : row.policyRevision ≠ "") (hhash : isLowerSha256 row.payloadHash)
    {approver : OperationApprover} (hidentified : approver.identified) (hid : approver.id ≠ "")
    {approvalId : Uuid} (hlive : Live row.expiresAt now)
    (hsize : (canonicalJson crates (decisionDetails row approver approvalId)).utf8ByteSize ≤
      maxResponseBytes) (hfresh : eventId ∉ ids) (hroom : ids.length < maxSequence) :
    ∃ a, Snapshot (calls ++ [approval row approver approvalId now eventId])
        (row.moved .approved now) (ids ++ [eventId]) [a] ∧
      ApprovedBy (run crates (calls ++ [approval row approver approvalId now eventId]))
        (row.moved .approved now) a ∧ a.expiresAt = row.expiresAt := by
  obtain ⟨op, a, haid, hpayload, hrevision, hdecision, -, hexpires, hop⟩ :=
    decideApproval_succeeds crates_lawful h.sound h.mem approver approvalId hstate hpolicy hhash
      hidentified hid (by rw [h.approvals]; intro a ha; cases ha) hlive
      (h.appendable rfl (noFloat_of_textObject (textObject_decisionDetails _ _ _)) hsize hfresh
        hroom)
  have hsnapshot := h.moved (approval row approver approvalId now eventId) .approved
    (decisionDetails row approver approvalId) now eventId trivial
    (t := { run crates calls with approvals := (run crates calls).approvals ++ [a] })
    rfl rfl (by rw [h.approvals, List.nil_append]) (by rw [approval, Call.apply, hop])
  refine ⟨a, hsnapshot, ⟨?_, haid, hpayload, hdecision, hrevision⟩, hexpires⟩
  rw [hsnapshot.approvals]
  exact List.mem_singleton_self a

theorem claimExecution {a : OperationApprovalRecord} (h : Snapshot calls row ids [a])
    (hstate : row.state = .approved) (hby : ApprovedBy (run crates calls) row a)
    (hlive : Live row.expiresAt now) (halive : Live a.expiresAt now)
    (hsize : (canonicalJson crates (claimDetails row)).utf8ByteSize ≤ maxResponseBytes)
    (hfresh : eventId ∉ ids) (hroom : ids.length < maxSequence) :
    Snapshot (calls ++ [.claimExecution row.id row.runtimeId now eventId])
      (row.moved .executing now) (ids ++ [eventId]) [a] := by
  obtain ⟨op, hop⟩ := claimExecution_succeeds crates_lawful h.sound h.mem hstate hby hlive halive
    (h.appendable rfl (noFloat_of_textObject (textObject_claimDetails _)) hsize hfresh hroom)
  exact h.moved (.claimExecution row.id row.runtimeId now eventId) .executing (claimDetails row) now
    eventId trivial rfl rfl h.approvals (by rw [Call.apply, hop])

end Snapshot

/-- The call that plans the operation. -/
def samplePlan (kind : OperationKind) : Call :=
  .insertPlanned (.ofByte 5) (sampleOperation kind) (.ofDay 1) (.ofByte 11)

theorem snapshot_planned (kind : OperationKind) :
    Snapshot [samplePlan kind] (sampleRow kind) [.ofByte 11] [] := by
  have hsound : Sound crates Value.NoFloat {} := .empty
  obtain ⟨op, hop⟩ := insertPlanned_succeeds (t := {}) crates_lawful hsound
    (samplePrepared_eq kind) (.ofDay 1)
    (.object (by rintro e he; obtain rfl := List.mem_singleton.1 he; exact .string _))
    (.object (by rintro e he; obtain rfl := List.mem_singleton.1 he; exact .int _))
    (.object (by rintro e he; obtain rfl := List.mem_singleton.1 he; exact .bool _))
    fromValue_sampleProvenance (by simp [sampleOperation]) (by intro r hr; cases hr)
    (by intro r hr; cases hr)
    ⟨noFloat_of_textObject (textObject_plannedDetails _),
      size_plannedDetails_le (isLowerSha256_digest _),
      by simp [Tables.eventsOf, maxSequence], by intro e he; cases he⟩
  have hrun : run crates [samplePlan kind] = (samplePlan kind).apply crates {} :=
    run_concat [] (samplePlan kind)
  refine ⟨?_, by rw [hrun, samplePlan, Call.apply, hop]; rfl,
    by rw [hrun, samplePlan, Call.apply, hop]; rfl,
    by rw [hrun, samplePlan, Call.apply, hop]; rfl⟩
  intro c hc
  obtain rfl := List.mem_singleton.1 hc
  trivial

section Run

variable (kind : OperationKind)

/-- The operation, planned and sent for approval. -/
def samplePending : List Call :=
  [samplePlan kind] ++ [.transition (.ofByte 1) (.ofByte 5) .pendingApproval
    (.object [("disposition", .string "approval_required")]) (.ofDay 2) (.ofByte 12)]

def pendingRow : OperationRow := (sampleRow kind).moved .pendingApproval (.ofDay 2)

def approvedRow : OperationRow := (pendingRow kind).moved .approved (.ofDay 3)

def executingRow : OperationRow := (approvedRow kind).moved .executing (.ofDay 4)

def localOwner : OperationApprover := { kind := .localUser, id := "local-owner" }

/-- The operation, approved. -/
def sampleApproved : List Call :=
  samplePending kind ++
    [Snapshot.approval (pendingRow kind) localOwner (.ofByte 20) (.ofDay 3) (.ofByte 13)]

/-- The operation, claimed. -/
def sampleRun : List Call :=
  sampleApproved kind ++
    [.claimExecution (approvedRow kind).id (approvedRow kind).runtimeId (.ofDay 4) (.ofByte 14)]

theorem snapshot_pending :
    Snapshot (samplePending kind) (pendingRow kind) [.ofByte 11, .ofByte 12] [] :=
  (snapshot_planned kind).transition (by decide) rfl
    (.object (by rintro e he; obtain rfl := List.mem_singleton.1 he; exact .string _))
    (by decide +kernel) (by decide) (by decide)

theorem live_sample (d : Fin 9) : Live (some (.ofDay 9)) (.ofDay ⟨d, by omega⟩) := by
  have key : ∀ d : Fin 9, ¬ DateTime.ofDay 9 ≤ .ofDay ⟨d, by omega⟩ ∧
    (DateTime.ofDay ⟨d, by omega⟩).timestamp < (DateTime.ofDay 9).timestamp := by decide +kernel
  rintro e ⟨⟩
  exact key d

theorem size_decisionDetails : (canonicalJson crates (decisionDetails (pendingRow kind) localOwner
    (.ofByte 20))).utf8ByteSize ≤ maxResponseBytes := by
  have hdetails : decisionDetails (pendingRow kind) localOwner (.ofByte 20) =
      .object [("approvalId", .string (Uuid.ofByte 20).toText),
        ("approverId", .string "local-owner"), ("approverKind", .string "local_user"),
        ("payloadHash", .string sampleHash), ("policyRevision", .string "policy-v1")] := rfl
  rw [hdetails, sampleHash_eq]
  decide +kernel

theorem size_claimDetails :
    (canonicalJson crates (claimDetails (approvedRow kind))).utf8ByteSize ≤ maxResponseBytes := by
  have hdetails : claimDetails (approvedRow kind) =
      .object [("payloadHash", .string sampleHash)] := rfl
  rw [hdetails, sampleHash_eq]
  decide +kernel

/-- The approved operation and its exact, live approval. -/
theorem snapshot_approved :
    ∃ a, Snapshot (sampleApproved kind) (approvedRow kind)
        [.ofByte 11, .ofByte 12, .ofByte 13] [a] ∧
      ApprovedBy (run crates (sampleApproved kind)) (approvedRow kind) a ∧
      a.expiresAt = some (.ofDay 9) :=
  (snapshot_pending kind).decideApproval rfl (show "policy-v1" ≠ "" by decide)
    (isLowerSha256_digest _) (by decide +kernel) (by decide) (live_sample 3) (size_decisionDetails kind) (by decide)
    (by decide)

/-- The operation, claimed. -/
theorem snapshot_run :
    ∃ a, Snapshot (sampleRun kind) (executingRow kind)
      [.ofByte 11, .ofByte 12, .ofByte 13, .ofByte 14] [a] := by
  obtain ⟨a, h, hby, hexpires⟩ := snapshot_approved kind
  exact ⟨a, h.claimExecution rfl hby (live_sample 4) (by rw [hexpires]; exact live_sample 4)
    (size_claimDetails kind) (by decide) (by decide)⟩

end Run

end Operations
end AgentDb
