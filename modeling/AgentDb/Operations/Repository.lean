import AgentDb.Lib.Transaction
import AgentDb.Operations.Model

/-!
# The operation repository: `operations/repository.rs`

Every method as the source computes it, over the three tables of `Tables`. A method takes the
write lock and one SQLite transaction, so it is one atomic step; its body is a `Tx` and its end
`Tx.settle`. `Utc::now()` and `Uuid::new_v4()` are arguments.

A constraint of the schema that a statement can run into (a key, a `CHECK`, a foreign key) is
checked where the statement runs. The triggers that reject updates of immutable columns and of
the append-only tables never fire: no statement of the repository is of that kind.
-/

namespace AgentDb
namespace Operations

open Json

/-- `MAX_REQUEST_BYTES` of the protocol crate. -/
def maxRequestBytes : ℕ := 1024 * 1024

/-- `MAX_RESPONSE_BYTES` of the protocol crate. -/
def maxResponseBytes : ℕ := 8 * 1024 * 1024

/-- `i64::MAX`, the last event sequence. -/
def maxSequence : ℕ := 2 ^ 63 - 1

/-- `operation_conflict`. -/
def operationConflict (reason : String) : AppError := .blocked reason

/-- A violated constraint of the schema, as the driver reports it. -/
def constraintFailed (constraint : String) : AppError := .db ("constraint failed: " ++ constraint)

/-- The `length(..) = 64 AND .. NOT GLOB '*[^0-9a-f]*'` check, also the one of
`validate_new_operation`. -/
def isLowerSha256 (text : String) : Bool :=
  text.toList.length = 64 && text.toList.all fun c => c.isDigit || ('a' ≤ c && c ≤ 'f')

/-- A transaction of the repository. -/
abbrev RepositoryTx := Tx Tables AppError

/-- Run one transaction: its result and the tables it leaves. -/
abbrev transaction {α : Type} (body : RepositoryTx (AppResult α)) (t : Tables) :
    AppResult α × Tables := body.settle t

section

variable (x : Crates)

/-! ### Reading rows -/

/-- `parse_canonical_json`. -/
def parseCanonicalJson (json : String) : AppResult Value := do
  let value ← fromStr x json
  refuseIf (canonicalJson x value ≠ json) (.config "stored operation JSON is not canonical")
  return value

/-- The decoded columns of an `operations` row. None of them ever changes. -/
structure StoredPayload where
  payload : Value
  actorProvenance : OperationActorProvenance
  preview : Value
  policySnapshot : Value

/-- The decoding part of `row_to_operation`. -/
def storedPayload (row : OperationRow) : AppResult StoredPayload := do
  let payload ← CanonicalJson.fromStored x row.payloadJson row.payloadHash
  let payload ← fromStr x payload.json
  let actorProvenanceValue ← parseCanonicalJson x row.actorProvenanceJson
  let actorProvenance ← OperationActorProvenance.fromValue actorProvenanceValue
  let preview ← parseCanonicalJson x row.previewJson
  let policySnapshot ← parseCanonicalJson x row.policySnapshotJson
  return { payload, actorProvenance, preview, policySnapshot }

/-- The record assembled from a row and its decoded columns. -/
def OperationRow.toRecord (row : OperationRow) (stored : StoredPayload) : OperationRecord where
  id := row.id
  runtimeId := row.runtimeId
  workspaceId := row.workspaceId
  accountScope := row.accountScope
  connectionId := row.connectionId
  connectionRevision := row.connectionRevision
  terminalSessionId := row.terminalSessionId
  actor := { kind := row.actorKind, id := row.actorId, provenance := stored.actorProvenance }
  kind := row.kind
  payloadSchemaVersion := row.payloadSchemaVersion
  payload := stored.payload
  payloadHash := row.payloadHash
  schemaFingerprint := row.schemaFingerprint
  riskLevel := row.riskLevel
  preview := stored.preview
  policySnapshot := stored.policySnapshot
  policyRevision := row.policyRevision
  state := row.state
  singleUse := row.singleUse
  idempotencyKey := row.idempotencyKey
  expiresAt := row.expiresAt
  startedAt := row.startedAt
  finishedAt := row.finishedAt
  createdAt := row.createdAt
  updatedAt := row.updatedAt

/-- `row_to_operation`. -/
def rowToOperation (row : OperationRow) : AppResult OperationRecord := do
  let stored ← storedPayload x row
  return row.toRecord stored

/-- The record of an event row and its decoded details. -/
def OperationEventRow.toRecord (row : OperationEventRow) (details : Value) :
    OperationEventRecord where
  id := row.id
  operationId := row.operationId
  sequence := row.sequence
  kind := row.kind
  state := row.state
  details := details
  createdAt := row.createdAt
  prevHash := row.prevHash
  hash := row.hash

/-- `row_to_event`. -/
def rowToEvent (row : OperationEventRow) : AppResult OperationEventRecord := do
  let details ← parseCanonicalJson x row.eventJson
  return row.toRecord details

/-- The row of `operations` with the given key. -/
def Tables.row? (t : Tables) (operationId : Uuid) : Option OperationRow :=
  t.operations.find? fun row => row.id = operationId

/-- The events of one operation, `ORDER BY sequence ASC`. -/
def Tables.ledger (t : Tables) (operationId : Uuid) : List OperationEventRow :=
  (t.events.filter fun e => e.operationId = operationId).insertionSort
    fun a b => a.sequence ≤ b.sequence

def notFound (operationId : Uuid) : AppError := .notFound ("operation " ++ operationId.toText)

/-- `fetch_operation_tx`. -/
def fetchOperationTx (operationId : Uuid) : RepositoryTx OperationRecord := do
  let t ← get
  match t.row? operationId with
  | none => throw (notFound operationId)
  | some row => rowToOperation x row

/-- `ensure_runtime`. -/
def ensureRuntime (operation : OperationRecord) (runtimeId : Uuid) : AppResult Unit :=
  refuseIf (operation.runtimeId ≠ runtimeId)
    (operationConflict "the operation belongs to a previous application runtime")

/-! ### The event ledger -/

/-- `transition_event_kind`. -/
def transitionEventKind : OperationState → OperationEventKind
  | .planned | .ready => .planned
  | .pendingApproval => .approvalRequested
  | .approved => .approved
  | .rejected => .rejected
  | .expired => .expired
  | .cancelled => .cancelled
  | .executing => .executionStarted
  | .succeeded => .succeeded
  | .failed => .failed
  | .outcomeUnknown => .outcomeUnknown

/-- `EventHashInput`. -/
structure EventHashInput where
  eventId : Uuid
  operationId : Uuid
  sequence : ℕ
  kind : OperationEventKind
  state : OperationState
  eventJson : String
  createdAt : DateTime
  prevHash : Option String

/-- The object `event_hash` hashes. -/
def EventHashInput.toValue (input : EventHashInput) : Value :=
  .object [
    ("createdAt", .string input.createdAt.timestamp),
    ("eventId", .string input.eventId.toText),
    ("eventJson", .string input.eventJson),
    ("eventKind", .string (eventKindStr input.kind)),
    ("operationId", .string input.operationId.toText),
    ("prevHash", (input.prevHash.map Value.string).getD .null),
    ("sequence", .number (.int input.sequence)),
    ("state", .string (stateStr input.state))]

/-- `event_hash`. -/
def eventHash (input : EventHashInput) : String :=
  digest x (canonicalJson x input.toValue)

/-- `INSERT INTO operation_events`. -/
def insertEvent (e : OperationEventRow) : RepositoryTx Unit := do
  let t ← get
  refuseIf (t.events.any fun e' => e'.id = e.id) (constraintFailed "operation_events.id")
  refuseIf (t.events.any fun e' => e'.operationId = e.operationId ∧ e'.sequence = e.sequence)
    (constraintFailed "operation_events.operation_id, operation_events.sequence")
  refuseIf (t.row? e.operationId = none) (constraintFailed "FOREIGN KEY")
  refuseIf (¬ x.jsonValid e.eventJson) (constraintFailed "json_valid(event_json)")
  refuseIf (¬ isLowerSha256 e.hash ∨ (e.prevHash.map isLowerSha256).getD true = false)
    (constraintFailed "operation_events.hash")
  set { t with events := t.events ++ [e] }

/-- `append_event_tx`. -/
def appendEventTx (operationId : Uuid) (kind : OperationEventKind) (state : OperationState)
    (details : Value) (createdAt : DateTime) (eventId : Uuid) :
    RepositoryTx OperationEventRecord := do
  let detailsJson := canonicalJson x details
  refuseIf (detailsJson.utf8ByteSize > maxResponseBytes)
    (AppError.config "operation event details exceed the local control-message limit")
  let t ← get
  let tail := (t.ledger operationId).getLast?
  refuseIf ((tail.map (·.sequence)) = some maxSequence)
    (AppError.config "operation event sequence overflowed")
  let sequence := (tail.map (·.sequence)).getD 0 + 1
  let prevHash := tail.map (·.hash)
  let hash := eventHash x
    { eventId, operationId, sequence, kind, state, eventJson := detailsJson, createdAt, prevHash }
  insertEvent x { id := eventId, operationId, sequence, kind, state, eventJson := detailsJson,
                  createdAt, prevHash, hash }
  let details ← fromStr x detailsJson
  return { id := eventId, operationId, sequence, kind, state, details, createdAt, prevHash, hash }

/-! ### Transitions -/

/-- The `UPDATE operations SET ..` of `transition_tx` on one row. -/
def OperationRow.moved (row : OperationRow) (target : OperationState) (now : DateTime) :
    OperationRow :=
  { row with
    state := target
    updatedAt := now
    startedAt := if target = .executing then some now else row.startedAt
    finishedAt := if target.isTerminal then some now else row.finishedAt }

/-- The `WHERE` of that update. The expiry is compared as text. -/
def updates (current : OperationRecord) (target : OperationState) (now : DateTime)
    (row : OperationRow) : Bool :=
  row.id = current.id && row.state = current.state && row.payloadHash = current.payloadHash &&
    (target ≠ .executing || row.expiresAt.all fun e => now.timestamp < e.timestamp)

/-- The table after that update. -/
def Tables.update (t : Tables) (current : OperationRecord) (target : OperationState)
    (now : DateTime) : Tables :=
  { t with operations := t.operations.map fun row =>
      if updates current target now row then row.moved target now else row }

/-- `transition_tx`. -/
def transitionTx (current : OperationRecord) (target : OperationState) (details : Value)
    (now : DateTime) (eventId : Uuid) : RepositoryTx OperationRecord := do
  (ensureTransition current.state target).mapError fun e => operationConflict e.toText
  let t ← get
  refuseIf (t.operations.countP (updates current target now) ≠ 1)
    (operationConflict "the operation state changed before it could be updated")
  set (t.update current target now)
  let _ ← appendEventTx x current.id (transitionEventKind target) target details now eventId
  fetchOperationTx x current.id

/-- `get`. -/
def Tables.get (t : Tables) (operationId : Uuid) : AppResult OperationRecord :=
  match t.row? operationId with
  | none => .error (notFound operationId)
  | some row => rowToOperation x row

/-! ### Planning -/

/-- `validate_new_operation`. -/
def validateNewOperation (operation : NewOperation) : AppResult Unit := do
  for (name, value) in [
      ("account scope", operation.accountScope),
      ("actor id", operation.actor.id),
      ("actor origin surface", operation.actor.provenance.originSurface),
      ("policy revision", operation.policyRevision),
      ("idempotency key", operation.idempotencyKey)] do
    refuseIf (isBlank value) (.config ("operation " ++ name ++ " cannot be empty"))
  refuseIf (operation.connectionRevision < 1)
    (.config "operation connection revision must be positive")
  refuseIf (operation.payloadSchemaVersion = 0)
    (.config "operation payload schema version must be positive")
  refuseIf (operation.schemaFingerprint.any fun f => ¬ isLowerSha256 f)
    (.config "operation schema fingerprint must be lowercase SHA-256")

/-- `PreparedOperation`. -/
structure PreparedOperation where
  runtimeId : Uuid
  operation : NewOperation
  payload : CanonicalJson
  actorProvenanceJson : String
  previewJson : String
  policySnapshotJson : String

/-- `PreparedOperation::new`. -/
def PreparedOperation.new (runtimeId : Uuid) (operation : NewOperation) :
    AppResult PreparedOperation := do
  validateNewOperation operation
  let payload := CanonicalJson.fromValue x operation.payload
  refuseIf (payload.json.utf8ByteSize > maxRequestBytes)
    (.config "operation payload exceeds the local control-message limit")
  let actorProvenanceJson := canonicalJson x operation.actor.provenance.toValue
  let previewJson := canonicalJson x operation.preview
  let policySnapshotJson := canonicalJson x operation.policySnapshot
  let metadataBytes := actorProvenanceJson.utf8ByteSize + previewJson.utf8ByteSize +
    policySnapshotJson.utf8ByteSize
  refuseIf (metadataBytes > maxResponseBytes)
    (.config "operation metadata exceeds the local control-message limit")
  return { runtimeId, operation, payload, actorProvenanceJson, previewJson, policySnapshotJson }

/-- `PreparedOperation::matches`. JSON values are compared as `serde_json` does, the order of
an object's keys aside. -/
def PreparedOperation.«matches» (p : PreparedOperation) (existing : OperationRecord) : Bool :=
  existing.runtimeId = p.runtimeId &&
    existing.workspaceId = p.operation.workspaceId &&
    existing.accountScope = p.operation.accountScope &&
    existing.connectionId = p.operation.connectionId &&
    existing.connectionRevision = p.operation.connectionRevision &&
    existing.terminalSessionId = p.operation.terminalSessionId &&
    existing.actor = p.operation.actor &&
    existing.kind = p.operation.kind &&
    existing.payloadSchemaVersion = p.operation.payloadSchemaVersion &&
    existing.payloadHash = p.payload.sha256 &&
    existing.schemaFingerprint = p.operation.schemaFingerprint &&
    existing.riskLevel = p.operation.riskLevel &&
    (canonicalValue existing.preview).beq (canonicalValue p.operation.preview) &&
    (canonicalValue existing.policySnapshot).beq (canonicalValue p.operation.policySnapshot) &&
    existing.policyRevision = p.operation.policyRevision &&
    existing.singleUse = p.operation.singleUse &&
    existing.idempotencyKey = p.operation.idempotencyKey &&
    existing.expiresAt = p.operation.expiresAt

/-- The row `insert_planned` writes. -/
def PreparedOperation.row (p : PreparedOperation) (createdAt : DateTime) : OperationRow where
  id := p.operation.id
  runtimeId := p.runtimeId
  workspaceId := p.operation.workspaceId
  accountScope := p.operation.accountScope
  connectionId := p.operation.connectionId
  connectionRevision := p.operation.connectionRevision
  terminalSessionId := p.operation.terminalSessionId
  actorKind := p.operation.actor.kind
  actorId := p.operation.actor.id
  actorProvenanceJson := p.actorProvenanceJson
  kind := p.operation.kind
  payloadSchemaVersion := p.operation.payloadSchemaVersion
  payloadJson := p.payload.json
  payloadHash := p.payload.sha256
  schemaFingerprint := p.operation.schemaFingerprint
  riskLevel := p.operation.riskLevel
  previewJson := p.previewJson
  policySnapshotJson := p.policySnapshotJson
  policyRevision := p.operation.policyRevision
  state := .planned
  singleUse := p.operation.singleUse
  idempotencyKey := p.operation.idempotencyKey
  expiresAt := p.operation.expiresAt
  startedAt := none
  finishedAt := none
  createdAt := createdAt
  updatedAt := createdAt

/-- `idx_operations_idempotency`. -/
def sameIdempotencyKey (a b : OperationRow) : Bool :=
  a.workspaceId = b.workspaceId && a.actorKind = b.actorKind && a.actorId = b.actorId &&
    a.idempotencyKey = b.idempotencyKey

/-- `INSERT INTO operations`. -/
def insertOperation (row : OperationRow) : RepositoryTx Unit := do
  let t ← get
  refuseIf (t.row? row.id ≠ none) (constraintFailed "operations.id")
  refuseIf (t.operations.any (sameIdempotencyKey row))
    (constraintFailed "idx_operations_idempotency")
  refuseIf (row.actorId = "" ∨ row.policyRevision = "" ∨ row.idempotencyKey = "" ∨
      row.payloadSchemaVersion = 0 ∨ ¬ isLowerSha256 row.payloadHash ∨
      row.schemaFingerprint.any (fun f => ¬ isLowerSha256 f) ∨
      ¬ x.jsonValid row.actorProvenanceJson ∨ ¬ x.jsonValid row.payloadJson ∨
      ¬ x.jsonValid row.previewJson ∨ ¬ x.jsonValid row.policySnapshotJson)
    (constraintFailed "operations")
  set { t with operations := t.operations ++ [row] }

/-- `insert_planned`. -/
def insertPlanned (runtimeId : Uuid) (operation : NewOperation) (createdAt : DateTime)
    (eventId : Uuid) (t : Tables) : AppResult OperationRecord × Tables :=
  transaction (do
    let prepared ← PreparedOperation.new x runtimeId operation
    let row := prepared.row createdAt
    match (← get).operations.find? (sameIdempotencyKey row) with
    | some found =>
        let existing ← rowToOperation x found
        if prepared.matches existing then return .ok existing
        else throw (operationConflict
          "the idempotency key is already bound to a different immutable operation")
    | none =>
        insertOperation x row
        let _ ← appendEventTx x row.id .planned .planned
          (.object [("payloadHash", .string prepared.payload.sha256),
            ("riskLevel", .string (riskLevelStr operation.riskLevel))])
          createdAt eventId
        return .ok (← fetchOperationTx x row.id)) t

/-! ### Lifecycle -/

/-- `transition`. -/
def transition (operationId runtimeId : Uuid) (target : OperationState) (details : Value)
    (now : DateTime) (eventId : Uuid) (t : Tables) : AppResult OperationRecord × Tables :=
  transaction (do
    refuseIf (target = .executing)
      (AppError.config "execution must be entered through the atomic claim API")
    let current ← fetchOperationTx x operationId
    ensureRuntime current runtimeId
    return .ok (← transitionTx x current target details now eventId)) t

/-- The `SELECT EXISTS` of `claim_execution`. -/
def hasExactApproval (t : Tables) (current : OperationRecord) (now : DateTime) : Bool :=
  t.approvals.any fun a =>
    a.operationId = current.id && a.payloadHash = current.payloadHash &&
      a.decision = .approved && a.policyRevision = current.policyRevision &&
      a.expiresAt.all fun e => now.timestamp < e.timestamp

/-- A `{"reason": ..}` object. -/
def reasonDetails (reason : String) : Value := .object [("reason", .string reason)]

/-- `claim_execution`. -/
def claimExecution (operationId runtimeId : Uuid) (now : DateTime) (eventId : Uuid) (t : Tables) :
    AppResult OperationRecord × Tables :=
  transaction (do
    let current ← fetchOperationTx x operationId
    ensureRuntime current runtimeId
    refuseIf (current.state ≠ .ready ∧ current.state ≠ .approved)
      (operationConflict "the operation is not in an executable state")
    refuseIf (current.state = .ready ∧ current.kind.mayMutateTarget)
      (operationConflict "a target-mutating operation cannot execute without exact approval")
    if current.expiresAt.any (· ≤ now) then
      let _ ← transitionTx x current .expired (reasonDetails "operation_expired") now eventId
      return .error (operationConflict "the operation has expired")
    else
      refuseIf (current.state = .approved ∧ ¬ hasExactApproval (← get) current now)
        (operationConflict "the operation has no current exact approval")
      return .ok (← transitionTx x current .executing
        (.object [("payloadHash", .string current.payloadHash)]) now eventId)) t

/-- The approvers `decide_approval` accepts. -/
def OperationApprover.identified (approver : OperationApprover) : Bool :=
  (approver.kind = .localUser || approver.kind = .workspaceUser) && !isBlank approver.id

/-- `INSERT INTO operation_approvals`. -/
def insertApproval (a : OperationApprovalRecord) : RepositoryTx Unit := do
  let t ← get
  refuseIf (t.approvals.any fun a' => a'.id = a.id) (constraintFailed "operation_approvals.id")
  refuseIf (t.row? a.operationId = none) (constraintFailed "FOREIGN KEY")
  refuseIf ((a.approver.kind ≠ .localUser ∧ a.approver.kind ≠ .workspaceUser) ∨
      a.approver.id = "" ∨ a.policyRevision = "" ∨ ¬ isLowerSha256 a.payloadHash)
    (constraintFailed "operation_approvals")
  set { t with approvals := t.approvals ++ [a] }

/-- `decide_approval`. -/
def decideApproval (command : OperationApprovalCommand) (approvalId eventId : Uuid) (t : Tables) :
    AppResult OperationRecord × Tables :=
  transaction (do
    refuseIf (¬ command.approver.identified)
      (operationConflict "only an identified local or workspace user can approve an operation")
    refuseIf (command.reason.any fun reason => reason.utf8ByteSize > maxRequestBytes)
      (AppError.config "operation approval reason exceeds the local control-message limit")
    let current ← fetchOperationTx x command.operationId
    ensureRuntime current command.runtimeId
    refuseIf (current.state ≠ .pendingApproval)
      (operationConflict "the operation is not awaiting an approval decision")
    refuseIf (current.payloadHash ≠ command.expectedPayloadHash)
      (operationConflict "the reviewed payload hash does not match the stored operation")
    refuseIf (current.policyRevision ≠ command.currentPolicyRevision)
      (operationConflict "the active safety policy changed after the operation was planned")
    if current.expiresAt.any (· ≤ command.now) then
      let _ ← transitionTx x current .expired (reasonDetails "approval_expired") command.now eventId
      return .error (operationConflict "the operation has expired")
    else
      insertApproval
        { id := approvalId
          operationId := current.id
          payloadHash := current.payloadHash
          approver := command.approver
          decision := command.decision
          reason := command.reason
          policyRevision := current.policyRevision
          createdAt := command.now
          expiresAt := current.expiresAt }
      let target := match command.decision with
        | .approved => OperationState.approved
        | .rejected => .rejected
      return .ok (← transitionTx x current target
        (.object [("approvalId", .string approvalId.toText),
          ("approverId", .string command.approver.id),
          ("approverKind", .string (actorKindStr command.approver.kind)),
          ("payloadHash", .string current.payloadHash),
          ("policyRevision", .string current.policyRevision)]) command.now eventId)) t

/-- `append_progress`. -/
def appendProgress (operationId runtimeId : Uuid) (details : Value) (now : DateTime)
    (eventId : Uuid) (t : Tables) : AppResult OperationEventRecord × Tables :=
  transaction (do
    let current ← fetchOperationTx x operationId
    ensureRuntime current runtimeId
    refuseIf (current.state ≠ .executing)
      (operationConflict "progress can only be recorded for an executing operation")
    return .ok (← appendEventTx x operationId .progress current.state details now eventId)) t

/-! ### The ledger check -/

/-- `events`. -/
def Tables.eventRecords (t : Tables) (operationId : Uuid) :
    AppResult (List OperationEventRecord) :=
  (t.ledger operationId).mapM (rowToEvent x)

/-- The loop of `verify_event_chain` from the event at position `index` on. -/
def verifyEvents (index : ℕ) (previousHash : Option String) : List OperationEventRecord → Bool
  | [] => true
  | event :: events =>
      if event.sequence ≠ index + 1 ∨ event.prevHash ≠ previousHash ∨
          (index = 0 ∧ (event.kind ≠ .planned ∨ event.state ≠ .planned)) then false
      else if eventHash x
          { eventId := event.id
            operationId := event.operationId
            sequence := event.sequence
            kind := event.kind
            state := event.state
            eventJson := canonicalJson x event.details
            createdAt := event.createdAt
            prevHash := event.prevHash } ≠ event.hash then false
      else verifyEvents (index + 1) (some event.hash) events

/-- `verify_event_chain`. -/
def verifyEventChain (operationId : Uuid) (t : Tables) : AppResult Bool := do
  let projection ← t.get x operationId
  let events ← t.eventRecords x operationId
  return verifyEvents x 0 none events &&
    (events.getLast?.map (·.state)) = some projection.state

/-! ### Restart recovery -/

/-- `ORDER BY created_at ASC, id ASC`, on the stored texts. -/
def createdBefore (a b : OperationRow) : Bool :=
  a.createdAt.timestamp < b.createdAt.timestamp ||
    (a.createdAt.timestamp = b.createdAt.timestamp && a.id.toText ≤ b.id.toText)

/-- The loop of `recover_previous_runtimes`: the row at position `index` takes the fresh
identifier and the clock reading of that position. -/
def recoverRows (ids : ℕ → Uuid) (clock : ℕ → DateTime) :
    ℕ → List OperationRow → RestartRecoveryReport → RepositoryTx RestartRecoveryReport
  | _, [], report => return report
  | index, row :: rows, report => do
      let operation ← rowToOperation x row
      match restartRecovery operation.kind operation.state with
      | .keepTerminal => recoverRows ids clock (index + 1) rows report
      | .expire =>
          let _ ← transitionTx x operation .expired (reasonDetails "runtime_restarted")
            (clock index) (ids index)
          recoverRows ids clock (index + 1) rows
            { report with expired := report.expired ++ [operation.id] }
      | .markFailed =>
          let _ ← transitionTx x operation .failed
            (reasonDetails "runtime_interrupted_before_receipt") (clock index) (ids index)
          recoverRows ids clock (index + 1) rows
            { report with failed := report.failed ++ [operation.id] }
      | .outcomeUnknown =>
          let _ ← transitionTx x operation .outcomeUnknown
            (reasonDetails "target_commit_status_unknown_after_restart") (clock index) (ids index)
          recoverRows ids clock (index + 1) rows
            { report with outcomeUnknown := report.outcomeUnknown ++ [operation.id] }
      | .validateJobCheckpoint =>
          recoverRows ids clock (index + 1) rows
            { report with checkpointValidationRequired :=
                report.checkpointValidationRequired ++ [operation.id] }

/-- The rows `recover_previous_runtimes` selects. -/
def Tables.interrupted (t : Tables) (currentRuntimeId : Uuid) : List OperationRow :=
  (t.operations.filter fun row =>
    row.runtimeId ≠ currentRuntimeId && !row.state.isTerminal).insertionSort
      fun a b => createdBefore a b

/-- `recover_previous_runtimes`. -/
def recoverPreviousRuntimes (currentRuntimeId : Uuid) (ids : ℕ → Uuid) (clock : ℕ → DateTime)
    (t : Tables) : AppResult RestartRecoveryReport × Tables :=
  transaction (do
    let t ← get
    return .ok (← recoverRows x ids clock 0 (t.interrupted currentRuntimeId) {})) t

end

end Operations
end AgentDb
