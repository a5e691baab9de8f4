import AgentDb.Runs.DesktopSql
import AgentDb.Services.DocumentService

/-!
# Document reads and the monitoring role as programs

`run_desktop_read` of `services/document_service.rs` and `run_postgres_role` of
`services/monitoring_service.rs`: each sends the one request of its payload. The document read is
guarded by a handle it registers with the guard, the role change by a timeout alone.
-/

namespace AgentDb
namespace Runs

open Connection Executor Json Operations Safety Services Store

/-! ### Document reads -/

namespace Document

open Services.Document (StoredDesktopDocumentPayload queryValue desktopBlockedReason
  boundedDesktopRows)

/-- A document read with all the run has loaded and checked. -/
structure PreparedRead where
  operationId : Uuid
  query : Mongo.DocumentQuery
  queryText : String
  historyOrigin : String
  kind : QueryKind
  pin : PinnedConnection
  settings : SafetySettings

namespace PreparedRead

variable (p : PreparedRead)

/-- `record_desktop_outcome`. -/
def record (kind : QueryKind) (action status : String) (rowCount durationMs : Option ℕ)
    (error : Option String) : RunM Unit :=
  recordRun p.pin
    { sql := p.queryText, kind, action, status, durationMs, error,
      rowCount := rowCount.map (i64 ·), origin := p.historyOrigin }

/-- The request of the operation. -/
def message : Message :=
  ⟨some p.operationId, p.pin.connectionId, .read, .read,
    .document p.query (boundedDesktopRows p.settings.maxRows)⟩

/-- The details of a success. -/
def successDetails (page : Reply) : Value :=
  .object [("durationMs", .number (.int page.durationMs)),
    ("rowCount", .number (.int page.count))]

/-- What follows an error of the query. -/
def failed (error : AppError) : RunM Reply := do
  if isCancelled error then
    dropResult (finishOperation p.operationId .cancelled (reasonDetails "user_cancelled"))
  else dropResult (finishOperation p.operationId .failed (reasonDetails error.kind))
  p.record .read "error" "error" none none error.toText
  throw error

/-- What follows a page. -/
def succeeded (page : Reply) : RunM Reply := do
  let _ ← finishOperation p.operationId .succeeded (successDetails page)
  p.record .read "read" "ok" page.count page.durationMs none
  pure page

/-- `run_desktop_read` from its claim on. -/
def runClaimed : RunM Reply := do
  reporting (connect p.pin .read)
    (fun error => do
      p.record p.kind "error" "error" none none error.toText
      reportFailed p.operationId (reasonDetails "connection_failed"))
    id
  reporting (backend true)
    (fun _ => reportFailed p.operationId (reasonDetails "document_backend_unavailable")) id
  match ← Program.attempt (withHandle p.operationId
      (guarded (request (some p.operationId) p.message))) with
  | .ok page => p.succeeded page
  | .error error => p.failed error

end PreparedRead

section

variable (x : Crates) (debug : String → String)

/-- What `run_desktop_read` takes from the stored record before it asks for the gate. -/
def loadRead (planned : OperationRecord) : AppResult StoredDesktopDocumentPayload := do
  refuseIf (planned.kind ≠ .documentRead ∨ planned.payloadSchemaVersion ≠ 1)
    (.blocked "operation is not a supported document-read plan")
  StoredDesktopDocumentPayload.fromValue planned.payload

/-- The check of `run_desktop_read` between the pin and the safety settings. -/
def checkEngine (pin : PinnedConnection) : AppResult Unit :=
  refuseIf (¬ pin.profile.engine.isDocument) (.config "connection is not a document connection")

/-- The check between the safety settings and the classification. -/
def checkRevision (planned : OperationRecord) (pin : PinnedConnection)
    (settings : SafetySettings) : AppResult Unit :=
  refuseIf ((capturePolicy x pin settings).revision ≠ planned.policyRevision)
    (.blocked "the connection or safety policy changed; create a new plan")

/-- `run_desktop_read` up to its claim. -/
def prepareDesktopRead (operationId : Uuid) : RunM PreparedRead := do
  let planned ← getOperation operationId
  let payload ← loadRead planned
  beginOperationScope
  let pin ← pinConnection planned.connectionId
  ensureOperationScope planned pin
  checkEngine pin
  let settings ← getSafety pin.connectionId
  checkRevision x planned pin settings
  let classification := Mongo.classify debug payload.query
  let prepared : PreparedRead :=
    ⟨operationId, payload.query, x.toString (queryValue payload.query), payload.historyOrigin,
      classification.kind, pin, settings⟩
  match desktopBlockedReason settings classification with
  | some reason => do
      prepared.record prepared.kind "blocked" "blocked" none none reason
      throw (.blocked reason)
  | none => pure prepared

/-- `run_desktop_read`. -/
def runDesktopRead (operationId : Uuid) : RunM Reply := do
  let prepared ← prepareDesktopRead x debug operationId
  let _ ← claimOperation operationId
  prepared.runClaimed

end

end Document

/-! ### The monitoring role -/

namespace Monitoring

/-- `monitoring_role_sql`. -/
def monitoringRoleSql (enabled : Bool) : String :=
  if enabled then "GRANT pg_monitor TO CURRENT_USER" else "REVOKE pg_monitor FROM CURRENT_USER"

/-- `StoredMonitoringPayload`. -/
structure StoredMonitoringPayload where
  enabled : Bool
  sql : String

/-- `serde_json::from_value` of the payload, which denies unknown fields. -/
def StoredMonitoringPayload.fromValue : Value → AppResult StoredMonitoringPayload
  | .object entries => do
      refuseIf (entries.any fun e => e.1 ∉ ["enabled", "sql"]) (.serialization "unknown field")
      match entries.lookup "enabled", entries.lookup "sql" with
      | some (.bool enabled), some (.string sql) => pure ⟨enabled, sql⟩
      | _, _ => throw (.serialization "missing or invalid field")
  | _ => .error (.serialization "invalid type for the payload")

/-- A role change with all the run has loaded and checked. -/
structure PreparedRole where
  operationId : Uuid
  payload : StoredMonitoringPayload
  pin : PinnedConnection

namespace PreparedRole

variable (p : PreparedRole)

/-- `record_monitoring_change`. -/
def record (status : String) (error : Option String) (approvedBy : String) : RunM Unit :=
  recordRun p.pin
    { sql := p.payload.sql, kind := .privilege,
      action := if p.payload.enabled then "monitoring:grant" else "monitoring:revoke",
      status, error, origin := "manual", approvedBy }

/-- A request of the operation. -/
def message (pool : PoolKind) (request : TargetRequest) : Message :=
  ⟨some p.operationId, p.pin.connectionId, pool, .privilege, request⟩

/-- `tokio::time::timeout` around a query, with the text of its error. -/
def timeout (message : String) (future : FutureM Reply) : RunM Reply := ExceptT.mk do
  match ← future.run.run with
  | .ok result => return result
  | .error _ => return .error (.safety message)

/-- What `set_postgres_role` checks of its grant and of the pool. -/
def checkRole (grant : ExecutionGrant) : AppResult Unit := do
  refuseIf (grant.operationId ≠ p.operationId ∨ grant.connectionId ≠ p.pin.connectionId)
    (.blocked "monitoring role change does not match its approved operation")
  refuseIf (p.pin.profile.engine ≠ .postgres)
    (.config "pg_monitor is only available for PostgreSQL connections")

/-- `set_postgres_role`. -/
def setPostgresRole (grant : ExecutionGrant) : RunM Reply := do
  p.checkRole grant
  timeout "pg_monitor role change timed out"
    (request none (p.message .write (.execute (monitoringRoleSql p.payload.enabled))))

/-- `monitoring::status` of a PostgreSQL connection. -/
def status : RunM Reply :=
  timeout "monitoring status check timed out" (request none (p.message .read .status))

/-- The details of a report that quotes its error. -/
def errorDetails (error : AppError) (reason : String) : Value :=
  .object [("error", .string error.toText), ("reason", .string reason)]

/-- The audit row before the change. -/
def auditAttempt (approvedBy : String) : RunM Unit :=
  reporting
    (auditRecord
      { connectionId := p.pin.connectionId, engine := p.pin.profile.engine, sql := p.payload.sql,
        kind := .privilege,
        action := if p.payload.enabled then "monitoring:grant:attempt"
          else "monitoring:revoke:attempt",
        approvedBy })
    (fun error => reportFailed p.operationId (errorDetails error "audit_pre_record_failed"))
    fun error => .config
      ("audit pre-record failed — refusing to change pg_monitor: " ++ error.toText)

/-- What follows an error of the role change. -/
def failed (error : AppError) (approvedBy : String) : RunM Reply := do
  p.record "error" error.toText approvedBy
  dropResult (finishOperation p.operationId .outcomeUnknown
    (errorDetails error "monitoring_role_execution_failed"))
  throw error

/-- The details of a success. -/
def successDetails : Value :=
  .object [("enabled", .bool p.payload.enabled), ("role", .string "pg_monitor")]

/-- What follows the role change. -/
def succeeded (approvedBy : String) : RunM Reply := do
  p.record "ok" none approvedBy
  match ← Program.attempt (finishOperation p.operationId .succeeded p.successDetails) with
  | .error error => do
      dropResult (finishOperation p.operationId .outcomeUnknown
        (reasonDetails "local_receipt_failed"))
      throw error
  | .ok _ => p.status

/-- `run_postgres_role` from its claim on. -/
def runClaimed (approvedBy : String) (grant : ExecutionGrant) : RunM Reply := do
  p.auditAttempt approvedBy
  reporting (connect p.pin .write)
    (fun error => do
      p.record "error" error.toText approvedBy
      reportFailed p.operationId (errorDetails error "target_connection_failed"))
    id
  reporting (backend false)
    (fun error => reportFailed p.operationId (errorDetails error "target_pool_unavailable")) id
  match ← Program.attempt (p.setPostgresRole grant) with
  | .ok _ => p.succeeded approvedBy
  | .error error => p.failed error approvedBy

end PreparedRole

section

variable (x : Crates)

/-- What `run_postgres_role` takes from the stored record before it asks for the gate. -/
def loadRole (planned : OperationRecord) : AppResult StoredMonitoringPayload := do
  refuseIf (planned.payloadSchemaVersion ≠ 1 ∨ planned.kind ≠ .privilege)
    (.blocked "operation is not a PostgreSQL monitoring-role proposal")
  let payload ← StoredMonitoringPayload.fromValue planned.payload
  refuseIf (payload.sql ≠ monitoringRoleSql payload.enabled)
    (.blocked "stored monitoring operation does not match the fixed role action")
  pure payload

/-- The checks between the pin and the safety settings. -/
def checkPin (planned : OperationRecord) (pin : PinnedConnection) : AppResult Unit := do
  ensureOperationScope planned pin
  refuseIf (¬ pin.profile.workspaceAccess.canWrite)
    (.blocked "your workspace role no longer grants monitoring changes")
  refuseIf (pin.profile.engine ≠ .postgres)
    (.config "pg_monitor is only available for PostgreSQL connections")

/-- The checks between the safety settings and the claim. -/
def checkSettings (planned : OperationRecord) (pin : PinnedConnection)
    (settings : SafetySettings) : AppResult Unit := do
  refuseIf (¬ settings.allowWrites) (.blocked "writes are disabled for this connection")
  refuseIf ((capturePolicy x pin settings).revision ≠ planned.policyRevision)
    (.blocked "the connection or safety policy changed; create a new proposal")

/-- `run_postgres_role` up to its claim. -/
def preparePostgresRole (operationId : Uuid) : RunM PreparedRole := do
  let planned ← getOperation operationId
  let payload ← loadRole planned
  beginOperationScope
  let pin ← pinConnection planned.connectionId
  checkPin planned pin
  let settings ← getSafety pin.connectionId
  checkSettings x planned pin settings
  pure ⟨operationId, payload, pin⟩

/-- `run_postgres_role`. -/
def runPostgresRole (operationId : Uuid) : RunM Reply := do
  let prepared ← preparePostgresRole x operationId
  let claimed ← claimOperation operationId
  prepared.runClaimed claimed.record.actor.id claimed.grant

end

end Monitoring

end Runs
end AgentDb
