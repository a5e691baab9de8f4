import AgentDb.Runs.Call
import AgentDb.Services.QueryService
import AgentDb.Services.ScopeGate

/-!
# `run_desktop_sql` as a program: `services/query_service.rs`

The whole entry point, await by await, with the executors it calls. What it computes between two
awaits is shared with the other models of the function: the checks before the claim with
`Services.ScopeGate`, the verdict on an error with `Services.QueryService`.
-/

namespace AgentDb
namespace Runs

open Connection Executor Json Operations Safety Services Store
open Services.ScopeGate (StoredDesktopSqlPayload PolicyCheck loadProposal checkPolicy)

/-- `let _ = ...`: the call is made and its result dropped. -/
def dropResult {α : Type} (step : RunM α) : RunM Unit := do
  let _ ← Program.attempt step
  pure ()

/-- A step whose error is reported before it is returned. -/
def reporting {α : Type} (step : RunM α) (report : AppError → RunM Unit)
    (wrap : AppError → AppError) : RunM α := do
  match ← Program.attempt step with
  | .ok a => pure a
  | .error error => do
      report error
      throw (wrap error)

/-- The call that reports a failure. -/
def reportFailed (operationId : Uuid) (details : Value) : RunM Unit :=
  dropResult (finishOperation operationId .failed details)

section

variable (x : Crates) (parseSql : Engine → String → Except String (List Statement))

/-! ### Before the claim -/

/-- The checks of `run_desktop_sql` between the safety settings and the gate of `safety::decide`. -/
def checkProposal (planned : OperationRecord) (payload : StoredDesktopSqlPayload)
    (pin : PinnedConnection) (settings : SafetySettings) : AppResult Classification := do
  refuseIf ((capturePolicy x pin settings).revision ≠ planned.policyRevision)
    (.blocked "the connection or safety policy changed; create a new proposal")
  let classification ← classify parseSql payload.sql pin.profile.engine
  refuseIf (operationKind classification.kind ≠ planned.kind)
    (.blocked "stored SQL classification no longer matches its immutable proposal")
  let access := pin.profile.workspaceAccess
  refuseIf (¬ if classification.kind ≠ .read then access.canWrite else access.canRead)
    (.blocked "your workspace role no longer grants this database access")
  pure classification

/-- A statement that is to be run, with all the run has loaded and checked. -/
structure PreparedSql where
  operationId : Uuid
  sql : String
  historyOrigin : String
  pin : PinnedConnection
  settings : SafetySettings
  classification : Classification

namespace PreparedSql

variable (p : PreparedSql)

def isWrite : Bool := p.classification.kind ≠ .read

/-- `record_desktop_run`. -/
def record (action status : String) (rowCount durationMs : Option ℕ) (error : Option String) :
    RunM Unit :=
  recordRun p.pin
    { sql := p.sql, kind := p.classification.kind, action, status, durationMs, error,
      rowCount := rowCount.map (i64 ·), origin := p.historyOrigin }

/-- A request of the operation. -/
def message (pool : PoolKind) (request : TargetRequest) : Message :=
  ⟨some p.operationId, p.pin.connectionId, pool, p.classification.kind, request⟩

/-! ### The executors -/

/-- `run_read_registered`. -/
def runReadRegistered : RunM ExecOutcome := do
  let reply ← guarded
    (request (some p.operationId) (p.message .read (.fetch p.sql p.settings.maxRows)))
  pure { rowCount := some reply.count, durationMs := some reply.durationMs, committed := false }

/-- The future of `run_write`. -/
def writeFuture : FutureM ℕ := do
  let _ ← request (some p.operationId) (p.message .write .begin)
  let reply ← request (some p.operationId) (p.message .write (.execute p.sql))
  match ← tried (request (some p.operationId) (p.message .write .commit)) with
  | .ok _ => pure reply.count
  | .error error => throw (commitUnacknowledged p.pin.profile.engine error)

/-- What `run_write` checks of its grant and of the settings. -/
def checkWrite (grant : ExecutionGrant) : AppResult Unit := do
  refuseIf (p.operationId ≠ grant.operationId)
    (.blocked "write cancellation scope does not match its approved operation")
  refuseIf (¬ p.settings.allowWrites)
    (.blocked "writes are disabled for this connection (allow_writes = 0)")

/-- `run_write`. -/
def runWrite (grant : ExecutionGrant) : RunM ExecOutcome := do
  p.checkWrite grant
  let affected ← guarded p.writeFuture
  pure { affected := some affected, committed := true }

/-- `executor::execute`. -/
def execute (grant : ExecutionGrant) : RunM ExecOutcome :=
  match p.classification.kind with
  | .read => p.runReadRegistered
  | .write | .ddl | .privilege => p.runWrite grant

/-! ### After the claim -/

/-- The audit row before a write. -/
def auditAttempt (approvedBy : String) : RunM Unit :=
  reporting
    (auditRecord
      { connectionId := p.pin.connectionId, engine := p.pin.profile.engine, sql := p.sql,
        kind := p.classification.kind, action := "execute:attempt", approvedBy })
    (fun _ => reportFailed p.operationId (reasonDetails "audit_pre_record_failed"))
    fun error => .config ("audit pre-record failed — refusing to run write: " ++ error.toText)

/-- A step that has to succeed before the statement can be sent. -/
def needed (step : RunM Unit) (reason : String) : RunM Unit :=
  reporting step
    (fun error => do
      p.record "error" "error" none none error.toText
      reportFailed p.operationId (reasonDetails reason))
    id

/-- What follows an executed statement. -/
def succeeded (outcome : ExecOutcome) : RunM ExecOutcome := do
  match ← Program.attempt
      (finishOperation p.operationId .succeeded (successDetails outcome)) with
  | .error error => do
      dropResult (finishOperation p.operationId (if p.isWrite then .outcomeUnknown else .failed)
        (reasonDetails "local_receipt_failed"))
      throw error
  | .ok _ => do
      if p.classification.kind = .ddl ∧ outcome.committed then
        dropResult (clearSchemaCache p.pin.connectionId p.operationId)
      p.record (if outcome.committed then "execute" else "read") "ok"
        (outcome.rowCount <|> outcome.affected) outcome.durationMs none
      pure outcome

/-- What follows an error of the executor. -/
def failed (error : AppError) : RunM ExecOutcome := do
  let verdict := settle p.isWrite error
  dropResult (finishOperation p.operationId verdict.target verdict.details)
  p.record "error" "error" none none (settleError p.isWrite error).toText
  throw (settleError p.isWrite error)

/-- `run_desktop_sql` from its claim on. -/
def runClaimed (approvedBy : String) (grant : ExecutionGrant) : RunM ExecOutcome := do
  if ← isCancelledNow p.operationId then
    let _ ← finishOperation p.operationId .cancelled
      (reasonDetails "user_cancelled_before_target_access")
    throw (.safety "query cancelled")
  else
    if p.isWrite then p.auditAttempt approvedBy
    p.needed (connect p.pin (if p.isWrite then .write else .read)) "connection_failed"
    p.needed (backend false) "sql_backend_unavailable"
    match ← Program.attempt (p.execute grant) with
    | .ok outcome => p.succeeded outcome
    | .error error => p.failed error

end PreparedSql

/-- `run_desktop_sql` up to its registration for cancellation. -/
def prepareDesktopSql (operationId : Uuid) : RunM (PreparedSql × String) := do
  let planned ← getOperation operationId
  let payload ← loadProposal planned
  beginOperationScope
  let pin ← pinConnection planned.connectionId
  ensureOperationScope planned pin
  let settings ← getSafety pin.connectionId
  let classification ← checkProposal x parseSql planned payload pin settings
  let prepared : PreparedSql :=
    ⟨operationId, payload.sql, payload.historyOrigin, pin, settings, classification⟩
  match decide settings classification with
  | .block reason => do
      prepared.record "blocked" "blocked" none none reason
      throw (.blocked reason)
  | .autoRun | .requireApproval => pure (prepared, planned.actor.id)

/-- `run_desktop_sql`. -/
def runDesktopSql (operationId : Uuid) : RunM ExecOutcome := do
  let (prepared, approvedBy) ← prepareDesktopSql x parseSql operationId
  withHandle operationId do
    let claimed ← claimOperation operationId
    prepared.runClaimed approvedBy claimed.grant

/-- The checks are those of `Services.ScopeGate`, which reads the settings with them. -/
theorem checkPolicy_eq (planned : OperationRecord) (payload : StoredDesktopSqlPayload)
    (pin : PinnedConnection) (db : Database) :
    checkPolicy x parseSql planned payload pin db = (do
      let settings ← db.getSafety pin.connectionId
      let classification ← checkProposal x parseSql planned payload pin settings
      match decide settings classification with
      | .block reason => throw (.blocked reason)
      | .autoRun | .requireApproval => pure ⟨pin, settings, classification⟩) := by
  unfold checkPolicy checkProposal
  simp only [bind_assoc, pure_bind]
  all_goals rfl

end

end Runs
end AgentDb
