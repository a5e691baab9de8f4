import AgentDb.Runs.DesktopSql
import AgentDb.SqlScript.Split

/-!
# `run_desktop` of a script as a program: `services/script_service.rs`

A script of reads runs statement by statement, each under a cancellation handle of its own. A
script with a write runs as one transaction under one handle.
-/

namespace AgentDb
namespace Runs

open Connection Executor Json Operations Safety Services SqlScript Store
open Services.ScopeGate (StoredDesktopSqlPayload)

namespace Script

/-- `StoredDesktopScriptPayload`, which has the fields of `StoredDesktopSqlPayload`. -/
abbrev StoredDesktopScriptPayload := StoredDesktopSqlPayload

/-- `ScriptStatement`; of a result page its row count. -/
structure ScriptStatement where
  sql : String
  rowCount : Option ℕ := none
  affected : Option ℕ := none
  error : Option String := none

/-- `ScriptOutcome`. -/
structure ScriptOutcome where
  statements : List ScriptStatement
  committed : Bool
  allReads : Bool

/-- `statement_ok`. -/
def statementOk (sql : String) (affected : ℕ) : ScriptStatement :=
  { sql, affected := some affected }

/-- `statement_error`. -/
def statementError (sql message : String) : ScriptStatement := { sql, error := some message }

/-- `statement_skipped`. -/
def statementSkipped (sql : String) : ScriptStatement :=
  statementError sql "skipped — transaction rolled back"

/-- `script_has_write`. -/
def scriptHasWrite (kinds : List QueryKind) : Bool := kinds.any fun kind => kind ≠ .read

/-- `PreparedScriptRun`, before its claim. -/
structure PreparedScriptRun where
  operationId : Uuid
  pin : PinnedConnection
  payload : StoredDesktopScriptPayload
  statements : List String
  kinds : List QueryKind
  settings : SafetySettings

namespace PreparedScriptRun

variable (p : PreparedScriptRun)

/-- `record_script_run`. -/
def record (kind : QueryKind) (action status : String) (rowCount : Option ℤ)
    (error : Option String) : RunM Unit :=
  recordRun p.pin
    { sql := p.payload.sql, kind, action, status, rowCount, error,
      origin := p.payload.historyOrigin }

/-- The kind a script with a write is recorded under. -/
def scriptKind : QueryKind :=
  if .ddl ∈ p.kinds then .ddl else if .privilege ∈ p.kinds then .privilege else .write

/-- A request of the operation. -/
def message (kind : QueryKind) (pool : PoolKind) (request : TargetRequest) : Message :=
  ⟨some p.operationId, p.pin.connectionId, pool, kind, request⟩

/-! ### Scripts of reads -/

/-- `executor::run_read` of one statement. -/
def runRead (statement : String) : RunM Reply :=
  withHandle p.operationId (guarded
    (request (some p.operationId) (p.message .read .read (.fetch statement p.settings.maxRows))))

/-- The loop of `run_reads`: the first failure skips the rest. -/
def readStatements : List String → RunM (List ScriptStatement × Option String)
  | [] => pure ([], none)
  | statement :: rest => do
      match ← Program.attempt (p.runRead statement) with
      | .ok reply => do
          let (outcomes, failure) ← readStatements rest
          pure ({ sql := statement, rowCount := some reply.count } :: outcomes, failure)
      | .error error =>
          pure (statementError statement error.toText :: rest.map statementSkipped,
            some error.toText)

/-- The rows of all statements. -/
def totalRows (outcomes : List ScriptStatement) : ℤ :=
  i64 (outcomes.filterMap (·.rowCount)).sum

/-- The rows affected by all statements. -/
def totalAffected (outcomes : List ScriptStatement) : ℤ :=
  i64 (outcomes.filterMap (·.affected)).sum

/-- The details of a script that succeeded. -/
def successDetails (total : ℤ) : Value :=
  .object [("rowCount", .number (.int total)),
    ("statementCount", .number (.int (usize p.statements.length)))]

/-- `run_reads`. -/
def runReads : RunM ScriptOutcome := do
  reporting (connect p.pin .read)
    (fun error => do
      p.record .read "script:execute" "error" none error.toText
      reportFailed p.operationId (reasonDetails "connection_failed"))
    id
  reporting (backend false)
    (fun _ => reportFailed p.operationId (reasonDetails "sql_backend_unavailable")) id
  let (outcomes, failure) ← p.readStatements p.statements
  p.record .read "script:execute" (if failure.isSome then "error" else "ok")
    (totalRows outcomes) failure
  let _ ← match failure with
    | some _ => finishOperation p.operationId .failed (reasonDetails "script_statement_failed")
    | none => finishOperation p.operationId .succeeded (p.successDetails (totalRows outcomes))
  pure ⟨outcomes, false, true⟩

/-! ### Scripts with a write -/

/-- The statements of `execute_script_transaction`, up to the first that fails. -/
def executeStatements : List String → FutureM (List ScriptStatement × Bool)
  | [] => pure ([], true)
  | statement :: rest => do
      match ← tried (request (some p.operationId)
          (p.message p.scriptKind .write (.execute statement))) with
      | .ok reply => do
          let (outcomes, succeeded) ← executeStatements rest
          pure (statementOk statement reply.count :: outcomes, succeeded)
      | .error error => pure ([statementError statement (driverText error)], false)

/-- `execute_script_transaction`, after the check of its grant. -/
def executeScriptTransaction : FutureM (List ScriptStatement × Bool) := do
  match ← tried (request (some p.operationId) (p.message p.scriptKind .write .begin)) with
  | .error error => pure (p.statements.map fun statement =>
      statementError statement ("could not begin transaction: " ++ driverText error), false)
  | .ok _ => do
      let (outcomes, succeeded) ← p.executeStatements p.statements
      if succeeded then
        match ← tried (request (some p.operationId) (p.message p.scriptKind .write .commit)) with
        | .error error => throw (.outcomeUnknown
            ("script commit acknowledgement failed: " ++ driverText error))
        | .ok _ => pure (outcomes, true)
      else
        match ← tried (request (some p.operationId) (p.message p.scriptKind .write .rollback)) with
        | .error error => throw (.outcomeUnknown
            ("script rollback acknowledgement failed: " ++ driverText error))
        | .ok _ =>
            let skipped := (p.statements.drop outcomes.length).map statementSkipped
            pure (outcomes ++ skipped, false)

/-- The checks at the start of `run_write`: the operation is claimed already. -/
def checkRole : AppResult Unit :=
  refuseIf (¬ p.pin.profile.workspaceAccess.canWrite)
    (.blocked "your workspace role grants read-only database access")

/-- The reason `run_write` gives when the settings allow no writes. -/
def writesDisabled : String :=
  "writing is disabled for this connection (writes are off by default). " ++
    "Enable writes in the connection's safety settings to run this script."

/-- The check of the grant at the start of `execute_script_transaction`. -/
def checkGrant (grant : ExecutionGrant) : AppResult Unit :=
  refuseIf (grant.operationId ≠ p.operationId)
    (.blocked "script transaction scope does not match its approved operation")

/-- The audit row before the transaction. -/
def auditAttempt (approvedBy : String) : RunM Unit :=
  reporting
    (auditRecord
      { connectionId := p.pin.connectionId, engine := p.pin.profile.engine, sql := p.payload.sql,
        kind := p.scriptKind, action := "script:execute:attempt", approvedBy })
    (fun _ => reportFailed p.operationId (reasonDetails "audit_pre_record_failed"))
    fun error => .config ("audit pre-record failed — refusing to run script: " ++ error.toText)

/-- A step that has to succeed before the transaction can begin. -/
def needed (step : RunM Unit) (reason : String) : RunM Unit :=
  reporting step
    (fun error => do
      p.record p.scriptKind "script:execute" "error" none error.toText
      reportFailed p.operationId (reasonDetails reason))
    id

/-- The error of a transaction as it is reported: an interrupted one is of unknown outcome. -/
def transactionError (error : AppError) : AppError :=
  if isCancelled error || isTimedOut error then
    .outcomeUnknown ("script execution was interrupted before rollback or commit could be " ++
      "confirmed: " ++ error.toText)
  else error

/-- What follows an error of the transaction. -/
def failed (error : AppError) : RunM ScriptOutcome := do
  let error := transactionError error
  p.record p.scriptKind "script:execute" "error" none error.toText
  if isOutcomeUnknown error then
    dropResult (finishOperation p.operationId .outcomeUnknown
      (reasonDetails "target_outcome_unconfirmed"))
  else dropResult (finishOperation p.operationId .failed (reasonDetails error.kind))
  throw error

/-- MySQL may have committed a part of the script on its own. -/
def mayHaveCommitted : Bool :=
  p.pin.profile.engine = .mysql && p.kinds.any fun kind => kind = .ddl || kind = .privilege

/-- The error of a script that was rolled back, as far as MySQL does so. -/
def implicitCommit : AppError :=
  .outcomeUnknown ("MySQL may implicitly commit DDL or privilege statements before a later " ++
    "script statement fails")

/-- What follows a transaction that was committed or rolled back. -/
def settled (outcomes : List ScriptStatement) (committed : Bool) : RunM ScriptOutcome := do
  if committed ∧ .ddl ∈ p.kinds then dropResult (clearSchemaCache p.pin.connectionId p.operationId)
  let total := totalAffected outcomes
  p.record p.scriptKind "script:execute" (if committed then "ok" else "error") total
    (outcomes.findSome? (·.error))
  let lifecycle ← Program.attempt
    (if committed then finishOperation p.operationId .succeeded (p.successDetails total)
    else finishOperation p.operationId .failed (reasonDetails "script_transaction_rolled_back"))
  match lifecycle with
  | .error error => do
      if committed then dropResult (finishOperation p.operationId .outcomeUnknown
        (reasonDetails "local_receipt_failed"))
      throw error
  | .ok _ => pure ⟨outcomes, committed, false⟩

/-- What follows a transaction that ended by itself. -/
def ended (outcomes : List ScriptStatement) (committed : Bool) : RunM ScriptOutcome := do
  if ¬ committed ∧ p.mayHaveCommitted then
    p.record p.scriptKind "script:execute" "outcome_unknown" none implicitCommit.toText
    dropResult (finishOperation p.operationId .outcomeUnknown
      (reasonDetails "mysql_implicit_commit_unconfirmed"))
    throw implicitCommit
  else p.settled outcomes committed

/-- `run_write` from the audit row on. -/
def runTransaction (approvedBy : String) (grant : ExecutionGrant) : RunM ScriptOutcome := do
  p.auditAttempt approvedBy
  p.needed (connect p.pin .write) "connection_failed"
  p.needed (backend false) "sql_backend_unavailable"
  match ← Program.attempt (withHandle p.operationId
      (guarded do p.checkGrant grant; p.executeScriptTransaction)) with
  | .ok (outcomes, committed) => p.ended outcomes committed
  | .error error => p.failed error

/-- `run_write`. -/
def runWrite (approvedBy : String) (grant : ExecutionGrant) : RunM ScriptOutcome := do
  p.checkRole
  if p.settings.allowWrites then p.runTransaction approvedBy grant
  else
    p.record .write "blocked" "blocked" none writesDisabled
    throw (.blocked writesDisabled)

end PreparedScriptRun

/-! ### The entry point -/

section

variable (x : Crates) (parseSql : Engine → String → Except String (List Statement))

/-- What `run_desktop` takes from the stored record before it asks for the gate. -/
def loadScript (planned : OperationRecord) : AppResult StoredDesktopScriptPayload := do
  refuseIf (planned.payloadSchemaVersion ≠ 1 ∨
      planned.kind ∉ [OperationKind.readQuery, .sqlScript])
    (.blocked "operation is not a supported SQL script proposal")
  StoredDesktopSqlPayload.fromValue planned.payload

/-- The checks of `run_desktop` between the safety settings and the claim. -/
def checkScript (operationId : Uuid) (planned : OperationRecord)
    (payload : StoredDesktopScriptPayload) (pin : PinnedConnection) (settings : SafetySettings) :
    AppResult PreparedScriptRun := do
  refuseIf ((capturePolicy x pin settings).revision ≠ planned.policyRevision)
    (.blocked "the connection or safety policy changed; create a new proposal")
  let engine := pin.profile.engine
  let statements := splitStatements payload.sql engine
  refuseIf (statements = []) (.config "no executable statements in the script")
  let classifications ← statements.mapM fun statement => classify parseSql statement engine
  let kinds := classifications.map (·.kind)
  refuseIf (QueryKind.privilege ∈ kinds)
    (.blocked "stored script contains blocked arbitrary privilege SQL")
  refuseIf (planned.kind ≠ if scriptHasWrite kinds then .sqlScript else .readQuery)
    (.blocked "stored script classification no longer matches its proposal")
  pure ⟨operationId, pin, payload, statements, kinds, settings⟩

/-- `run_desktop` up to its claim. -/
def prepareDesktop (operationId : Uuid) : RunM (PreparedScriptRun × String) := do
  let planned ← getOperation operationId
  let payload ← loadScript planned
  beginOperationScope
  let pin ← pinConnection planned.connectionId
  ensureOperationScope planned pin
  let settings ← getSafety pin.connectionId
  let prepared ← checkScript x parseSql operationId planned payload pin settings
  pure (prepared, planned.actor.id)

/-- `run_desktop`. -/
def runDesktop (operationId : Uuid) : RunM ScriptOutcome := do
  let (prepared, approvedBy) ← prepareDesktop x parseSql operationId
  let claimed ← claimOperation operationId
  if scriptHasWrite prepared.kinds then prepared.runWrite approvedBy claimed.grant
  else prepared.runReads

end

end Script
end Runs
end AgentDb
