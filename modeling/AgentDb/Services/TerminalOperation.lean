import AgentDb.Operations.Runtime
import AgentDb.Services.ConnectionService

/-!
# Operations as a Terminal sees them: `services/operation_service.rs`

A Terminal is shown the operations of its own session and scope, and of those a summary.
-/

namespace AgentDb
namespace Services

open Operations

/-- `ensure_terminal_scope`. -/
def ensureTerminalScope (record : OperationRecord) (scope : TerminalAuthority) : AppResult Unit :=
  refuseIf (¬ (record.terminalSessionId = some scope.terminalSessionId ∧
      record.workspaceId = scope.workspaceId ∧ record.accountScope = scope.accountScope ∧
      record.connectionId = scope.connectionId ∧
      record.connectionRevision = scope.connectionRevision))
    (.blocked "operation belongs to a different Terminal or connection scope")

/-- `OperationSummary`. -/
structure OperationSummary where
  operationId : Uuid
  connectionId : Uuid
  kind : OperationKind
  state : OperationState
  riskLevel : OperationRiskLevel
  payloadHash : String
  expiresAt : Option DateTime
  startedAt : Option DateTime
  finishedAt : Option DateTime
  createdAt : DateTime
  updatedAt : DateTime

/-- `operation_summary`. -/
def operationSummary (record : OperationRecord) : OperationSummary where
  operationId := record.id
  connectionId := record.connectionId
  kind := record.kind
  state := record.state
  riskLevel := record.riskLevel
  payloadHash := record.payloadHash
  expiresAt := record.expiresAt
  startedAt := record.startedAt
  finishedAt := record.finishedAt
  createdAt := record.createdAt
  updatedAt := record.updatedAt

/-- `show_terminal`. -/
def showTerminal (x : Crates) (scope : TerminalAuthority) (operationId : Uuid) (t : Tables) :
    AppResult OperationSummary := do
  let record ← t.get x operationId
  ensureTerminalScope record scope
  pure (operationSummary record)

end Services
end AgentDb
