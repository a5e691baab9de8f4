import AgentDb.Operations.Model
import AgentDb.Safety.L1Parse
import AgentDb.Store.Safety

/-!
# The policy of an operation: `services/operation_service.rs`

`capture_policy` is what a proposal keeps of the connection and its safety settings: a JSON text
and its canonical hash. A run compares the hash, and the scope the operation was proposed in.
-/

namespace AgentDb
namespace Services

open Json Operations Store

/-! ### The captured policy -/

/-- `WorkspaceConnectionAccess` as its serializer writes it. -/
def accessText : WorkspaceConnectionAccess → String
  | .view => "view"
  | .read => "read"
  | .write => "write"
  | .manage => "manage"
  | .local_ => "local"

/-- `WorkspaceCredentialMode` as its serializer writes it. -/
def credentialModeText : WorkspaceCredentialMode → String
  | .local_ => "local"
  | .memberLocal => "memberLocal"
  | .managed => "managed"

/-- `serde_json::to_value` of the settings. -/
def safetyValue (s : SafetySettings) : Value :=
  .object [("requireApproval", .bool s.requireApproval), ("allowWrites", .bool s.allowWrites),
    ("wrapWritesInTx", .bool s.wrapWritesInTx), ("explainPreview", .bool s.explainPreview),
    ("autoRunReads", .bool s.autoRunReads), ("maxRows", .number (.int s.maxRows)),
    ("execPreviewRowLimit", .number (.int s.execPreviewRowLimit))]

/-- `CapturedOperationPolicy`. -/
structure CapturedOperationPolicy where
  snapshot : Value
  revision : String

/-- `capture_policy`. -/
def capturePolicy (x : Crates) (pin : PinnedConnection) (settings : SafetySettings) :
    CapturedOperationPolicy :=
  let snapshot : Value := .object [
    ("accountScope", .string pin.scope.accountScope.storageKey),
    ("bindingRevision", .number (.int pin.bindingRevision)),
    ("bindingUpdatedAt", .string pin.bindingUpdatedAt),
    ("connectionRevision", .number (.int pin.connectionRevision)),
    ("credentialMode", .string (credentialModeText pin.profile.credentialMode)),
    ("environment", (pin.profile.env.map .string).getD .null),
    ("safety", safetyValue settings),
    ("scopeGeneration", .number (.int pin.scope.generation)),
    ("workspaceAccess", .string (accessText pin.profile.workspaceAccess)),
    ("workspaceId", .string pin.scope.workspaceId.toText)]
  ⟨snapshot, canonicalHash x snapshot⟩

/-- `ensure_operation_scope`. -/
def ensureOperationScope (record : OperationRecord) (pin : PinnedConnection) : AppResult Unit :=
  refuseIf (record.workspaceId ≠ pin.scope.workspaceId ∨
      record.accountScope ≠ pin.scope.accountScope.storageKey ∨
      record.connectionId ≠ pin.connectionId ∨
      record.connectionRevision ≠ pin.connectionRevision)
    (.blocked ("operation scope or connection revision changed after the proposal " ++
      "was created"))

/-- `operation_kind` of `query_service.rs`. -/
def operationKind : QueryKind → OperationKind
  | .read => .readQuery
  | .write => .writeSql
  | .ddl => .ddl
  | .privilege => .privilege

end Services
end AgentDb
