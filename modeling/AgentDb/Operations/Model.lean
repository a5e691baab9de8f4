import AgentDb.Operations.Canonicalize
import AgentDb.Operations.StateMachine
import AgentDb.Scalars

/-!
# The durable operation models: `operations/model.rs` and the tables of `store/migrations.rs`

`NewOperation` is what an adapter submits, `OperationRecord` the projection the application
works with, and `OperationRow`, `OperationEventRow` the rows SQLite keeps. JSON columns hold
text, as in the tables. A column with a fixed vocabulary holds the value itself: the texts of
the vocabularies are pairwise different, so reading one back is exact. The same goes for the
identifiers and the time stamps, whose texts are shown to determine them in `Scalars`.
-/

namespace AgentDb
namespace Operations

open Json

/-- `OperationActorProvenance`. -/
structure OperationActorProvenance where
  localAccountId : Option String := none
  workspaceAccountId : Option String := none
  agentProvider : Option String := none
  agentModel : Option String := none
  pluginId : Option String := none
  pluginVersion : Option String := none
  clientProtocolVersion : Option UInt16 := none
  originSurface : String
  deriving DecidableEq

/-- An optional field as its serializer writes it: left out when absent. -/
def optionalEntry (key : String) : Option Value → List (String × Value)
  | none => []
  | some v => [(key, v)]

/-- `serde_json::to_value` of the provenance. -/
def OperationActorProvenance.toValue (p : OperationActorProvenance) : Value :=
  .object (optionalEntry "localAccountId" (p.localAccountId.map .string) ++
    optionalEntry "workspaceAccountId" (p.workspaceAccountId.map .string) ++
    optionalEntry "agentProvider" (p.agentProvider.map .string) ++
    optionalEntry "agentModel" (p.agentModel.map .string) ++
    optionalEntry "pluginId" (p.pluginId.map .string) ++
    optionalEntry "pluginVersion" (p.pluginVersion.map .string) ++
    optionalEntry "clientProtocolVersion"
      (p.clientProtocolVersion.map fun n => .number (.int n.toNat)) ++
    [("originSurface", .string p.originSurface)])

/-- An optional text field as its deserializer reads it: absent and `null` are both `None`. -/
def readOptionalString (entries : List (String × Value)) (key : String) :
    AppResult (Option String) :=
  match entries.lookup key with
  | none | some .null => .ok none
  | some (.string s) => .ok (some s)
  | some _ => .error (.serialization ("invalid type for " ++ key))

/-- `serde_json::from_value` of the provenance, which denies unknown fields. -/
def OperationActorProvenance.fromValue : Value → AppResult OperationActorProvenance
  | .object entries => do
      let known := ["localAccountId", "workspaceAccountId", "agentProvider", "agentModel",
        "pluginId", "pluginVersion", "clientProtocolVersion", "originSurface"]
      if entries.any (fun e => e.1 ∉ known) then throw (.serialization "unknown field")
      let localAccountId ← readOptionalString entries "localAccountId"
      let workspaceAccountId ← readOptionalString entries "workspaceAccountId"
      let agentProvider ← readOptionalString entries "agentProvider"
      let agentModel ← readOptionalString entries "agentModel"
      let pluginId ← readOptionalString entries "pluginId"
      let pluginVersion ← readOptionalString entries "pluginVersion"
      let clientProtocolVersion ← match entries.lookup "clientProtocolVersion" with
        | none | some .null => .ok none
        | some (.number (.int n)) =>
            if 0 ≤ n ∧ n < 65536 then .ok (some (UInt16.ofNat n.toNat))
            else .error (.serialization "invalid value for clientProtocolVersion")
        | some _ => .error (.serialization "invalid type for clientProtocolVersion")
      let originSurface ← match entries.lookup "originSurface" with
        | some (.string s) => .ok s
        | _ => .error (.serialization "missing field originSurface")
      return { localAccountId, workspaceAccountId, agentProvider, agentModel, pluginId,
               pluginVersion, clientProtocolVersion, originSurface }
  | _ => .error (.serialization "invalid type for the provenance")

/-- `OperationActor`. -/
structure OperationActor where
  kind : OperationActorKind
  id : String
  provenance : OperationActorProvenance
  deriving DecidableEq

/-- `NewOperation`. -/
structure NewOperation where
  id : Uuid
  workspaceId : Uuid
  accountScope : String
  connectionId : Uuid
  connectionRevision : ℤ
  terminalSessionId : Option Uuid
  actor : OperationActor
  kind : OperationKind
  payloadSchemaVersion : UInt32
  payload : Value
  schemaFingerprint : Option String
  riskLevel : OperationRiskLevel
  preview : Value
  policySnapshot : Value
  policyRevision : String
  singleUse : Bool
  idempotencyKey : String
  expiresAt : Option DateTime

/-- `OperationApprovalDecision`. -/
inductive OperationApprovalDecision
  | approved
  | rejected
  deriving DecidableEq

/-- `OperationApprover`. -/
structure OperationApprover where
  kind : OperationActorKind
  id : String
  deriving DecidableEq

/-- `OperationApprovalCommand`. -/
structure OperationApprovalCommand where
  operationId : Uuid
  runtimeId : Uuid
  expectedPayloadHash : String
  approver : OperationApprover
  decision : OperationApprovalDecision
  reason : Option String
  currentPolicyRevision : String
  now : DateTime

/-- `OperationApprovalRecord`, also the row of `operation_approvals`. -/
structure OperationApprovalRecord where
  id : Uuid
  operationId : Uuid
  payloadHash : String
  approver : OperationApprover
  decision : OperationApprovalDecision
  reason : Option String
  policyRevision : String
  createdAt : DateTime
  expiresAt : Option DateTime

/-- `OperationRecord`, the projection loaded from the table. -/
structure OperationRecord where
  id : Uuid
  runtimeId : Uuid
  workspaceId : Uuid
  accountScope : String
  connectionId : Uuid
  connectionRevision : ℤ
  terminalSessionId : Option Uuid
  actor : OperationActor
  kind : OperationKind
  payloadSchemaVersion : UInt32
  payload : Value
  payloadHash : String
  schemaFingerprint : Option String
  riskLevel : OperationRiskLevel
  preview : Value
  policySnapshot : Value
  policyRevision : String
  state : OperationState
  singleUse : Bool
  idempotencyKey : String
  expiresAt : Option DateTime
  startedAt : Option DateTime
  finishedAt : Option DateTime
  createdAt : DateTime
  updatedAt : DateTime

/-- `OperationEventRecord`. -/
structure OperationEventRecord where
  id : Uuid
  operationId : Uuid
  sequence : ℕ
  kind : OperationEventKind
  state : OperationState
  details : Value
  createdAt : DateTime
  prevHash : Option String
  hash : String

/-- `RestartRecoveryReport`. -/
structure RestartRecoveryReport where
  expired : List Uuid := []
  failed : List Uuid := []
  outcomeUnknown : List Uuid := []
  checkpointValidationRequired : List Uuid := []
  deriving DecidableEq

/-! ### The rows -/

/-- A row of `operations`. -/
structure OperationRow where
  id : Uuid
  runtimeId : Uuid
  workspaceId : Uuid
  accountScope : String
  connectionId : Uuid
  connectionRevision : ℤ
  terminalSessionId : Option Uuid
  actorKind : OperationActorKind
  actorId : String
  actorProvenanceJson : String
  kind : OperationKind
  payloadSchemaVersion : UInt32
  payloadJson : String
  payloadHash : String
  schemaFingerprint : Option String
  riskLevel : OperationRiskLevel
  previewJson : String
  policySnapshotJson : String
  policyRevision : String
  state : OperationState
  singleUse : Bool
  idempotencyKey : String
  expiresAt : Option DateTime
  startedAt : Option DateTime
  finishedAt : Option DateTime
  createdAt : DateTime
  updatedAt : DateTime
  deriving DecidableEq

/-- A row of `operation_events`. -/
structure OperationEventRow where
  id : Uuid
  operationId : Uuid
  sequence : ℕ
  kind : OperationEventKind
  state : OperationState
  eventJson : String
  createdAt : DateTime
  prevHash : Option String
  hash : String
  deriving DecidableEq

/-- The three tables of the operation runtime, rows in insertion order. -/
structure Tables where
  operations : List OperationRow := []
  approvals : List OperationApprovalRecord := []
  events : List OperationEventRow := []

/-! ### The stored vocabularies -/

/-- `actor_kind_str`. -/
def actorKindStr : OperationActorKind → String
  | .localUser => "local_user"
  | .workspaceUser => "workspace_user"
  | .agent => "agent"
  | .plugin => "plugin"
  | .system => "system"

/-- `operation_kind_str`. -/
def operationKindStr : OperationKind → String
  | .readQuery => "read_query"
  | .documentRead => "document_read"
  | .writeSql => "write_sql"
  | .ddl => "ddl"
  | .privilege => "privilege"
  | .sqlScript => "sql_script"
  | .tableDataChange => "table_data_change"
  | .schemaChange => "schema_change"
  | .import => "import"
  | .export => "export"
  | .migration => "migration"
  | .dashboardCreate => "dashboard_create"
  | .pluginAction => "plugin_action"
  | .providerAction => "provider_action"

/-- `approval_decision_str`. -/
def approvalDecisionStr : OperationApprovalDecision → String
  | .approved => "approved"
  | .rejected => "rejected"

/-- `risk_level_str`. -/
def riskLevelStr : OperationRiskLevel → String
  | .low => "low"
  | .medium => "medium"
  | .high => "high"
  | .critical => "critical"

/-- `state_str`. -/
def stateStr : OperationState → String
  | .planned => "planned"
  | .pendingApproval => "pending_approval"
  | .ready => "ready"
  | .approved => "approved"
  | .rejected => "rejected"
  | .expired => "expired"
  | .cancelled => "cancelled"
  | .executing => "executing"
  | .succeeded => "succeeded"
  | .failed => "failed"
  | .outcomeUnknown => "outcome_unknown"

/-- `event_kind_str`. -/
def eventKindStr : OperationEventKind → String
  | .proposed => "proposed"
  | .planned => "planned"
  | .approvalRequested => "approval_requested"
  | .approved => "approved"
  | .rejected => "rejected"
  | .executionStarted => "execution_started"
  | .progress => "progress"
  | .succeeded => "succeeded"
  | .failed => "failed"
  | .cancelled => "cancelled"
  | .outcomeUnknown => "outcome_unknown"
  | .expired => "expired"

/-- **A stored vocabulary text determines its value**, so the typed columns lose nothing. -/
theorem vocabulary_injective : Function.Injective actorKindStr ∧
    Function.Injective operationKindStr ∧ Function.Injective approvalDecisionStr ∧
    Function.Injective riskLevelStr ∧ Function.Injective stateStr ∧
    Function.Injective eventKindStr := by
  refine ⟨?_, ?_, ?_, ?_, ?_, ?_⟩ <;> intro a b h <;> cases a <;> cases b <;>
    first | rfl | exact absurd h (by decide)

end Operations
end AgentDb
