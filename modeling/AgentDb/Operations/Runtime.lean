import AgentDb.Operations.Repository

/-!
# The runtime facade: `operations/execute.rs` and `operations/runtime.rs`

An `ExecutionGrant` is issued for a record that `claim_execution` has just put in `executing`, and
for no other. The other methods here are the ends of an execution, all of them `transition` with
a fixed target, and the cancellation of a plan that was not claimed, which is the same call.
-/

namespace AgentDb
namespace Operations

open Json

/-- `ExecutionGrant`. -/
structure ExecutionGrant where
  operationId : Uuid
  payloadSha256 : String
  connectionId : Uuid
  deriving DecidableEq

/-- `issue`. -/
def issue (record : OperationRecord) : AppResult ExecutionGrant :=
  if record.state ≠ .executing then
    .error (.config "an execution grant requires an atomically claimed operation")
  else .ok
    { operationId := record.id
      payloadSha256 := record.payloadHash
      connectionId := record.connectionId }

/-- `ClaimedOperation`. -/
structure ClaimedOperation where
  record : OperationRecord
  grant : ExecutionGrant

variable (x : Crates) (runtimeId : Uuid)

/-- `OperationPlanDisposition`. -/
inductive OperationPlanDisposition
  | ready
  | approvalRequired
  deriving DecidableEq, Repr

/-- `disposition_str`. -/
def dispositionStr : OperationPlanDisposition → String
  | .ready => "ready"
  | .approvalRequired => "approval_required"

/-- The state a new plan is put in. -/
def OperationPlanDisposition.target : OperationPlanDisposition → OperationState
  | .ready => .ready
  | .approvalRequired => .pendingApproval

/-- `OperationRuntime::plan`. The two writes take their clock readings and identifiers in order. -/
def plan (operation : NewOperation) (disposition : OperationPlanDisposition)
    (clock : ℕ → DateTime) (eventIds : ℕ → Uuid) (t : Tables) : AppResult OperationRecord × Tables :=
  if operation.kind.mayMutateTarget ∧ disposition ≠ .approvalRequired then
    (.error (.blocked "target-mutating operations always require an exact approval"), t)
  else
    match insertPlanned x runtimeId operation (clock 0) (eventIds 0) t with
    | (.error e, t) => (.error e, t)
    | (.ok planned, t) =>
        if planned.state ≠ .planned then (.ok planned, t)
        else transition x planned.id runtimeId disposition.target
          (.object [("disposition", .string (dispositionStr disposition))]) (clock 1) (eventIds 1) t

/-- `OperationRuntime::claim`. -/
def claim (operationId : Uuid) (now : DateTime) (eventId : Uuid) (t : Tables) :
    AppResult ClaimedOperation × Tables :=
  let (claimed, t) := claimExecution x operationId runtimeId now eventId t
  (do
    let record ← claimed
    let grant ← issue record
    return { record, grant }, t)

/-- `OperationRuntime::progress`. -/
def progress (operationId : Uuid) (details : Value) (now : DateTime) (eventId : Uuid)
    (t : Tables) : AppResult Unit × Tables :=
  let (event, t) := appendProgress x operationId runtimeId details now eventId t
  (event.map fun _ => (), t)

/-- `OperationRuntime::finish`. -/
def finish (operationId : Uuid) (target : OperationState) (details : Value) (now : DateTime)
    (eventId : Uuid) (t : Tables) : AppResult OperationRecord × Tables :=
  transition x operationId runtimeId target details now eventId t

/-- `OperationRuntime::succeed`. -/
def succeed (operationId : Uuid) (details : Value) :=
  finish x runtimeId operationId .succeeded details

/-- `OperationRuntime::fail`. -/
def fail (operationId : Uuid) (details : Value) :=
  finish x runtimeId operationId .failed details

/-- `OperationRuntime::confirm_cancelled`. -/
def confirmCancelled (operationId : Uuid) (details : Value) :=
  finish x runtimeId operationId .cancelled details

/-- `OperationRuntime::cancel_before_execution`. -/
def cancelBeforeExecution (operationId : Uuid) (details : Value) :=
  finish x runtimeId operationId .cancelled details

/-- `OperationRuntime::mark_outcome_unknown`. -/
def markOutcomeUnknown (operationId : Uuid) (details : Value) :=
  finish x runtimeId operationId .outcomeUnknown details

end Operations
end AgentDb
