import Mathlib.Tactic

/-!
# The operation vocabulary of `dopedb-protocol`

The kinds, actors, states, event kinds and risk levels an operation can have, with the three
predicates on kinds and the terminal states. Everything the runtime decides about an operation
is decided on these.
-/

namespace AgentDb

/-- `OperationKind`. -/
inductive OperationKind
  | readQuery
  | documentRead
  | writeSql
  | ddl
  | privilege
  | sqlScript
  | tableDataChange
  | schemaChange
  | import
  | export
  | migration
  | dashboardCreate
  | pluginAction
  | providerAction
  deriving DecidableEq, Repr

namespace OperationKind

def isRead : OperationKind → Bool
  | .readQuery | .documentRead => true
  | _ => false

def isResumableJob : OperationKind → Bool
  | .import | .export => true
  | _ => false

/-- Whether an interrupted execution may already have changed the target database. -/
def mayMutateTarget : OperationKind → Bool
  | .writeSql | .ddl | .privilege | .sqlScript | .tableDataChange | .schemaChange | .import
  | .migration | .pluginAction | .providerAction => true
  | _ => false

theorem not_mayMutateTarget_of_isRead {k : OperationKind} (h : k.isRead) :
    k.mayMutateTarget = false := by
  cases k <;> simp_all [isRead, mayMutateTarget]

end OperationKind

/-- `OperationActorKind`. -/
inductive OperationActorKind
  | localUser
  | workspaceUser
  | agent
  | plugin
  | system
  deriving DecidableEq, Repr

/-- `OperationState`. -/
inductive OperationState
  | planned
  | pendingApproval
  | ready
  | approved
  | rejected
  | expired
  | cancelled
  | executing
  | succeeded
  | failed
  | outcomeUnknown
  deriving DecidableEq, Repr

def OperationState.isTerminal : OperationState → Bool
  | .rejected | .expired | .cancelled | .succeeded | .failed | .outcomeUnknown => true
  | _ => false

/-- `OperationEventKind`. -/
inductive OperationEventKind
  | proposed
  | planned
  | approvalRequested
  | approved
  | rejected
  | executionStarted
  | progress
  | succeeded
  | failed
  | cancelled
  | outcomeUnknown
  | expired
  deriving DecidableEq, Repr

/-- `OperationRiskLevel`. -/
inductive OperationRiskLevel
  | low
  | medium
  | high
  | critical
  deriving DecidableEq, Repr

end AgentDb
