import AgentDb.Connection.Access
import AgentDb.Executor.Write
import AgentDb.Lib.Program
import AgentDb.Mongo.Query
import AgentDb.Store.Pins

/-!
# What the services await

The entry points that run an operation and the loads of a catalog, as programs: each await of the
source is a call, and everything between two awaits is computed by the program itself. The drop of
a cancellation handle is a call as well. A request goes to the target in one call and is answered
in another, since the target may take any time; both are made under the guard of
`executor/cancel.rs`, which looks at the signal before it polls the request.
-/

namespace AgentDb
namespace Runs

open Connection Executor Operations Protocol Store

/-! ### The target -/

/-- The two pools of a `LiveConnection`. -/
inductive PoolKind
  | read
  | write
  deriving DecidableEq, Repr

/-- What is sent to the target. -/
inductive TargetRequest
  | begin
  | commit
  | rollback
  | fetch (sql : String) (maxRows : ℕ)
  | execute (sql : String)
  | document (query : Mongo.DocumentQuery) (maxRows : ℕ)
  | introspect
  | status

/-- A request of an operation on the pool of a connection, with the kind the operation's SQL was
classified as. -/
structure Message where
  operationId : Option Uuid
  connectionId : Uuid
  pool : PoolKind
  kind : QueryKind
  request : TargetRequest

/-- What a request is answered with: the rows of the page or the rows affected, and the time. -/
structure Reply where
  count : ℕ := 0
  durationMs : ℕ := 0

/-- Both are `u64` or `usize`. -/
def Reply.InRange (reply : Reply) : Prop := reply.count < 2 ^ 64 ∧ reply.durationMs < 2 ^ 64

/-- A catalog as it is introspected, seen through `to_snapshot`. `since` is the state of the target
its introspection began in; nothing looks at it. -/
structure Introspected where
  toSnapshot : ConnectionProfile → AppResult CatalogSnapshot
  since : ℕ

/-- A canonical catalog, with the state of the target it was introspected in. -/
structure Stamped where
  snapshot : CatalogSnapshot
  since : ℕ

/-! ### The store -/

/-- `RecordArgs`, without the prompt of an agent. -/
structure RecordArgs where
  connectionId : Uuid
  engine : Engine
  sql : String
  kind : QueryKind
  action : String
  approvedBy : Option String := none
  affectedEstimate : Option ℕ := none
  error : Option String := none

/-- An `i64`, which wraps. -/
def i64 (n : ℤ) : ℤ := n.bmod (2 ^ 64)

/-- A `usize`. -/
def usize (n : ℕ) : ℕ := n % 2 ^ 64

/-- What `record_desktop_run`, `record_script_run`, `record_desktop_outcome` and
`record_monitoring_change` write to the audit log and to the history, both at best effort. -/
structure RunRecord where
  sql : String
  kind : QueryKind
  action : String
  status : String
  rowCount : Option ℤ := none
  durationMs : Option ℕ := none
  error : Option String := none
  origin : String
  approvedBy : Option String := none

/-! ### Calls and their answers -/

/-- A call. -/
inductive Call
  | getOperation (operationId : Uuid)
  | claim (operationId : Uuid)
  | finish (operationId : Uuid) (target : OperationState) (details : Json.Value)
  | beginOperationScope
  | pinConnection (connectionId : Uuid)
  | getSafety (connectionId : Uuid)
  | audit (args : RecordArgs)
  | recordRun (pin : PinnedConnection) (run : RunRecord)
  | register (operationId : Uuid)
  | release (operationId : Uuid)
  | isCancelled (operationId : Uuid)
  | connect (pin : PinnedConnection) (access : ConnectionAccess)
  | backend (document : Bool)
  | send (handle : Option Uuid) (message : Message)
  | receive (handle : Option Uuid) (message : Message)
  | pin (connectionId : Uuid) (access : ConnectionAccess)
  | getCatalog (pin : PinnedConnection)
  | putCatalog (pin : PinnedConnection) (catalog : Stamped)
  | clearSchemaCache (operationId : Option Uuid) (connectionId : Uuid)
  | beginIntrospection (connectionId : Uuid)
  | endIntrospection (connectionId : Uuid) (since : ℕ)

/-- The type a call is answered in. A guarded call may be interrupted instead. -/
def Call.Answer : Call → Type
  | .getOperation _ => AppResult OperationRecord
  | .claim _ => AppResult ClaimedOperation
  | .finish _ _ _ => AppResult OperationRecord
  | .beginOperationScope => Unit
  | .pinConnection _ => AppResult PinnedConnection
  | .getSafety _ => AppResult SafetySettings
  | .audit _ => AppResult Unit
  | .recordRun _ _ => Unit
  | .register _ => Unit
  | .release _ => Unit
  | .isCancelled _ => Bool
  | .connect _ _ => AppResult Unit
  | .backend _ => AppResult Unit
  | .send _ _ => Except Interrupt Unit
  | .receive _ _ => Except Interrupt (AppResult Reply)
  | .pin _ _ => AppResult PinnedConnection
  | .getCatalog _ => AppResult (Option Stamped)
  | .putCatalog _ _ => AppResult CacheWriteOutcome
  | .clearSchemaCache _ _ => AppResult Unit
  | .beginIntrospection _ => ℕ
  | .endIntrospection _ _ => AppResult Introspected

/-- A program over these calls. -/
abbrev Run := Program Call Call.Answer

/-- A single call. -/
def ask (c : Call) : Run c.Answer := .perform c

/-- A service call, which may fail. -/
abbrev RunM := ExceptT AppError Run

/-- A query future: it may fail, and it may be dropped by its guard. -/
abbrev FutureM := ExceptT AppError (ExceptT Interrupt Run)

/-! ### Calls that may fail -/

section

variable (operationId connectionId : Uuid)

/-- `OperationRuntime::get`. -/
def getOperation : RunM OperationRecord := ExceptT.mk (ask (.getOperation operationId))

/-- `OperationRuntime::claim`. -/
def claimOperation : RunM ClaimedOperation := ExceptT.mk (ask (.claim operationId))

/-- `OperationRuntime::finish`, which `succeed`, `fail`, `confirm_cancelled` and
`mark_outcome_unknown` are. -/
def finishOperation (target : OperationState) (details : Json.Value) : RunM OperationRecord :=
  ExceptT.mk (ask (.finish operationId target details))

/-- `begin_operation_scope`. -/
def beginOperationScope : RunM Unit := ExceptT.lift (ask .beginOperationScope)

/-- `ConnectionOperationScope::pin_connection`. -/
def pinConnection : RunM PinnedConnection := ExceptT.mk (ask (.pinConnection connectionId))

/-- `get_safety`. -/
def getSafety : RunM SafetySettings := ExceptT.mk (ask (.getSafety connectionId))

/-- `audit::record`. -/
def auditRecord (args : RecordArgs) : RunM Unit := ExceptT.mk (ask (.audit args))

/-- The rows at best effort that every service writes about a run. -/
def recordRun (pin : PinnedConnection) (run : RunRecord) : RunM Unit :=
  ExceptT.lift (ask (.recordRun pin run))

/-- `ConnectionOperationScope::connect`. -/
def connect (pin : PinnedConnection) (access : ConnectionAccess) : RunM Unit :=
  ExceptT.mk (ask (.connect pin access))

/-- `LiveTarget::sql` and `LiveTarget::mongo`, on the target that was connected. -/
def backend (document : Bool) : RunM Unit := ExceptT.mk (ask (.backend document))

/-- `ConnectionManager::pin`. -/
def pin (access : ConnectionAccess) : RunM PinnedConnection :=
  ExceptT.mk (ask (.pin connectionId access))

/-- `get_catalog_if_current`. -/
def getCatalog (pin : PinnedConnection) : RunM (Option Stamped) :=
  ExceptT.mk (ask (.getCatalog pin))

/-- `put_catalog_if_current`. -/
def putCatalog (pin : PinnedConnection) (catalog : Stamped) : RunM CacheWriteOutcome :=
  ExceptT.mk (ask (.putCatalog pin catalog))

/-- `clear_schema_cache`, after an operation or for a load. -/
def clearSchemaCache (after : Option Uuid) : RunM Unit :=
  ExceptT.mk (ask (.clearSchemaCache after connectionId))

/-- `introspect`. -/
def introspect : RunM Introspected := do
  let since ← ExceptT.lift (ask (.beginIntrospection connectionId))
  ExceptT.mk (ask (.endIntrospection connectionId since))

/-- `register`, and the handle dropped when the body ends. -/
def withHandle {α : Type} (body : RunM α) : RunM α := do
  ExceptT.lift (ask (.register operationId))
  let result ← Program.attempt body
  ExceptT.lift (ask (.release operationId))
  liftExcept result
where
  liftExcept : AppResult α → RunM α := fun result => ExceptT.mk (pure result)

/-- `CancelHandle::is_cancelled`. -/
def isCancelledNow : RunM Bool := ExceptT.lift (ask (.isCancelled operationId))

end

/-! ### Guarded requests -/

/-- A request within a query future: it is sent, and its answer awaited. -/
def request (handle : Option Uuid) (message : Message) : FutureM Reply := do
  ExceptT.lift (ExceptT.mk (ask (.send handle message)))
  ExceptT.mk (ExceptT.mk (ask (.receive handle message)))

/-- `guard_registered`: a dropped future is an error of its own. -/
def guarded {α : Type} (future : FutureM α) : RunM α := ExceptT.mk do
  match ← future.run.run with
  | .ok result => return result
  | .error cause => return .error cause.error

/-- A step of a future whose error the future looks at itself. -/
def tried {α : Type} (future : FutureM α) : FutureM (AppResult α) := ExceptT.lift future.run

end Runs
end AgentDb
