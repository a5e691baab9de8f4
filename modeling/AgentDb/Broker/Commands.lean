import AgentDb.Broker.Dispatch

/-!
# The commands that name no connection: `broker/dispatch.rs`

The two commands about the runtime and the one that brings the window to the front need no session;
the list of connections and the commands about a plan or an operation do. What the services answer
with comes in as `ServiceAnswers`. `answering` is the dispatcher with all of its commands.
-/

namespace AgentDb
namespace Broker

open Json Operations Protocol Safety Services Store

/-! ### Arguments -/

/-- `EmptyArguments`. -/
def emptyArguments (v : Value) : Option Unit := (structEntries [] v).map fun _ => ()

/-- `AppOpenArguments`. -/
def appOpenArguments (v : Value) : Option Bool := do
  let entries ← structEntries ["wait"] v
  match entries.lookup "wait" with
  | none => return false
  | some wait => readBool wait

/-- `OperationArguments`; `QueryCancelArguments` is the same. -/
def operationArguments (parseUuid : String → Option Uuid) (v : Value) : Option Uuid := do
  let entries ← structEntries ["operationId"] v
  (entries.lookup "operationId").bind (readUuid parseUuid)

/-- `QueryRunArguments`. -/
def queryRunArguments (parseUuid : String → Option Uuid) (v : Value) : Option Uuid := do
  let entries ← structEntries ["planId"] v
  (entries.lookup "planId").bind (readUuid parseUuid)

/-- `OperationWaitArguments`. -/
structure OperationWaitArguments where
  operationId : Uuid
  timeoutMs : ℕ

def OperationWaitArguments.fromValue (parseUuid : String → Option Uuid) (v : Value) :
    Option OperationWaitArguments := do
  let entries ← structEntries ["operationId", "timeoutMs"] v
  let operationId ← (entries.lookup "operationId").bind (readUuid parseUuid)
  let timeoutMs ← (entries.lookup "timeoutMs").bind readU64
  return { operationId, timeoutMs }

/-! ### Results -/

/-- `QueryResultPage`. -/
structure QueryResultPage where
  columns : List String
  rows : List (List Value)
  rowCount : ℕ
  truncated : Bool
  durationMs : ℕ

/-- `QueryRunResult`. -/
structure QueryRunResult where
  connectionId : Uuid
  connectionName : String
  planId : Uuid
  queryRunId : Uuid
  planningDecision : String
  result : QueryResultPage

def QueryResultPage.toValue (p : QueryResultPage) : Value :=
  .object [("columns", .array (p.columns.map .string)), ("rows", .array (p.rows.map .array)),
    ("rowCount", .number (.int p.rowCount)), ("truncated", .bool p.truncated),
    ("durationMs", .number (.int p.durationMs))]

def QueryRunResult.toValue (r : QueryRunResult) : Value :=
  .object [("connectionId", .string r.connectionId.toText),
    ("connectionName", .string r.connectionName), ("planId", .string r.planId.toText),
    ("queryRunId", .string r.queryRunId.toText),
    ("planningDecision", .string r.planningDecision), ("result", r.result.toValue)]

/-- `serde_json::to_value` of a list of connections. -/
def connectionListValue (connections : List ConnectionSummary) : Value :=
  .object [("connections", .array (connections.map (·.toValue)))]

/-! ### Errors of a run -/

/-- `AgentQueryRunPrepareError`. -/
inductive AgentQueryRunPrepareError
  | unknownOrAlreadyUsed
  | expired
  | sessionMismatch
  | authorityChanged
  | storedPlanInvalid
  | application (error : AppError)

/-- `AgentQueryRunError`, with the errors its failures hold. -/
inductive AgentQueryRunError
  | connection (error : AppError)
  | execution (error : AppError)
  | consentHandlePersistence (error : AppError)

/-- `map_prepare_error`. -/
def mapPrepareError : AgentQueryRunPrepareError → ErrorCode
  | .unknownOrAlreadyUsed => .operationConflict
  | .expired => .operationExpired
  | .sessionMismatch | .authorityChanged => .scopeDenied
  | .storedPlanInvalid => .invalidRequest
  | .application error => mapApplicationError error

/-- `map_query_execution_error`. -/
def mapQueryExecutionError : AppError → ErrorCode
  | .safety reason =>
      if reason = "query cancelled" then .cancelled
      else if "query timed out after ".toList <+: reason.toList then .timeout
      else .targetExecutionFailed
  | _ => .targetExecutionFailed

/-- `map_query_run_error`. -/
def mapQueryRunError : AgentQueryRunError → ErrorCode
  | .connection _ => .targetExecutionFailed
  | .execution error => mapQueryExecutionError error
  | .consentHandlePersistence _ => .internal

/-! ### The commands -/

/-- What a dispatcher holds beside its sessions, and what the services answer one request with. -/
structure ServiceAnswers where
  appVersion : String
  /-- The main window, if there is an application and it has one: whether it is shown, restored and
  focused. -/
  window : Option (Bool × Bool × Bool)
  listPin : AppResult ℤ
  prepareTerminalRun : Uuid → TerminalAuthority →
    Except AgentQueryRunPrepareError (Except AgentQueryRunError QueryRunResult)
  waitTerminal : TerminalAuthority → Uuid → ℕ → AppResult OperationSummary
  cancelTerminal : TerminalAuthority → Uuid → AppResult OperationSummary

/-- `MAX_OPERATION_WAIT`, in milliseconds. -/
def maxOperationWait : ℕ := 30000

namespace BrokerDispatcher

variable (broker : BrokerDispatcher) (db : Database) (t : Tables) (answers : Answers)
  (services : ServiceAnswers) (session : AuthenticatedSession) (version : UInt16)

/-- `VersionResult`. -/
def versionValue : Value :=
  .object [("appVersion", .string services.appVersion), ("protocolMin", u16Value protocolMin),
    ("protocolMax", u16Value protocolMax), ("commandSchemaVersion", u16Value commandSchemaVersion),
    ("runtimeId", .string broker.runtimeId.toText)]

/-- `StatusResult`. -/
def statusValue : Value :=
  .object [("appVersion", .string services.appVersion), ("protocolMin", u16Value protocolMin),
    ("protocolMax", u16Value protocolMax), ("runtimeId", .string broker.runtimeId.toText)]

/-- `focus_app`, and the `AppOpenResult` it ends with. -/
def focusApp : Except ErrorCode Value :=
  match services.window with
  | some (true, true, true) =>
      .ok (.object [("runtimeId", .string broker.runtimeId.toText), ("launched", .bool false),
        ("ready", .bool true)])
  | _ => .error .internal

/-- `connection_list`. -/
def connectionList : Except ErrorCode (List ConnectionSummary) := do
  let authority := terminalAuthority session version
  let connections ← (listTerminalSummaries db authority services.listPin).mapError
    fun _ => .scopeDenied
  pure (connections.map connectionSummary)

/-- `query_run`. -/
def queryRun (planId : Uuid) : Except ErrorCode QueryRunResult := do
  let prepared ← (services.prepareTerminalRun planId (terminalAuthority session version)).mapError
    mapPrepareError
  prepared.mapError mapQueryRunError

/-- `show_operation`. -/
def showOperation (operationId : Uuid) : Except ErrorCode OperationSummary :=
  (showTerminal broker.crates (terminalAuthority session version) operationId t).mapError
    mapOperationError

/-- `wait_operation`. -/
def waitOperation (arguments : OperationWaitArguments) : Except ErrorCode OperationSummary := do
  refuseIf (arguments.timeoutMs = 0 ∨ arguments.timeoutMs > maxOperationWait) .invalidRequest
  (services.waitTerminal (terminalAuthority session version) arguments.operationId
    arguments.timeoutMs).mapError fun
      | .safety _ => .timeout
      | error => mapOperationError error

/-- `cancel_operation`. -/
def cancelOperation (operationId : Uuid) : Except ErrorCode OperationSummary :=
  (services.cancelTerminal (terminalAuthority session version) operationId).mapError
    mapOperationError

/-- `execute_public`. -/
def executePublic (request : RequestEnvelope) (command : CommandName) (result : Value) :
    ResponseEnvelope :=
  match decodeArguments command emptyArguments request with
  | none => failure request.requestId .invalidRequest false
  | some _ => success broker.serde request.requestId result

/-- The arms of `dispatch_current` whose commands name no connection. -/
def otherCommands (request : RequestEnvelope) : ResponseEnvelope :=
  let parseUuid := broker.serde.parseUuid
  let version := request.protocolVersion
  match request.command with
  | .version => broker.executePublic request .version (broker.versionValue services)
  | .status => broker.executePublic request .status (broker.statusValue services)
  | .appOpen =>
      match decodeArguments .appOpen appOpenArguments request with
      | none => failure request.requestId .invalidRequest false
      | some _ => respond broker.serde request.requestId id (broker.focusApp services)
  | .connectionList =>
      broker.serve answers request .connectionList .connectionRead emptyArguments
        connectionListValue fun session _ => connectionList db services session version
  | .queryRun =>
      broker.serve answers request .queryRun .queryRun (queryRunArguments parseUuid)
        QueryRunResult.toValue fun session planId => queryRun services session version planId
  | .queryCancel =>
      broker.serve answers request .queryCancel .operationCancel (operationArguments parseUuid)
        operationSummaryValue fun session operationId =>
          cancelOperation services session version operationId
  | .operationShow =>
      broker.serve answers request .operationShow .operationRead (operationArguments parseUuid)
        operationSummaryValue fun session operationId =>
          broker.showOperation t session version operationId
  | .operationWait =>
      broker.serve answers request .operationWait .operationRead
        (OperationWaitArguments.fromValue parseUuid) operationSummaryValue
        fun session arguments => waitOperation services session version arguments
  | .operationCancel =>
      broker.serve answers request .operationCancel .operationCancel (operationArguments parseUuid)
        operationSummaryValue fun session operationId =>
          cancelOperation services session version operationId
  | _ => failure request.requestId .invalidRequest false

/-- The dispatcher with all of its commands. -/
def answering : BrokerDispatcher :=
  { broker with others := broker.otherCommands db t answers services }

end BrokerDispatcher

end Broker
end AgentDb
