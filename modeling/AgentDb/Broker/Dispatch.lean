import AgentDb.Broker.Results
import AgentDb.Broker.Session
import AgentDb.Protocol.Frame

/-!
# Dispatching a request: `broker/dispatch.rs`

The seven commands that name a connection. Each authenticates the session, decodes its arguments
and resolves the connection before it does anything else; every failure is one of the protocol's
error codes. The other commands come in as one function of the request. A dispatch is followed to
its response; what it writes on the way is kept as far as it is read again.
-/

namespace AgentDb
namespace Broker

open Connection Json Operations Protocol Safety Services Store

/-! ### Error codes -/

/-- `map_target_error`. -/
def mapTargetError : AppError → ErrorCode
  | .blocked _ => .scopeDenied
  | .config _ | .parse _ => .invalidRequest
  | .db _ | .mongo _ | .network _ => .targetExecutionFailed
  | _ => .internal

/-- `map_application_error`. -/
def mapApplicationError : AppError → ErrorCode
  | .blocked _ | .safety _ => .policyBlocked
  | .notFound _ | .config _ | .parse _ => .invalidRequest
  | .db _ | .mongo _ => .targetExecutionFailed
  | .outcomeUnknown _ => .operationConflict
  | .agent _ | .network _ | .keychain _ | .io _ | .serialization _ => .internal

/-- `map_operation_error`. -/
def mapOperationError : AppError → ErrorCode
  | .notFound _ => .operationConflict
  | .blocked _ => .scopeDenied
  | .outcomeUnknown _ => .operationConflict
  | other => mapApplicationError other

/-! ### Responses -/

def protocolMin : UInt16 := 1
def protocolMax : UInt16 := 1
def commandSchemaVersion : UInt16 := 1
def maxResponseBytes : ℕ := 8 * 1024 * 1024

/-- `ResponseEnvelope::success`. -/
def successEnvelope (protocolVersion : UInt16) (requestId : Uuid) (result : Value) :
    ResponseEnvelope := ⟨protocolVersion, requestId, true, some result, none, rfl⟩

/-- `ResponseEnvelope::failure`. -/
def failureEnvelope (protocolVersion : UInt16) (requestId : Uuid) (error : ProtocolError) :
    ResponseEnvelope := ⟨protocolVersion, requestId, false, none, some error, rfl⟩

/-- `failure`. -/
def failure (requestId : Uuid) (code : ErrorCode) (retryable : Bool) : ResponseEnvelope :=
  failureEnvelope protocolMax requestId (.new code retryable)

/-- `success`, for a result that is serialized already. -/
def success (serde : Serde) (requestId : Uuid) (result : Value) : ResponseEnvelope :=
  let response := successEnvelope protocolMax requestId result
  match encodeFrame serde response maxResponseBytes with
  | .error _ => failure requestId .responseTooLarge false
  | .ok _ => response

/-- `respond`. -/
def respond {α : Type} (serde : Serde) (requestId : Uuid) (toValue : α → Value) :
    Except ErrorCode α → ResponseEnvelope
  | .ok result => success serde requestId (toValue result)
  | .error code => failure requestId code false

/-- `response_at_protocol`. -/
def responseAtProtocol (response : ResponseEnvelope) (protocolVersion : UInt16) :
    ResponseEnvelope :=
  match response.result, response.error with
  | some result, _ => successEnvelope protocolVersion response.requestId result
  | none, some error => failureEnvelope protocolVersion response.requestId error
  | none, none => failureEnvelope protocolVersion response.requestId (.new .internal false)

/-! ### The dispatcher -/

/-- `BrokerDispatcher`, with the third-party code it calls. -/
structure BrokerDispatcher where
  sessions : BrokerSessionRegistry
  serde : Serde
  crates : Crates
  parseSql : Engine → String → Except String (List Statement)
  runtimeId : Uuid
  others : RequestEnvelope → ResponseEnvelope

/-- What one request meets: the clock, the answers of the control plane to each pin, of the pools
and of the target, and what is drawn for a new operation. -/
structure Answers where
  now : DateTime
  summary : AppResult ℤ
  name : AppResult ℤ
  test : AppResult ℤ
  testing : TestAnswers
  catalogPin : AppResult ℤ
  catalog : CatalogAnswers
  plan : PlanAnswers
  draws : Draws
  proposalExpiry : Bool → DateTime

/-- `terminal_authority`. -/
def terminalAuthority (session : AuthenticatedSession) (clientProtocolVersion : UInt16) :
    TerminalAuthority where
  terminalSessionId := session.terminalSessionId
  workspaceId := session.workspaceId
  accountScope := session.accountScope
  connectionId := session.connectionId
  connectionRevision := session.connectionRevision
  clientProtocolVersion

def maxTableSelectorBytes : ℕ := 512

/-- `namespace_name`. -/
def namespaceName (namespace_ : Option String) : String := namespace_.getD "default"

/-- `rsplit_once('.')`. -/
def rsplitOnceDot (s : String) : Option (String × String) :=
  match s.toList.reverse.span (· ≠ '.') with
  | (_, []) => none
  | (name, _ :: rest) => some (String.ofList rest.reverse, String.ofList name.reverse)

/-- `validate_sql`. -/
def validateSql (sql : String) : Except ErrorCode Unit :=
  refuseIf (isBlank sql ∨ sql.utf8ByteSize > maxStringBytes ∨ Char.ofNat 0 ∈ sql.toList)
    .invalidRequest

/-- The schemas of `schema_list`, in the order of their names. -/
def schemaSummaries (catalog : CatalogSnapshot) : List SchemaSummary :=
  let relations := catalog.relations.map fun r => namespaceName r.object.namespace_
  let routines := catalog.routines.map fun r => namespaceName r.object.namespace_
  let objects := catalog.otherObjects.map fun o => namespaceName o.object.namespace_
  let names := catalog.namespaces.map (·.name) ++ relations ++ routines ++ objects
  ((names.insertionSort fun a b => a ≤ b).destutter (· ≠ ·)).map fun name =>
    ⟨name, relations.count name, routines.count name, objects.count name⟩

/-- The relation `table_describe` finds. -/
def findRelation (catalog : CatalogSnapshot) (table : String) : Option Relation :=
  match rsplitOnceDot table with
  | some (namespace_, name) =>
      catalog.relations.find? fun r => r.object.namespace_ = some namespace_ ∧ r.object.name = name
  | none =>
      match catalog.relations.filter fun r => r.object.name = table with
      | [relation] => some relation
      | _ => none

namespace BrokerDispatcher

variable (broker : BrokerDispatcher) (db : Database) (t : Tables) (answers : Answers)
  (session : AuthenticatedSession) (version : UInt16)

/-- `authenticate`. -/
def authenticate (request : RequestEnvelope) (capability : BrokerCapability) :
    Except ErrorCode AuthenticatedSession := do
  match request.authentication with
  | none => throw .authenticationDenied
  | some authentication =>
      let session ← (broker.sessions.authenticate answers.now authentication).mapError
        fun _ => .authenticationDenied
      (session.require capability).mapError fun _ => .scopeDenied
      pure session

/-- `resolve_connection`. -/
def resolveConnection (selector : ConnectionSelector) : Except ErrorCode ConnectionSummary := do
  let authority := terminalAuthority session version
  let current ← (terminalSummary db authority answers.summary).mapError fun _ => .scopeDenied
  match selector with
  | .current => pure (connectionSummary current)
  | .id id => if id = current.id then pure (connectionSummary current) else throw .scopeDenied
  | .name _ =>
      let resolved ←
        (resolveTerminalCli db authority selector answers.name).mapError mapApplicationError
      match resolved with
      | .ok resolved =>
          if resolved.id = current.id then pure (connectionSummary resolved)
          else throw .scopeDenied
      | .error _ => throw .invalidRequest

/-- `connection_test`. -/
def connectionTest (arguments : ConnectionSelectorArguments) :
    Except ErrorCode ConnectionTestResult := do
  let connection ← resolveConnection db answers session version arguments.connection
  (testTerminal db (terminalAuthority session version) answers.test answers.testing).mapError
    mapTargetError
  pure ⟨connection, true⟩

/-- `catalog`. -/
def catalog (connection : ConnectionSelector) : Except ErrorCode CatalogSnapshot := do
  let _ ← resolveConnection db answers session version connection
  (loadTerminalSnapshot broker.crates.sha256 db (terminalAuthority session version) .cacheFirst
    answers.catalogPin answers.catalog).mapError mapApplicationError

/-- `schema_list`. -/
def schemaList (arguments : ConnectionSelectorArguments) : Except ErrorCode SchemaListResult := do
  let catalog ← broker.catalog db answers session version arguments.connection
  pure ⟨catalog.connectionId, schemaSummaries catalog⟩

/-- `table_describe`. -/
def tableDescribe (arguments : TableDescribeArguments) : Except ErrorCode TableDescribeResult := do
  refuseIf (arguments.table = "" ∨ arguments.table.utf8ByteSize > maxTableSelectorBytes ∨
    arguments.table.toList.any isControl) .invalidRequest
  let catalog ← broker.catalog db answers session version arguments.connection
  match findRelation catalog arguments.table with
  | some relation => pure ⟨catalog.connectionId, relation⟩
  | none => throw .invalidRequest

/-- The error code of a plan that failed. -/
def mapPlanError : AgentQueryPlanError → ErrorCode
  | .documentConnection => .invalidRequest
  | .notSingleRead _ => .policyBlocked
  | .application error => mapApplicationError error

/-- `query_plan`. -/
def queryPlan (arguments : QueryPlanArguments) : Except ErrorCode QueryPlanResult := do
  validateSql arguments.sql
  refuseIf (arguments.maxRows = some 0) .invalidRequest
  let connection ← resolveConnection db answers session version arguments.connection
  let plan ← (planTerminalRead broker.crates broker.parseSql broker.runtimeId db connection.id
    arguments.sql arguments.maxRows (terminalAuthority session version) answers.plan answers.draws
    t).1.mapError mapPlanError
  pure ⟨plan.connectionId, plan.connectionName, plan.environment, plan.planId, plan.decision,
    plan.notices, plan.suggestions, plan.estimatedRows, plan.health, plan.expiresAt⟩

/-- `sql_propose`. -/
def sqlPropose (arguments : SqlProposeArguments) : Except ErrorCode OperationSummary := do
  validateSql arguments.sql
  let connection ← resolveConnection db answers session version arguments.connection
  let authority := terminalAuthority session version
  let proposed := proposeTerminalSql broker.crates broker.parseSql broker.runtimeId db
    connection.id arguments.sql authority answers.plan answers.draws answers.proposalExpiry t
  let receipt ← proposed.1.mapError mapApplicationError
  (showTerminal broker.crates authority receipt.operationId proposed.2).mapError mapOperationError

/-- One arm of `dispatch_current`: authenticate, decode, run. -/
def serve {A α : Type} (request : RequestEnvelope) (command : CommandName)
    (capability : BrokerCapability) (fromValue : Value → Option A) (toValue : α → Value)
    (run : AuthenticatedSession → A → Except ErrorCode α) : ResponseEnvelope :=
  match broker.authenticate answers request capability with
  | .error code => failure request.requestId code false
  | .ok session =>
      match decodeArguments command fromValue request with
      | none => failure request.requestId .invalidRequest false
      | some arguments => respond broker.serde request.requestId toValue (run session arguments)

/-- `dispatch_current`. -/
def dispatchCurrent (request : RequestEnvelope) : ResponseEnvelope :=
  let parseUuid := broker.serde.parseUuid
  let version := request.protocolVersion
  if request.protocolVersion < protocolMin ∨ request.protocolVersion > protocolMax ∨
      request.commandSchemaVersion ≠ commandSchemaVersion then
    failure request.requestId .protocolMismatch false
  else match request.command with
    | .connectionShow =>
        broker.serve answers request .connectionShow .connectionRead
          (ConnectionSelectorArguments.fromValue parseUuid) ConnectionSummary.toValue
          fun session arguments => resolveConnection db answers session version arguments.connection
    | .connectionTest =>
        broker.serve answers request .connectionTest .connectionTest
          (ConnectionSelectorArguments.fromValue parseUuid) ConnectionTestResult.toValue
          fun session arguments => connectionTest db answers session version arguments
    | .catalogShow =>
        broker.serve answers request .catalogShow .catalogRead
          (ConnectionSelectorArguments.fromValue parseUuid) catalogValue
          fun session arguments => broker.catalog db answers session version arguments.connection
    | .schemaList =>
        broker.serve answers request .schemaList .catalogRead
          (ConnectionSelectorArguments.fromValue parseUuid) SchemaListResult.toValue
          fun session arguments => broker.schemaList db answers session version arguments
    | .tableDescribe =>
        broker.serve answers request .tableDescribe .catalogRead
          (TableDescribeArguments.fromValue parseUuid) TableDescribeResult.toValue
          fun session arguments => broker.tableDescribe db answers session version arguments
    | .queryPlan =>
        broker.serve answers request .queryPlan .queryPlan
          (QueryPlanArguments.fromValue parseUuid) QueryPlanResult.toValue
          fun session arguments => broker.queryPlan db t answers session version arguments
    | .sqlPropose =>
        broker.serve answers request .sqlPropose .sqlPropose
          (SqlProposeArguments.fromValue parseUuid) operationSummaryValue
          fun session arguments => broker.sqlPropose db t answers session version arguments
    | _ => broker.others request

/-- `dispatch`. -/
def dispatch (request : RequestEnvelope) : ResponseEnvelope :=
  let responseProtocol :=
    if protocolMin ≤ request.protocolVersion ∧ request.protocolVersion ≤ protocolMax then
      request.protocolVersion
    else protocolMax
  responseAtProtocol (broker.dispatchCurrent db t answers request) responseProtocol

end BrokerDispatcher

end Broker
end AgentDb
