import AgentDb.Services.AgentQuery
import AgentDb.Services.CatalogService
import AgentDb.Services.TerminalOperation

/-!
# The results of the broker's commands

What a command answers with, and the JSON value each result is serialized as.
-/

namespace AgentDb
namespace Broker

open Json Protocol Services

/-- `ConnectionSummary`. -/
structure ConnectionSummary where
  id : Uuid
  name : String
  engine : DatabaseEngine
  database : String
  environment : Option String
  readonly : Bool
  allowWrites : Bool
  deriving DecidableEq

/-- `connection_summary`. -/
def connectionSummary (summary : AgentConnectionSummary) : ConnectionSummary where
  id := summary.id
  name := summary.name
  engine := Store.protocolEngine summary.engine
  database := summary.database
  environment := summary.environment
  readonly := summary.readonly
  allowWrites := summary.allowWrites

def ConnectionSummary.toValue (s : ConnectionSummary) : Value :=
  .object ([("id", .string s.id.toText), ("name", .string s.name),
      ("engine", .string s.engine.wireName), ("database", .string s.database)] ++
    optionalField "environment" (s.environment.map .string) ++
    [("readonly", .bool s.readonly), ("allowWrites", .bool s.allowWrites)])

/-- `ConnectionTestResult`. -/
structure ConnectionTestResult where
  connection : ConnectionSummary
  reachable : Bool

def ConnectionTestResult.toValue (r : ConnectionTestResult) : Value :=
  .object [("connection", r.connection.toValue), ("reachable", .bool r.reachable)]

/-- A relation with its row estimate, beside what its fingerprint covers. -/
def relationValue (r : Relation) : Value :=
  .object ([("object", ObjectRef.serializer.toValue r.object)] ++
    optionalField "comment" (r.comment.map .string) ++
    optionalField "rowEstimate" (r.rowEstimate.map fun n => .number (.int n)) ++
    optionalField "partitionParent" (r.partitionParent.map ObjectRef.serializer.toValue) ++
    [("partitionChildren", .array (r.partitionChildren.map ObjectRef.serializer.toValue)),
      ("columns", .array (r.columns.map Column.serializer.toValue)),
      ("constraints", .array (r.constraints.map Constraint.serializer.toValue)),
      ("indexes", .array (r.indexes.map Index.serializer.toValue))])

def catalogValue (s : CatalogSnapshot) : Value :=
  .object [("schemaVersion", .number (.int s.schemaVersion)),
    ("connectionId", .string s.connectionId.toText), ("engine", .string s.engine.wireName),
    ("database", .string s.database), ("capturedAt", dateTimeValue s.capturedAt),
    ("fingerprint", .string s.fingerprint),
    ("namespaces", .array (s.namespaces.map Namespace.serializer.toValue)),
    ("relations", .array (s.relations.map relationValue)),
    ("routines", .array (s.routines.map Routine.serializer.toValue)),
    ("otherObjects", .array (s.otherObjects.map DatabaseObject.serializer.toValue))]

/-- `SchemaSummary`. -/
structure SchemaSummary where
  name : String
  relationCount : ℕ
  routineCount : ℕ
  objectCount : ℕ
  deriving DecidableEq

/-- `SchemaListResult`. -/
structure SchemaListResult where
  connectionId : Uuid
  schemas : List SchemaSummary

def SchemaSummary.toValue (s : SchemaSummary) : Value :=
  .object [("name", .string s.name), ("relationCount", .number (.int s.relationCount)),
    ("routineCount", .number (.int s.routineCount)),
    ("objectCount", .number (.int s.objectCount))]

def SchemaListResult.toValue (r : SchemaListResult) : Value :=
  .object [("connectionId", .string r.connectionId.toText),
    ("schemas", .array (r.schemas.map (·.toValue)))]

/-- `TableDescribeResult`. -/
structure TableDescribeResult where
  connectionId : Uuid
  relation : Relation

def TableDescribeResult.toValue (r : TableDescribeResult) : Value :=
  .object [("connectionId", .string r.connectionId.toText), ("relation", relationValue r.relation)]

/-- `QueryPlanResult`; its health is the one of the plan. -/
structure QueryPlanResult where
  connectionId : Uuid
  connectionName : String
  environment : Option String
  planId : Uuid
  decision : String
  notices : List String
  suggestions : List String
  estimatedRows : Option ℤ
  health : HealthSnapshot
  expiresAt : DateTime

/-- `QueryHealth`, which leaves out what is absent. -/
def queryHealthValue (h : HealthSnapshot) : Value :=
  let int := fun n : ℤ => Value.number (.int n)
  .object ([("level", .string h.level), ("coverage", .string h.coverage)] ++
    optionalField "totalConnections" (h.totalConnections.map int) ++
    optionalField "maxConnections" (h.maxConnections.map int) ++
    optionalField "connectionUsagePercent" (h.connectionUsagePercent.map .number) ++
    optionalField "activeQueries" (h.activeQueries.map int) ++
    optionalField "longRunningQueries" (h.longRunningQueries.map int) ++
    optionalField "lockWaits" (h.lockWaits.map int) ++
    optionalField "replicationLagSeconds" (h.replicationLagSeconds.map .number) ++
    [("reasons", .array (h.reasons.map .string)), ("capturedAt", dateTimeValue h.capturedAt)])

def QueryPlanResult.toValue (r : QueryPlanResult) : Value :=
  .object ([("connectionId", .string r.connectionId.toText),
      ("connectionName", .string r.connectionName)] ++
    optionalField "environment" (r.environment.map .string) ++
    [("planId", .string r.planId.toText), ("decision", .string r.decision),
      ("notices", .array (r.notices.map .string)),
      ("suggestions", .array (r.suggestions.map .string))] ++
    optionalField "estimatedRows" (r.estimatedRows.map fun n => .number (.int n)) ++
    [("health", queryHealthValue r.health), ("expiresAt", dateTimeValue r.expiresAt)])

/-- `serde_json::to_value` of an operation summary. -/
def operationSummaryValue (s : OperationSummary) : Value :=
  .object ([("operationId", .string s.operationId.toText),
      ("connectionId", .string s.connectionId.toText),
      ("kind", .string (Operations.operationKindStr s.kind)),
      ("state", .string (Operations.stateStr s.state)),
      ("riskLevel", .string (Operations.riskLevelStr s.riskLevel)),
      ("payloadHash", .string s.payloadHash)] ++
    optionalField "expiresAt" (s.expiresAt.map dateTimeValue) ++
    optionalField "startedAt" (s.startedAt.map dateTimeValue) ++
    optionalField "finishedAt" (s.finishedAt.map dateTimeValue) ++
    [("createdAt", dateTimeValue s.createdAt), ("updatedAt", dateTimeValue s.updatedAt)])

end Broker
end AgentDb
