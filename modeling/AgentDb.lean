import AgentDb.Protocol.Operation
import AgentDb.Error
import AgentDb.Operations.StateMachine
import AgentDb.Lib.Json
import AgentDb.Operations.Canonicalize
import AgentDb.Lib.HashChain
import AgentDb.Lib.TextCode
import AgentDb.Scalars
import AgentDb.Operations.Model
import AgentDb.Lib.Transaction
import AgentDb.Operations.Repository
import AgentDb.Operations.Writes
import AgentDb.Operations.Run
import AgentDb.Operations.Invariants
import AgentDb.Operations.Verification
import AgentDb.Operations.Approval
import AgentDb.Lib.JsonText
import AgentDb.Lib.Sha256
import AgentDb.Operations.Sample
import AgentDb.Operations.Progress
import AgentDb.Operations.Recovery
import AgentDb.Audit.Chain
import AgentDb.Safety.L1Parse
import AgentDb.Executor.Cancel
import AgentDb.Executor.Target
import AgentDb.Executor.Write
import AgentDb.Services.QueryService
import AgentDb.Operations.Execution
import AgentDb.Lib.Framing
import AgentDb.Lib.JsonLimits
import AgentDb.Mongo.Query
import AgentDb.Protocol.Envelope
import AgentDb.Protocol.Frame
import AgentDb.Lib.JsonStruct
import AgentDb.Lib.Sorting
import AgentDb.Protocol.Catalog
import AgentDb.Lib.Lexing
import AgentDb.SqlScript.Split
import AgentDb.SqlScript.Dialect
import AgentDb.SqlScript.Agreement
import AgentDb.Lib.Table
import AgentDb.Store.Model
import AgentDb.Store.Scope
import AgentDb.Store.ScopeRun
import AgentDb.Store.Connections
import AgentDb.Store.Pins
import AgentDb.Store.ConnectionRun
import AgentDb.Store.PinRun
import AgentDb.Connection.Access
import AgentDb.Safety.Gate
import AgentDb.Services.OperationService
import AgentDb.Lib.RwLock
import AgentDb.Services.ScopeGate
import AgentDb.Services.ScopeGateRun
import AgentDb.Connection.Runtime
import AgentDb.Connection.RuntimeMemory
import AgentDb.Connection.RuntimeTask
import AgentDb.Connection.RuntimeRun
import AgentDb.Services.DocumentService
import AgentDb.Operations.Payload
import AgentDb.Services.DocumentRun
import AgentDb.Lib.TwoRuns
import AgentDb.Operations.Isolation
import AgentDb.Store.Listing
import AgentDb.Protocol.Commands
import AgentDb.Connection.Pinning
import AgentDb.Services.ConnectionService
import AgentDb.Services.AgentQuery
import AgentDb.Services.CatalogService
import AgentDb.Broker.Results
import AgentDb.Broker.Dispatch
import AgentDb.Broker.Describe
import AgentDb.Broker.SessionRun
import AgentDb.Broker.Isolation
import AgentDb.Lib.Program
import AgentDb.Runs.Call
import AgentDb.Runs.DesktopSql
import AgentDb.Runs.Script
import AgentDb.Runs.Catalog
import AgentDb.Runs.Single
import AgentDb.Runs.World
import AgentDb.Executor.Registry
import AgentDb.Lib.Session
import AgentDb.Operations.Statements
import AgentDb.Lib.JsonExtension
import AgentDb.Operations.CanonicalForm
import AgentDb.Operations.Idempotency
import AgentDb.Audit.Record
import AgentDb.Frontend.SchemaDiff
import AgentDb.Services.Confirmation
import AgentDb.Frontend.SchemaDiffReverse
import AgentDb.Frontend.SchemaDiffTotal
import AgentDb.Lib.Loop
import AgentDb.SqlScript.Bytes
import AgentDb.SqlScript.Parts
import AgentDb.Frontend.SqlStatements
import AgentDb.Frontend.StatementMirror
import AgentDb.Frontend.Csv
import AgentDb.Lib.CopyOnWrite
import AgentDb.Store.Edited
import AgentDb.Services.ConnectionEdits
import AgentDb.Services.SchemaGroups
import AgentDb.Services.Credentials
import AgentDb.Lib.ChangeLog
import AgentDb.Store.Outbox
import AgentDb.Lib.Fencing
import AgentDb.Cloud.LeaseCleanup
import AgentDb.Cloud.LeaseCleanupStep
import AgentDb.Cloud.LeaseCleanupRun
import AgentDb.Cloud.LeaseCleanupSafety
import AgentDb.Cloud.ProviderCredential
import AgentDb.Cloud.ProviderCredentialRun
import AgentDb.Lib.Paging
import AgentDb.Frontend.SqlBuild
import AgentDb.Frontend.GridPages
import AgentDb.Lib.SqlTokens
import AgentDb.Frontend.StatementText
import AgentDb.Frontend.StatementTokens
import AgentDb.Frontend.StatementSplit
import AgentDb.Frontend.GridStatements
import AgentDb.Lib.Capped
import AgentDb.Executor.Read
import AgentDb.Mongo.Read
import AgentDb.Lib.Crew
import AgentDb.Connection.Keychain
import AgentDb.Connection.KeychainRun
import AgentDb.Protocol.Discovery
import AgentDb.Broker.Discovery
import AgentDb.Broker.DiscoveryRun
import AgentDb.Services.WorkspaceAuth
import AgentDb.Services.WorkspaceAuthRun
import AgentDb.Store.SignedOut
import AgentDb.Services.WorkspaceService
import AgentDb.Services.WorkspaceServiceRun
import AgentDb.Protocol.Derived
import AgentDb.Protocol.CatalogWire
import AgentDb.Lib.Words
import AgentDb.Executor.Interval
import AgentDb.Introspect.Model
import AgentDb.Introspect.CatalogV2
import AgentDb.Introspect.RoundTrip
import AgentDb.Mcp.DescribeTable
import AgentDb.Lib.JsonMap
import AgentDb.Mcp.ClaudeDesktop
import AgentDb.Lib.PercentCoding
import AgentDb.Mongo.Uri
import AgentDb.Lib.JsonShape
import AgentDb.Broker.Commands
import AgentDb.Broker.Server
import AgentDb.Agent.Turn
import AgentDb.Agent.TurnRun
import AgentDb.Lib.QueryRows
import AgentDb.Introspect.Regroup
import AgentDb.Introspect.Pg
import AgentDb.Introspect.PgRead
import AgentDb.Introspect.Shown
import AgentDb.Introspect.Mysql
import AgentDb.Introspect.MysqlRead
import AgentDb.Introspect.Sqlite
import AgentDb.Introspect.SqliteRead
import AgentDb.Introspect.SingleSchema
import AgentDb.Lib.Script
import AgentDb.Lib.Ddl
import AgentDb.Store.Migrations
import AgentDb.Store.Open
import AgentDb.Store.Upgrade
import AgentDb.Store.UpgradeSteps
import AgentDb.Store.OpenRun
import AgentDb.Store.Reopen
import AgentDb.Store.Opened
import AgentDb.Lib.Ownership
import AgentDb.Lib.Watch
import AgentDb.Runs.DesktopSqlTrail
import AgentDb.Runs.Ledger
import AgentDb.Runs.Pool
