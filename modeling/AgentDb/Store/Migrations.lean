import AgentDb.Lib.Ddl

/-!
# The schema of `app.db`: `SCHEMA` of `store/migrations.rs`

The script that every start runs. Tables, indexes and triggers are only created where they are not
there yet, so a table that an earlier version left keeps the columns it has. The `CHECK`s are left
out: none is on a table that opening the database writes to.
-/

namespace AgentDb
namespace Store
namespace Migrations

open Ddl

/-- `PERSONAL_WORKSPACE_ID`. -/
def PERSONAL_WORKSPACE_ID : String := "00000000-0000-0000-0000-000000000001"

/-! ### Tables -/

/-- `REFERENCES table(id)`. -/
def references (column table : String) : ForeignKey := ⟨column, table, some "id", "NO ACTION"⟩

/-- `REFERENCES table(id) ON DELETE CASCADE`. -/
def cascades (column table : String) : ForeignKey := ⟨column, table, some "id", "CASCADE"⟩

def workspaces : TableDef where
  columns :=
    [(text "id").key 1, (text "name").required, (text "kind").required,
      (text "lifecycle_state").required, (text "created_at").required, (text "updated_at").required]

def workspaceMembers : TableDef where
  columns :=
    [(text "id").key 1, (text "workspace_id").required, text "user_id",
      (text "display_name").required, (text "role").required, (text "status").required,
      (text "joined_at").required]
  foreignKeys := [references "workspace_id" "workspaces"]

def workspaceAccounts : TableDef where
  columns :=
    [(text "user_id").key 1, (text "email").required, (text "display_name").required,
      text "last_workspace_id", (text "created_at").required, (text "updated_at").required,
      (text "last_used_at").required]

def appSettings : TableDef where
  columns := [(text "key").key 1, (text "value").required]

def connections : TableDef where
  columns :=
    [(text "id").key 1, (text "name").required, (text "engine").required,
      (text "provider").required.withDefault (.ofText "auto"), text "driver_id",
      (text "host").required, (integer "port").required, (text "db_name").required,
      (text "username").required, (text "sslmode").required,
      (text "extra_params").required.withDefault (.ofText "\x7b\x7d"), text "secret_ref",
      (integer "readonly_default").required.withDefault (.ofInt 1),
      (integer "allow_writes").required.withDefault (.ofInt 0), text "env", text "schema_group",
      (text "workspace_id").required.withDefault (.ofText PERSONAL_WORKSPACE_ID),
      text "account_user_id", text "remote_id",
      (integer "revision").required.withDefault (.ofInt 1),
      (text "sync_status").required.withDefault (.ofText "local"),
      (text "workspace_access").required.withDefault (.ofText "local"),
      (text "credential_mode").required.withDefault (.ofText "local"), text "deleted_at",
      (text "created_at").required, (text "updated_at").required]
  foreignKeys := [references "workspace_id" "workspaces"]

def workspaceConnectionBindings : TableDef where
  columns :=
    [(text "connection_id").required.key 1, (text "account_user_id").required.key 2,
      (text "username").required.withDefault (.ofText ""),
      (text "extra_params").required.withDefault (.ofText "\x7b\x7d"), text "secret_ref",
      (text "workspace_access").required.withDefault (.ofText "view"),
      (integer "allow_writes").required.withDefault (.ofInt 0),
      (integer "revision").required.withDefault (.ofInt 1), (text "updated_at").required]
  foreignKeys := [cascades "connection_id" "connections"]

def connectionSafety : TableDef where
  columns :=
    [(text "connection_id").key 1, (integer "require_approval").required.withDefault (.ofInt 1),
      (integer "allow_writes").required.withDefault (.ofInt 0),
      (integer "wrap_writes_in_tx").required.withDefault (.ofInt 1),
      (integer "explain_preview").required.withDefault (.ofInt 1),
      (integer "auto_run_reads").required.withDefault (.ofInt 1),
      (integer "max_rows").required.withDefault (.ofInt 1000),
      (integer "exec_preview_row_limit").required.withDefault (.ofInt 50000)]
  foreignKeys := [cascades "connection_id" "connections"]

def queryHistory : TableDef where
  columns :=
    [(text "id").key 1, (text "connection_id").required,
      (text "account_scope").required.withDefault (.ofText "personal"), (text "sql").required,
      (text "kind").required, (text "status").required, integer "row_count", integer "duration_ms",
      text "error", (text "executed_at").required, (text "origin").required]
  foreignKeys := [cascades "connection_id" "connections"]

def auditLog : TableDef where
  columns :=
    [(text "id").key 1, (text "connection_id").required, (text "ts").required,
      (text "engine").required, text "agent_prompt", (text "sql").required, (text "kind").required,
      (text "action").required, text "approved_by", integer "affected_estimate", text "error",
      text "prev_hash", (text "hash").required]

def operations : TableDef where
  columns :=
    [(text "id").key 1, (text "runtime_id").required, (text "workspace_id").required,
      (text "account_scope").required, (text "connection_id").required,
      (integer "connection_revision").required, text "terminal_session_id",
      (text "actor_kind").required, (text "actor_id").required,
      (text "actor_provenance_json").required, (text "operation_kind").required,
      (integer "payload_schema_version").required, (text "payload_json").required,
      (text "payload_hash").required, text "schema_fingerprint", (text "risk_level").required,
      (text "preview_json").required, (text "policy_snapshot_json").required,
      (text "policy_revision").required, (text "state").required, (integer "single_use").required,
      (text "idempotency_key").required, text "expires_at", text "started_at", text "finished_at",
      (text "created_at").required, (text "updated_at").required]

def operationApprovals : TableDef where
  columns :=
    [(text "id").key 1, (text "operation_id").required, (text "payload_hash").required,
      (text "approver_kind").required, (text "approver_id").required, (text "decision").required,
      text "reason", (text "policy_revision").required, (text "created_at").required,
      text "expires_at"]
  foreignKeys := [references "operation_id" "operations"]

def operationEvents : TableDef where
  columns :=
    [(text "id").key 1, (text "operation_id").required, (integer "sequence").required,
      (text "event_kind").required, (text "state").required, (text "event_json").required,
      (text "created_at").required, text "prev_hash", (text "hash").required]
  foreignKeys := [references "operation_id" "operations"]

def snippets : TableDef where
  columns :=
    [(text "id").key 1, text "connection_id", (text "title").required, (text "sql").required,
      (text "tags").required.withDefault (.ofText "[]"),
      (text "workspace_id").required.withDefault (.ofText PERSONAL_WORKSPACE_ID), text "remote_id",
      (integer "revision").required.withDefault (.ofInt 1),
      (text "sync_status").required.withDefault (.ofText "local"), text "deleted_at",
      (text "updated_at").required]
  foreignKeys := [cascades "connection_id" "connections", references "workspace_id" "workspaces"]

def dashboards : TableDef where
  columns :=
    [(text "id").key 1, (text "connection_id").required, (text "title").required,
      (text "description").required.withDefault (.ofText ""), (text "sql").required,
      (text "visualization_json").required,
      (text "workspace_id").required.withDefault (.ofText PERSONAL_WORKSPACE_ID), text "remote_id",
      (integer "revision").required.withDefault (.ofInt 1),
      (text "sync_status").required.withDefault (.ofText "local"), text "deleted_at",
      (text "created_at").required, (text "updated_at").required]
  foreignKeys := [cascades "connection_id" "connections", references "workspace_id" "workspaces"]

def syncOutbox : TableDef where
  columns :=
    [(text "id").key 1, (text "workspace_id").required, (text "resource_type").required,
      (text "resource_id").required, (text "operation").required, (integer "revision").required,
      text "payload_json", (text "created_at").required,
      (integer "attempts").required.withDefault (.ofInt 0), text "last_error"]
  foreignKeys := [references "workspace_id" "workspaces"]

def syncState : TableDef where
  columns :=
    [(text "workspace_id").key 1, text "pull_cursor", text "last_pulled_at", text "last_pushed_at"]
  foreignKeys := [references "workspace_id" "workspaces"]

def schemaCache : TableDef where
  columns :=
    [(text "connection_id").required.key 1,
      ((text "account_scope").required.withDefault (.ofText "personal")).key 2,
      (text "introspected_at").required, (text "catalog_json").required]
  foreignKeys := [cascades "connection_id" "connections"]

def schemaCacheV2 : TableDef where
  columns :=
    [(text "workspace_id").required.key 1, (text "account_scope").required.key 2,
      (text "connection_id").required.key 3, (integer "connection_revision").required,
      (integer "binding_revision").required,
      (text "binding_updated_at").required.withDefault (.ofText ""),
      (integer "catalog_schema_version").required, (text "fingerprint").required,
      (text "captured_at").required, (text "catalog_json").required]
  foreignKeys := [cascades "workspace_id" "workspaces", cascades "connection_id" "connections"]

def agentChatThreads : TableDef where
  columns :=
    [(text "id").key 1, (text "provider").required, text "connection_id",
      (text "workspace_id").required.withDefault (.ofText PERSONAL_WORKSPACE_ID),
      (text "account_scope").required.withDefault (.ofText "personal"),
      (text "title").required.withDefault (.ofText ""), text "cli_session_id", text "model",
      text "effort", (text "created_at").required, (text "updated_at").required]

def agentChatMessages : TableDef where
  columns :=
    [(text "id").key 1, (text "thread_id").required, (text "role").required,
      (text "text").required, text "error", (text "created_at").required]
  foreignKeys := [cascades "thread_id" "agent_chat_threads"]

/-! ### The script -/

/-- A value of an `INSERT`. -/
inductive Given
  | value (v : Value)
  | currentTimestamp
  deriving DecidableEq

def Given.at (now : String) : Given → Value
  | .value v => v
  | .currentTimestamp => .text now

/-- A statement of the script. -/
inductive Statement
  | createTable (name : String) (d : TableDef)
  | createIndex (i : Index)
  | createTrigger (name table : String)
  | insertOrIgnore (table : String) (values : List (String × Given))
  deriving DecidableEq

def Statement.run (now : String) : Statement → Db → Except String Db
  | .createTable name d, db => createTableIfNotExists name db d
  | .createIndex i, db => createIndexIfNotExists db i
  | .createTrigger name table, db => createTriggerIfNotExists name db table
  | .insertOrIgnore table values, db =>
      Ddl.insertOrIgnore table db (values.map fun v => (v.1, v.2.at now))

/-- A value that is written out. -/
def Given.text (s : String) : Given := .value (.text s)

def index (name table : String) (columns : List String) : Statement :=
  .createIndex { name, table, columns }

/-- `SCHEMA`. -/
def SCHEMA : List Statement :=
  [.createTable "workspaces" workspaces,
    .createTable "workspace_members" workspaceMembers,
    index "idx_workspace_members_workspace" "workspace_members" ["workspace_id", "status"],
    index "idx_workspace_members_user_status" "workspace_members"
      ["user_id", "status", "workspace_id"],
    .createIndex
      { name := "idx_workspace_members_remote_identity"
        table := "workspace_members"
        columns := ["workspace_id", "user_id"]
        unique := true
        filled := some "user_id" },
    .createTable "workspace_accounts" workspaceAccounts,
    index "idx_workspace_accounts_last_used" "workspace_accounts" ["last_used_at"],
    .createTable "app_settings" appSettings,
    .insertOrIgnore "workspaces"
      [("id", .text PERSONAL_WORKSPACE_ID), ("name", .text "Personal Workspace"),
        ("kind", .text "personal"), ("lifecycle_state", .text "active"),
        ("created_at", .currentTimestamp), ("updated_at", .currentTimestamp)],
    .insertOrIgnore "workspace_members"
      [("id", .text "00000000-0000-0000-0000-000000000002"),
        ("workspace_id", .text PERSONAL_WORKSPACE_ID), ("user_id", .value .null),
        ("display_name", .text "Local owner"), ("role", .text "owner"), ("status", .text "active"),
        ("joined_at", .currentTimestamp)],
    .insertOrIgnore "app_settings"
      [("key", .text "active_workspace_id"), ("value", .text PERSONAL_WORKSPACE_ID)],
    .insertOrIgnore "app_settings"
      [("key", .text "active_scope_generation"), ("value", .text "0")],
    .createTable "connections" connections,
    .createTable "workspace_connection_bindings" workspaceConnectionBindings,
    index "idx_workspace_connection_bindings_account" "workspace_connection_bindings"
      ["account_user_id", "connection_id"],
    .createTable "connection_safety" connectionSafety,
    .createTable "query_history" queryHistory,
    index "idx_history_conn" "query_history" ["connection_id", "executed_at"],
    .createTable "audit_log" auditLog,
    index "idx_audit_conn" "audit_log" ["connection_id", "ts"],
    .createTable "operations" operations,
    .createIndex
      { name := "idx_operations_idempotency"
        table := "operations"
        columns := ["workspace_id", "actor_kind", "actor_id", "idempotency_key"]
        unique := true },
    index "idx_operations_state_expiry" "operations" ["state", "expires_at"],
    index "idx_operations_connection_created" "operations" ["connection_id", "created_at"],
    index "idx_operations_runtime_state" "operations" ["runtime_id", "state"],
    .createTrigger "operations_reject_immutable_update" "operations",
    .createTrigger "operations_reject_delete" "operations",
    .createTable "operation_approvals" operationApprovals,
    index "idx_operation_approvals_operation_created" "operation_approvals"
      ["operation_id", "created_at"],
    .createTrigger "operation_approvals_reject_update" "operation_approvals",
    .createTrigger "operation_approvals_reject_delete" "operation_approvals",
    .createTable "operation_events" operationEvents,
    index "idx_operation_events_operation_sequence" "operation_events"
      ["operation_id", "sequence"],
    .createTrigger "operation_events_reject_update" "operation_events",
    .createTrigger "operation_events_reject_delete" "operation_events",
    .createTable "snippets" snippets,
    .createTable "dashboards" dashboards,
    index "idx_dashboards_conn_updated" "dashboards" ["connection_id", "updated_at"],
    .createTable "sync_outbox" syncOutbox,
    index "idx_sync_outbox_workspace_created" "sync_outbox" ["workspace_id", "created_at"],
    .createTable "sync_state" syncState,
    .insertOrIgnore "sync_state" [("workspace_id", .text PERSONAL_WORKSPACE_ID)],
    .createTable "schema_cache" schemaCache,
    .createTable "schema_cache_v2" schemaCacheV2,
    .createTable "agent_chat_threads" agentChatThreads,
    index "idx_agent_chat_threads_updated" "agent_chat_threads" ["updated_at"],
    .createTable "agent_chat_messages" agentChatMessages,
    index "idx_agent_chat_messages_thread" "agent_chat_messages" ["thread_id", "created_at"]]

/-- The tables the script creates. -/
def declared : List (String × TableDef) :=
  SCHEMA.filterMap fun
    | .createTable name d => some (name, d)
    | _ => none

end Migrations
end Store
end AgentDb
