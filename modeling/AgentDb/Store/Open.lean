import AgentDb.Error
import AgentDb.Lib.Script
import AgentDb.Lib.Sorting
import AgentDb.Store.Migrations
import Mathlib.Data.String.Basic

/-!
# Opening `app.db`: `Store::open` of `store/mod.rs`

One definition for each step, over the tables as they are in the file, whatever version left them.
Every statement has a point of its own at which it may fail or the process may die.
-/

namespace AgentDb
namespace Store
namespace Migrations

open Ddl Scripts Sorting

/-- The statements of `open`. -/
inductive Point
  | connect
  | schema (i : ℕ)
  | alter (table column : String)
  | foundation (i : ℕ)
  | audit (i : ℕ)
  | cacheScopes (i : ℕ)
  | cacheV2 (i : ℕ)
  | repair (i : ℕ)
  | indexes (i : ℕ)
  deriving DecidableEq

/-- The test for the text of an error that `add_connection_binding_scope_columns` makes. -/
def isDuplicateColumn (message : String) : Bool :=
  decide ("duplicate column name".toList <:+: message.toList)

/-- The text of an error from outside: the disk is full, another process has the lock, … -/
structure Failure where
  message : String
  other : isDuplicateColumn message = false

/-- What befalls the statements of a start. -/
abbrev Faults := Point → Option (Fault Failure)

abbrev SqlScript := Script Point Failure Db String

abbrev OpenScript := Script Point Failure Db AppError

/-- A statement as `sqlx` runs it. -/
def sql (p : Point) (run : Db → Except String Db) : SqlScript Unit := exec p (·.message) run

/-- `?` on a statement. -/
def execute (p : Point) (run : Db → Except String Db) : OpenScript Unit :=
  mapError AppError.db (sql p run)

/-- `?` on a statement that reads. -/
def fetch (p : Point) (read : Db → Except String α) : OpenScript α :=
  mapError AppError.db (query p (·.message) read)

/-- `BEGIN` and `COMMIT`. -/
def bracket (p : Point) : OpenScript Unit := execute p .ok

/-! ### Columns -/

/-- `ALTER TABLE … ADD COLUMN`. -/
def alter (x : String × Column) : SqlScript Unit :=
  sql (.alter x.1 x.2.name) (addColumn x.1 · x.2)

/-- The columns that `open` itself adds. -/
def openColumns : List (String × Column) :=
  [("connections", text "env"), ("connections", text "schema_group"),
    ("connections", (text "provider").required.withDefault (.ofText "auto")),
    ("connections", text "driver_id"),
    ("connections", (text "workspace_access").required.withDefault (.ofText "local")),
    ("connections", (text "credential_mode").required.withDefault (.ofText "local")),
    ("agent_chat_threads", text "connection_id")]

/-- The columns of `add_workspace_columns`. -/
def workspaceColumns : List (String × Column) :=
  let shared (table : String) : List (String × Column) :=
    [(table, text "remote_id"), (table, (integer "revision").required.withDefault (.ofInt 1)),
      (table, (text "sync_status").required.withDefault (.ofText "local")),
      (table, text "deleted_at")]
  let workspaceId := (text "workspace_id").required.withDefault (.ofText PERSONAL_WORKSPACE_ID)
  [("connections", workspaceId), ("connections", text "account_user_id")] ++
    shared "connections" ++ [("dashboards", workspaceId)] ++ shared "dashboards" ++
    [("snippets", workspaceId)] ++ shared "snippets"

/-- The columns of `add_local_scope_columns`. -/
def localScopeColumns : List (String × Column) :=
  [("query_history", (text "account_scope").required.withDefault (.ofText "personal")),
    ("agent_chat_threads",
      (text "workspace_id").required.withDefault (.ofText PERSONAL_WORKSPACE_ID)),
    ("agent_chat_threads", (text "account_scope").required.withDefault (.ofText "personal"))]

/-- The columns of `add_connection_binding_scope_columns`. -/
def bindingScopeColumns : List (String × Column) :=
  [("workspace_connection_bindings",
      (text "workspace_access").required.withDefault (.ofText "view")),
    ("workspace_connection_bindings", (integer "allow_writes").required.withDefault (.ofInt 0)),
    ("workspace_connection_bindings", (integer "revision").required.withDefault (.ofInt 1))]

/-- `let _ = …` on each statement. -/
def addColumns (columns : List (String × Column)) : OpenScript Unit :=
  columns.forM fun x => mapError AppError.db (ignoring (alter x))

/-- `add_connection_binding_scope_columns`. -/
def addConnectionBindingScopeColumns : OpenScript Unit :=
  bindingScopeColumns.forM fun x => mapError AppError.db (tolerating isDuplicateColumn (alter x))

/-! ### The active scope -/

/-- `SELECT value FROM app_settings WHERE key = …`. -/
def setting (key : String) (db : Db) : Except String (Option String) :=
  match (db.rows "app_settings").find? (· "key" = .text key) with
  | none => .ok none
  | some r =>
      match r "value" with
      | .text value => .ok (some value)
      | _ => .error "mismatched types; Rust type `String` is not compatible with SQL type"

/-- `str::parse::<i64>`. -/
def parseI64 (s : List Char) : Option ℤ :=
  let read (digits : List Char) : Option ℕ :=
    if digits ≠ [] ∧ digits.all (·.isDigit) then
      some (digits.foldl (fun n d => 10 * n + (d.toNat - '0'.toNat)) 0)
    else none
  let value : Option ℤ :=
    match s with
    | '-' :: digits => (read digits).map fun n => -(n : ℤ)
    | '+' :: digits => (read digits).map fun n => (n : ℤ)
    | digits => (read digits).map fun n => (n : ℤ)
  value.filter fun n => -9223372036854775808 ≤ n ∧ n < 9223372036854775808

/-- `parse_scope_generation`. -/
def parseScopeGeneration (raw : String) : AppResult ℤ :=
  match parseI64 raw.toList with
  | some generation =>
      if generation < 0 then .error (.config "active scope generation is invalid")
      else .ok generation
  | none => .error (.config "active scope generation is invalid")

/-- The next generation of the active scope. -/
def nextGeneration (raw : Option String) : AppResult ℤ := do
  let current ← match raw with
    | some raw => parseScopeGeneration raw
    | none => .ok 0
  if current + 1 < 9223372036854775808 then .ok (current + 1)
  else .error (.config "active scope generation overflowed")

/-- `bump_active_scope_generation`, at two points. -/
def bumpActiveScopeGeneration (p q : Point) : OpenScript Unit := do
  let raw ← fetch p (setting "active_scope_generation")
  match nextGeneration raw with
  | .error e => fail e
  | .ok next =>
      execute q (upsert "app_settings" ·
        [("key", .text "active_scope_generation"), ("value", .text (toString next))] "value")

/-- `if repaired { bump_active_scope_generation(…) }`. -/
def bumpIf (repaired : Bool) (p q : Point) : OpenScript Unit :=
  if repaired then bumpActiveScopeGeneration p q else pure ()

/-- The value is no workspace. -/
def blank (v : Value) : Bool := v = .null || v = .text ""

/-- The active workspace is none of the workspaces. -/
def stale (db : Db) (r : Row) : Bool :=
  r "key" = .text "active_workspace_id" &&
    !(db.rows "workspaces").any fun w => r "value" ≠ .null && w "id" = r "value"

/-- The value of the active workspace becomes another one. -/
def activate (workspace : String) (p : Db → Row → Bool) (db : Db) : Except String Db :=
  update "app_settings" db ["key", "value"] (p db) fun r =>
    Function.update r "value" (.text workspace)

/-- The tables of what workspaces have. -/
def resources : List String := ["connections", "dashboards", "snippets"]

/-- The row in its workspace: the personal one if it is in none. -/
def assign (r : Row) : Row :=
  if blank (r "workspace_id") then Function.update r "workspace_id" (.text PERSONAL_WORKSPACE_ID)
  else r

/-- `UPDATE … WHERE workspace_id IS NULL OR workspace_id = ''`. -/
def backfill (table : String) (db : Db) : Except String Db :=
  update table db ["workspace_id"] (fun r => blank (r "workspace_id")) assign

/-- The active workspace is reset if there is no such workspace. -/
def resetActiveWorkspace : OpenScript Unit := do
  let repaired ← mapError AppError.db (stmt (.foundation 4) (·.message) fun db =>
    (activate PERSONAL_WORKSPACE_ID stale db).map ((db.rows "app_settings").any (stale db), ·))
  bumpIf repaired (.foundation 5) (.foundation 6)

/-- `migrate_workspace_foundation`. -/
def migrateWorkspaceFoundation : OpenScript Unit := transaction do
  bracket (.foundation 0)
  (resources.zipIdx).forM fun t => execute (.foundation (t.2 + 1)) (backfill t.1)
  resetActiveWorkspace
  execute (.foundation 7) (insertOrIgnore "sync_state" ·
    [("workspace_id", .text PERSONAL_WORKSPACE_ID)])
  bracket (.foundation 8)

/-- The workspace can be active with the account. -/
def scopeValid (workspace : String) (account : Option String) (db : Db) : Bool :=
  (db.rows "workspaces").any fun w =>
    w "id" = .text workspace && w "lifecycle_state" = .text "active" &&
      (w "kind" = .text "personal" || account.any fun user =>
        (db.rows "workspace_members").any fun m =>
          m "workspace_id" = w "id" && m "user_id" = .text user && m "status" = .text "active")

/-- The active memberships of a user, with the workspaces as far as they are active. -/
def memberships (user : String) (db : Db) : List (Row × Row) :=
  ((db.rows "workspace_members").filter fun m =>
      m "user_id" = .text user && m "status" = .text "active").flatMap fun m =>
    ((db.rows "workspaces").filter fun w =>
      m "workspace_id" ≠ .null && w "id" = m "workspace_id" &&
        w "lifecycle_state" = .text "active").map (m, ·)

/-- The last workspace of the account if it is still a member there. -/
def lastWorkspace (user : String) (db : Db) : Value :=
  (((db.rows "workspace_accounts").filter (· "user_id" = .text user)).flatMap fun a =>
    ((memberships user db).filter fun p => p.1 "workspace_id" = a "last_workspace_id").map fun _ =>
      a "last_workspace_id").head?.getD .null

/-- The text of a value in an order of texts. -/
def textOf : Value → String
  | .text s => s
  | _ => ""

/-- A text as `Option<String>`. -/
def textOrNull : Value → Except String (Option String)
  | .null => .ok none
  | .text s => .ok (some s)
  | _ => .error "mismatched types; Rust type `String` is not compatible with SQL type"

/-- Where an account is sent when its workspace cannot be active. -/
def fallbackWorkspace (user : String) (db : Db) : Except String (Option String) :=
  let first := (sortBy (fun p => textOf (p.2 "name")) (memberships user db)).head?
  textOrNull (if lastWorkspace user db ≠ .null then lastWorkspace user db
    else (first.map fun p => p.1 "workspace_id").getD .null)

/-- The account row after a repair has sent it elsewhere. -/
def visit (now workspace : String) (a : Row) : Row :=
  let last := if workspace = PERSONAL_WORKSPACE_ID then a "last_workspace_id" else .text workspace
  Function.update (Function.update (Function.update a "last_workspace_id" last)
    "last_used_at" (.text now)) "updated_at" (.text now)

/-- The active workspace and the selected account. -/
def activeSettings (db : Db) : Except String (Option (String × Option String)) := do
  match ← setting "active_workspace_id" db with
  | none => return none
  | some workspace => return some (workspace, ← setting "active_workspace_account_id" db)

/-- The account is one that is remembered. -/
def remembered (user : String) (db : Db) : Bool :=
  (db.rows "workspace_accounts").any (· "user_id" = .text user)

/-- The selection of an account that is not remembered is cleared: the account that stays, and
whether there was a repair. -/
def repairAccount : Option String → OpenScript (Option String × Bool)
  | none => pure (none, false)
  | some user => do
      let known ← fetch (.repair 2) (.ok <| remembered user ·)
      if known then return (some user, false)
      else
        execute (.repair 3) (delete "app_settings" · ["key"]
          (· "key" = .text "active_workspace_account_id"))
        return (none, true)

/-- The workspace that becomes active instead. -/
def chooseFallback : Option String → OpenScript String
  | none => pure PERSONAL_WORKSPACE_ID
  | some user => do
      let fallback ← fetch (.repair 5) (fallbackWorkspace user)
      return fallback.getD PERSONAL_WORKSPACE_ID

/-- The account remembers where it was sent. -/
def visitWorkspace (now workspace : String) : Option String → OpenScript Unit
  | none => pure ()
  | some user => execute (.repair 7) (update "workspace_accounts" ·
      ["last_workspace_id", "last_used_at", "updated_at", "user_id"] (· "user_id" = .text user)
      (visit now workspace))

/-- The second half of the repair: a workspace that cannot be active is left for the fallback. -/
def repairWorkspace (now workspace : String) (selection : Option String × Bool) :
    OpenScript Bool := do
  let valid ← fetch (.repair 4) (.ok <| scopeValid workspace selection.1 ·)
  if valid then
    bumpIf selection.2 (.repair 8) (.repair 9)
    return selection.2
  else
    let fallback ← chooseFallback selection.1
    execute (.repair 6) (activate fallback fun _ r => r "key" = .text "active_workspace_id")
    visitWorkspace now fallback selection.1
    bumpActiveScopeGeneration (.repair 8) (.repair 9)
    return true

/-- `repair_active_scope_after_membership_change`. -/
def repairActiveScopeAfterMembershipChange (now : String) : OpenScript Bool := do
  let current ← fetch (.repair 1) activeSettings
  match current with
  | none => fail (.config "no active workspace is configured")
  | some (workspace, selected) =>
      let selection ← repairAccount selected
      repairWorkspace now workspace selection

/-- `repair_active_scope_on_open`. -/
def repairActiveScopeOnOpen (now : String) : OpenScript Unit := transaction do
  bracket (.repair 0)
  let _ ← repairActiveScopeAfterMembershipChange now
  bracket (.repair 10)

/-! ### Tables that are rebuilt -/

/-- The stored definition mentions the cascade. -/
def mentionsCascade (d : TableDef) : Bool :=
  d.words.any fun w => decide ("CASCADE".toList <:+: w.toList.map Char.toUpper)

/-- `CREATE TABLE`, `INSERT … SELECT`, `DROP TABLE` and `RENAME`. -/
def rebuild (point : ℕ → Point) (table temporary : String) (d : TableDef)
    (columns : List (String × (String ⊕ Value))) : OpenScript Unit := do
  execute (point 2) (createTable temporary · d)
  execute (point 3) (insertSelect temporary · columns table)
  execute (point 4) (dropTable table)
  execute (point 5) (renameTable temporary · table)

/-- The columns that the copy of the audit log reads. -/
def auditColumns : List String :=
  ["id", "connection_id", "ts", "engine", "agent_prompt", "sql", "kind", "action", "approved_by",
    "affected_estimate", "error", "prev_hash", "hash"]

/-- `migrate_audit_no_cascade`. -/
def migrateAuditNoCascade : OpenScript Unit := do
  let d ← fetch (.audit 0) fun db => .ok ((db.tables "audit_log").map (·.toTableDef))
  if !d.any mentionsCascade then return
  else
    transaction do
      bracket (.audit 1)
      rebuild .audit "audit_log" "audit_log_new" auditLog (auditColumns.map fun c => (c, .inl c))
      execute (.audit 6) (createIndexIfNotExists · ⟨"idx_audit_conn", "audit_log",
        ["connection_id", "ts"], false, none⟩)
      bracket (.audit 7)

/-- `migrate_schema_cache_scopes`. -/
def migrateSchemaCacheScopes : OpenScript Unit := do
  let hasScope ← fetch (.cacheScopes 0) fun db =>
    .ok ((db.tableInfo "schema_cache").any (·.name = "account_scope"))
  if hasScope then return
  else
    transaction do
      bracket (.cacheScopes 1)
      rebuild .cacheScopes "schema_cache" "schema_cache_scoped" schemaCache
        [("connection_id", .inl "connection_id"), ("account_scope", .inr (.text "personal")),
          ("introspected_at", .inl "introspected_at"), ("catalog_json", .inl "catalog_json")]
      bracket (.cacheScopes 6)

/-- What `ensure_schema_cache_v2` expects of `PRAGMA table_info`. -/
def expectedV2 : List (String × String × Bool × ℕ × Option String) :=
  [("workspace_id", "TEXT", true, 1, none), ("account_scope", "TEXT", true, 2, none),
    ("connection_id", "TEXT", true, 3, none), ("connection_revision", "INTEGER", true, 0, none),
    ("binding_revision", "INTEGER", true, 0, none),
    ("binding_updated_at", "TEXT", true, 0, some "''"),
    ("catalog_schema_version", "INTEGER", true, 0, none), ("fingerprint", "TEXT", true, 0, none),
    ("captured_at", "TEXT", true, 0, none), ("catalog_json", "TEXT", true, 0, none)]

def shapeIsCurrent (rows : List Column) : Bool :=
  rows.length = expectedV2.length && expectedV2.all fun e => rows.any fun c =>
    (c.name, c.type, c.notNull, c.pk, c.dflt.map (·.shown)) = e

def foreignKeysAreCurrent (keys : List ForeignKey) : Bool :=
  keys.length = 2 &&
    [("workspace_id", "workspaces"), ("connection_id", "connections")].all fun e =>
      keys.any fun k => k.column = e.1 && k.table = e.2 && k.parent = some "id" &&
        k.onDelete = "CASCADE"

/-- The cache is dropped and made again unless it is current. -/
def remakeCacheV2 (current : Bool) : OpenScript Unit :=
  if current then pure ()
  else
    transaction do
      bracket (.cacheV2 2)
      execute (.cacheV2 3) (dropTableIfExists "schema_cache_v2")
      execute (.cacheV2 4) (createTable "schema_cache_v2" · schemaCacheV2)
      bracket (.cacheV2 5)

/-- `ensure_schema_cache_v2`. -/
def ensureSchemaCacheV2 : OpenScript Unit := do
  let rows ← fetch (.cacheV2 0) (.ok <| ·.tableInfo "schema_cache_v2")
  let keys ← fetch (.cacheV2 1) (.ok <| ·.foreignKeyList "schema_cache_v2")
  remakeCacheV2 (shapeIsCurrent rows && foreignKeysAreCurrent keys)
  execute (.cacheV2 6) (dropIndexIfExists "idx_schema_cache_v2_connection")
  execute (.cacheV2 7) (createIndexIfNotExists · ⟨"idx_schema_cache_v2_connection",
    "schema_cache_v2", ["connection_id"], false, none⟩)

/-- The indexes of `ensure_local_scope_indexes`. -/
def localScopeIndexes : List Index :=
  [⟨"idx_connections_workspace_account", "connections",
      ["workspace_id", "account_user_id", "deleted_at"], false, none⟩,
    ⟨"idx_history_conn_scope_executed", "query_history",
      ["connection_id", "account_scope", "executed_at"], false, none⟩,
    ⟨"idx_agent_chat_threads_scope_updated", "agent_chat_threads",
      ["workspace_id", "account_scope", "updated_at"], false, none⟩]

/-- `ensure_local_scope_indexes`. -/
def ensureLocalScopeIndexes : OpenScript Unit :=
  (localScopeIndexes.zipIdx).forM fun i =>
    execute (.indexes i.2) (createIndexIfNotExists · i.1)

/-! ### The start -/

/-- `SCHEMA`, run as one script. -/
def bootstrap (currentTimestamp : String) : OpenScript Unit :=
  (SCHEMA.zipIdx).forM fun st => execute (.schema st.2) (st.1.run currentTimestamp)

/-- A start of the application: what befalls its statements, and the two clocks. -/
structure Start where
  faults : Faults
  currentTimestamp : String
  now : String

/-- The statements of `Store::open` in their order. -/
def openScript (currentTimestamp now : String) : OpenScript Unit := do
  bracket .connect
  bootstrap currentTimestamp
  addColumns openColumns
  addColumns workspaceColumns
  migrateWorkspaceFoundation
  migrateAuditNoCascade
  addColumns localScopeColumns
  addConnectionBindingScopeColumns
  migrateSchemaCacheScopes
  ensureSchemaCacheV2
  repairActiveScopeOnOpen now
  ensureLocalScopeIndexes

/-- `Store::open`: how it ends, and the file it leaves. -/
def openStore (start : Start) (db : Db) : Outcome AppError Unit × Db :=
  openScript start.currentTimestamp start.now start.faults db

/-- The file after some starts. -/
def afterStarts (db : Db) (starts : List Start) : Db :=
  starts.foldl (fun db start => (openStore start db).2) db

end Migrations
end Store
end AgentDb
