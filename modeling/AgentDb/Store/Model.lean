import AgentDb.Error
import AgentDb.Lib.Table
import AgentDb.Model
import AgentDb.Protocol.Catalog
import AgentDb.Scalars

/-!
# The local store: tables of `store/migrations.rs`

The tables that decide the active scope and what a connection pin names. `app_settings` is kept
as its three rows that matter here; the generation row holds the decimal text of a non-negative
`i64` and is kept as that number. A JSON map of parameters is kept as its text.
-/

namespace AgentDb
namespace Store

/-! ### Workspaces and accounts -/

/-- An account id. `session_for_token` accepts no session whose user id is not the text of a UUID,
so it is neither empty nor the key of personal data. -/
structure UserId where
  text : String
  ne_empty : text ≠ ""
  ne_personal : text ≠ "personal"
  deriving DecidableEq

/-- `WorkspaceAuthUser`. -/
structure WorkspaceAuthUser where
  id : UserId
  email : String
  displayName : String
  deriving DecidableEq

inductive WorkspaceKind
  | personal
  | team
  deriving DecidableEq, Repr

inductive WorkspaceLifecycleState
  | active
  | archived
  | deleted
  deriving DecidableEq, Repr

inductive MemberStatus
  | active
  | archived
  deriving DecidableEq, Repr

inductive WorkspaceRole
  | viewer
  | analyst
  | editor
  | admin
  | owner
  deriving DecidableEq, Repr

/-- A row of `workspaces`. -/
structure Workspace where
  name : String
  kind : WorkspaceKind
  lifecycleState : WorkspaceLifecycleState
  createdAt : DateTime
  updatedAt : DateTime
  deriving DecidableEq

/-- A row of `workspace_members` with a user. The one row without a user belongs to the Personal
Workspace, and no query here can see it. -/
structure Member where
  displayName : String
  role : WorkspaceRole
  status : MemberStatus
  joinedAt : DateTime

/-- A row of `workspace_accounts`. -/
structure Account where
  email : String
  displayName : String
  lastWorkspaceId : Option Uuid
  createdAt : DateTime
  updatedAt : DateTime
  lastUsedAt : DateTime

/-! ### Connections -/

inductive Provider
  | auto
  | generic
  | neon
  | planetScale
  | gcpCloudSql
  deriving DecidableEq, Repr

/-- `WorkspaceConnectionAccess`. -/
inductive WorkspaceConnectionAccess
  | view
  | read
  | write
  | manage
  | local_
  deriving DecidableEq, Repr

namespace WorkspaceConnectionAccess

def canRead : WorkspaceConnectionAccess → Bool
  | .view => false
  | _ => true

def canWrite : WorkspaceConnectionAccess → Bool
  | .write | .manage | .local_ => true
  | _ => false

end WorkspaceConnectionAccess

/-- `WorkspaceCredentialMode`. -/
inductive WorkspaceCredentialMode
  | local_
  | memberLocal
  | managed
  deriving DecidableEq, Repr

/-- `ConnectionProfile`. -/
structure ConnectionProfile where
  id : Uuid
  name : String
  engine : Engine
  provider : Provider
  driverId : Option String
  host : String
  port : UInt16
  database : String
  username : String
  sslmode : String
  extraParams : String
  readonlyDefault : Bool
  allowWrites : Bool
  secretRef : Option String
  env : Option String
  schemaGroup : Option String
  workspaceAccess : WorkspaceConnectionAccess
  credentialMode : WorkspaceCredentialMode
  deriving DecidableEq

/-- A row of `connections`: a profile, and what the store adds to it. `remote_id` is null or the id
of the row itself. -/
structure Connection extends ConnectionProfile where
  workspaceId : Uuid
  accountUserId : Option UserId
  remote : Bool
  revision : ℤ
  syncStatus : String
  deletedAt : Option DateTime
  createdAt : DateTime
  updatedAt : DateTime
  deriving DecidableEq

/-- A row of `workspace_connection_bindings`. -/
structure Binding where
  username : String
  extraParams : String
  secretRef : Option String
  workspaceAccess : WorkspaceConnectionAccess
  allowWrites : Bool
  revision : ℤ
  updatedAt : String
  deriving DecidableEq

/-! ### Execution artifacts -/

/-- `HistoryEntry`. -/
structure HistoryEntry where
  id : Uuid
  connectionId : Uuid
  sql : String
  kind : QueryKind
  status : String
  rowCount : Option ℤ
  durationMs : Option ℤ
  error : Option String
  executedAt : DateTime
  origin : String

/-- A row of `query_history`. -/
structure HistoryRow extends HistoryEntry where
  accountScope : String

/-- A row of `schema_cache_v2`, under its workspace, account scope and connection. Its JSON text is
kept as the snapshot it parses to, if it does. -/
structure CatalogRow where
  connectionRevision : ℤ
  bindingRevision : ℤ
  bindingUpdatedAt : String
  catalogSchemaVersion : ℕ
  fingerprint : String
  capturedAt : DateTime
  catalogJson : Option Protocol.CatalogSnapshot

/-- `DashboardDraft`; the visualization is kept as its JSON text. -/
structure DashboardDraft where
  connectionId : Uuid
  title : String
  description : String
  sql : String
  visualization : String

/-- A row of `dashboards`. -/
structure DashboardRow extends DashboardDraft where
  id : Uuid
  workspaceId : Uuid
  revision : ℤ
  syncStatus : String
  createdAt : DateTime
  updatedAt : DateTime

/-! ### The database -/

/-- The tables. Of the legacy schema cache only the keys matter. -/
structure Database where
  activeWorkspaceId : Option Uuid
  activeAccountId : Option UserId
  generation : Option ℕ
  workspaces : Table Uuid Workspace
  members : Table (Uuid × UserId) Member
  accounts : Table UserId Account
  connections : Table Uuid Connection
  bindings : Table (Uuid × UserId) Binding
  safety : Table Uuid SafetySettings
  legacyCatalogs : List (Uuid × String)
  catalogs : Table (Uuid × String × Uuid) CatalogRow
  history : List HistoryRow
  dashboards : List DashboardRow

/-- `PERSONAL_WORKSPACE_ID`. -/
def personalWorkspaceId : Uuid := .ofByte 1

namespace Database

variable (db : Database)

/-- The user has an active membership in the workspace. -/
def activeMember (workspace : Uuid) (user : UserId) : Bool :=
  (db.members.get (workspace, user)).any (·.status = .active)

/-- The workspace is there and in state `active`. -/
def activeWorkspace (workspace : Uuid) : Option Workspace :=
  (db.workspaces.get workspace).filter (·.lifecycleState = .active)

/-- The condition every query of the active scope repeats: an active workspace that is personal or
that the selected account is an active member of. -/
def scopeValid (workspace : Uuid) (account : Option UserId) : Bool :=
  (db.activeWorkspace workspace).any fun w =>
    w.kind = .personal ∨ account.any (db.activeMember workspace)

end Database

/-- `AccountScope`. -/
inductive AccountScope
  | personal
  | workspaceUser (user : UserId)
  deriving DecidableEq

/-- `AccountScope::storage_key`. -/
def AccountScope.storageKey : AccountScope → String
  | .personal => "personal"
  | .workspaceUser user => user.text

/-- `ActiveResourceScope`. -/
structure ActiveResourceScope where
  workspaceId : Uuid
  workspaceKind : WorkspaceKind
  selectedAccountId : Option UserId
  accountScope : AccountScope
  generation : ℕ
  deriving DecidableEq

end Store
end AgentDb
