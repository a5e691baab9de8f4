import AgentDb.Store.Scope

/-!
# Connections of the store: `store/mod.rs`

The operations that write `connections` and `workspace_connection_bindings`. A local connection is
edited by its owner and counts its edits; a shared one is a template that the server lists with a
revision, and what an account adds to it is a binding that counts its own. The outbox and the
credential ids handed to the keychain are left out.
-/

namespace AgentDb
namespace Store

/-! ### Reading a connection -/

/-- `row_to_connection_with_binding`: a template shows the account's binding and nothing else of
what is local. -/
def Connection.withBinding (c : Connection) (binding : Option Binding) : ConnectionProfile :=
  if c.workspaceAccess = .local_ then c.toConnectionProfile
  else
    let access := (binding.map (·.workspaceAccess)).getD .view
    let writes := (binding.map (·.allowWrites)).getD false
    let profile : ConnectionProfile :=
      if c.credentialMode = .memberLocal then
        { c.toConnectionProfile with
          username := (binding.map (·.username)).getD ""
          extraParams := (binding.map (·.extraParams)).getD "\x7b\x7d"
          secretRef := binding.bind (·.secretRef) }
      else
        { c.toConnectionProfile with
          username := ""
          extraParams := "\x7b\x7d"
          secretRef := none }
    { profile with workspaceAccess := access, allowWrites := writes && access.canWrite }

/-- The row is not deleted and in the workspace; in a team it is shared or the account's own. -/
def Connection.visible (workspaceId : Uuid) (workspace : Workspace) (account : Option UserId)
    (c : Connection) : Bool :=
  c.workspaceId = workspaceId ∧ c.deletedAt = none ∧
    (workspace.kind = .personal ∨ c.remote ∨ (account ≠ none ∧ c.accountUserId = account))

namespace Database

variable (db : Database)

/-- The binding a query joins to a connection: the one of the account, if there is an account. -/
def binding (connection : Uuid) (account : Option UserId) : Option Binding :=
  account.bind fun user => db.bindings.get (connection, user)

/-- The active workspace, if it is usable with the selected account. -/
def usableWorkspace : Option (Uuid × Workspace) :=
  db.activeWorkspaceId.bind fun id =>
    ((db.activeWorkspace id).filter fun _ => db.scopeValid id db.activeAccountId).map (id, ·)

/-- `get_connection`. -/
def getConnection (id : Uuid) : AppResult ConnectionProfile :=
  match db.usableWorkspace with
  | none => .error (.config "no active workspace is configured")
  | some (workspaceId, workspace) =>
      if workspace.kind = .team ∧ db.activeAccountId = none then
        .error (.config "a team workspace has no active authenticated account")
      else
        match (db.connections.get id).filter
          (Connection.visible workspaceId workspace db.activeAccountId) with
        | none => .error (.notFound ("connection " ++ id.toText))
        | some c => .ok (c.withBinding (db.binding id db.activeAccountId))

end Database

/-! ### Local connections -/

/-- `upsert_connection`. -/
def upsertConnection (now : DateTime) (p : ConnectionProfile) (db : Database) :
    AppResult Database := do
  refuseIf (p.workspaceAccess ≠ .local_)
    (.config "shared connection templates cannot be edited as local connections")
  refuseIf (p.credentialMode ≠ .local_) (.config "local connections must use local credential mode")
  match db.usableWorkspace with
  | none => .error (.config "active workspace scope is invalid")
  | some (workspaceId, workspace) =>
      let account := if workspace.kind = .team then db.activeAccountId else none
      refuseIf (workspace.kind = .team ∧ account = none)
        (.config "team-local connections require an active account")
      match db.connections.get p.id with
      | none =>
          let row : Connection :=
            ⟨p, workspaceId, account, false, 1, "dirty", none, now, now⟩
          pure { db with
            connections := db.connections.put p.id row
            safety := db.safety.upsert p.id default id }
      | some c =>
          refuseIf (c.workspaceId ≠ workspaceId ∨ c.accountUserId ≠ account ∨ c.remote)
            (.notFound ("connection " ++ p.id.toText))
          let row : Connection := { c with
            toConnectionProfile := p
            revision := c.revision + 1
            syncStatus := "dirty"
            deletedAt := none
            updatedAt := now }
          pure { db with
            connections := db.connections.put p.id row
            safety := db.safety.upsert p.id default id }

/-- One `UPDATE` that counts as an edit: the row has to be in the workspace and not deleted. -/
def editConnection (now : DateTime) (workspaceId : Uuid) (edit : Connection → Connection)
    (db : Database) (id : Uuid) : AppResult Database :=
  match (db.connections.get id).filter fun c =>
    c.workspaceId = workspaceId ∧ c.deletedAt = none with
  | none => .error (.notFound ("connection " ++ id.toText))
  | some c =>
      let row : Connection := { edit c with
        revision := c.revision + 1
        syncStatus := "dirty"
        updatedAt := now }
      .ok { db with connections := db.connections.put id row }

/-- `set_connections_schema_group`. -/
def setConnectionsSchemaGroup (now : DateTime) (ids : List Uuid) (schemaGroup : Option String)
    (db : Database) : AppResult Database := do
  ids.forM fun id => do
    let _ ← db.getConnection id
  let scope ← db.activeResourceScope
  ids.foldlM (editConnection now scope.workspaceId fun c => { c with schemaGroup }) db

/-- `delete_connection`, which leaves a tombstone. -/
def deleteConnection (now : DateTime) (id : Uuid) (db : Database) : AppResult Database := do
  let _ ← db.getConnection id
  let scope ← db.activeResourceScope
  editConnection now scope.workspaceId (fun c => { c with deletedAt := some now }) db id

/-! ### Shared connections -/

/-- A template that the server no longer lists in the workspace. -/
def withdrawn (workspaceId : Uuid) (listing : List (ConnectionProfile × ℤ)) (id : Uuid)
    (c : Connection) : Bool :=
  c.workspaceId = workspaceId ∧ c.remote ∧ id ∉ listing.map (·.1.id)

/-- Withdrawn templates become tombstones and lose every binding. -/
def withdraw (now : DateTime) (workspaceId : Uuid) (listing : List (ConnectionProfile × ℤ))
    (db : Database) : Database :=
  { db with
    bindings := db.bindings.filterRows fun key _ =>
      ¬ (db.connections.get key.1).any (withdrawn workspaceId listing key.1)
    connections := db.connections.mapRows fun id c =>
      if withdrawn workspaceId listing id c then
        { c with deletedAt := some now, updatedAt := now }
      else c }

/-- What the account's binding holds after its permission was listed. -/
def listedBinding (now : DateTime) (profile : ConnectionProfile) (b : Binding) : Binding :=
  let writes := profile.allowWrites && profile.workspaceAccess.canWrite
  if b.workspaceAccess ≠ profile.workspaceAccess ∨ b.allowWrites ≠ writes then
    { b with
      workspaceAccess := profile.workspaceAccess
      allowWrites := writes
      revision := b.revision + 1
      updatedAt := now.toRfc3339 }
  else b

/-- One listed template: the row takes the server's revision and keeps what is local; the binding
of the account takes the listed permission, and so do the safety settings. -/
def writeTemplate (now : DateTime) (workspaceId : Uuid) (user : UserId) (db : Database)
    (entry : ConnectionProfile × ℤ) : Database :=
  let p := entry.1
  let new : Connection :=
    ⟨{ p with username := "", extraParams := "\x7b\x7d", secretRef := none }, workspaceId, none,
      true, entry.2, "synced", none, now, now⟩
  let overwrite (c : Connection) : Connection :=
    if c.workspaceId = workspaceId then
      { c with
        toConnectionProfile := { p with
          username := c.username
          extraParams := c.extraParams
          secretRef := c.secretRef }
        remote := true
        revision := entry.2
        syncStatus := "synced"
        deletedAt := none
        updatedAt := now }
    else c
  let writes := p.allowWrites && p.workspaceAccess.canWrite
  let binding : Binding := ⟨"", "\x7b\x7d", none, p.workspaceAccess, writes, 1, now.toRfc3339⟩
  { db with
    connections := db.connections.upsert p.id new overwrite
    safety := db.safety.upsert p.id { (default : SafetySettings) with allowWrites := writes }
      fun s => { s with allowWrites := writes }
    bindings := db.bindings.upsert (p.id, user) binding (listedBinding now p) }

/-- `sync_remote_connections`. -/
def syncRemoteConnections (now : DateTime) (workspaceId : Uuid) (user : UserId)
    (listing : List (ConnectionProfile × ℤ)) (db : Database) : AppResult Database := do
  refuseIf (¬ db.activeMember workspaceId user)
    (.notFound ("workspace " ++ workspaceId.toText ++ " for account " ++ user.text))
  listing.forM fun entry => do
    refuseIf (entry.1.workspaceAccess = .local_ ∨ entry.1.credentialMode = .local_)
      (.config "remote connections require team access and credential mode")
    refuseIf ((db.connections.get entry.1.id).any fun c => c.workspaceId ≠ workspaceId)
      (.config ("remote connection " ++ entry.1.id.toText ++ " conflicts with another workspace"))
  pure (listing.foldl (writeTemplate now workspaceId user) (withdraw now workspaceId listing db))

/-- `purge_remote_connection_cache`; the deletion cascades to everything that refers to the row. -/
def purgeRemoteConnectionCache (workspaceId connection : Uuid) (db : Database) : Database :=
  if (db.connections.get connection).any fun c => c.workspaceId = workspaceId ∧ c.remote then
    { db with
      connections := db.connections.filterRows fun id _ => id ≠ connection
      bindings := db.bindings.filterRows fun key _ => key.1 ≠ connection
      safety := db.safety.filterRows fun id _ => id ≠ connection
      legacyCatalogs := db.legacyCatalogs.filter fun key => key.1 ≠ connection
      catalogs := db.catalogs.filterRows fun key _ => key.2.2 ≠ connection
      history := db.history.filter fun h => h.connectionId ≠ connection
      dashboards := db.dashboards.filter fun d => d.connectionId ≠ connection }
  else db

/-- `str::trim`. -/
def trim (s : String) : String :=
  String.ofList ((s.toList.dropWhile isWhitespace).rdropWhile isWhitespace)

/-- What a binding holds after the account's own credentials are saved. -/
def boundBinding (now : DateTime) (username extraParams : String) (secretRef : Option String)
    (b : Binding) : Binding :=
  if b.username ≠ username ∨ b.extraParams ≠ extraParams ∨ b.secretRef ≠ secretRef then
    { b with
      username := username
      extraParams := extraParams
      secretRef := secretRef
      revision := b.revision + 1
      updatedAt := now.toRfc3339 }
  else b

/-- `bind_connection_credentials`. -/
def bindConnectionCredentials (now : DateTime) (id : Uuid) (user : UserId)
    (username extraParams : String) (secretRef : Option String) (db : Database) :
    AppResult Database :=
  match (db.connections.get id).filter fun c =>
    db.activeMember c.workspaceId user ∧ c.remote ∧ c.deletedAt = none with
  | none => .error (.notFound ("shared connection " ++ id.toText))
  | some c => do
      let profile := c.withBinding (db.bindings.get (id, user))
      refuseIf (¬ profile.workspaceAccess.canRead)
        (.blocked "workspace role cannot execute this connection")
      refuseIf (profile.credentialMode ≠ .memberLocal)
        (.blocked "this shared connection uses automatically managed credentials")
      let new : Binding :=
        ⟨trim username, extraParams, secretRef, .view, false, 1, now.toRfc3339⟩
      pure { db with
        bindings := db.bindings.upsert (id, user) new
          (boundBinding now (trim username) extraParams secretRef) }

end Store
end AgentDb
