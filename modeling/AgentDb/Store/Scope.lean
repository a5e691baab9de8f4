import AgentDb.Lib.Sorting
import AgentDb.Lib.Transaction
import AgentDb.Store.Model

/-!
# The active scope: workspaces and accounts of `store/mod.rs`

The five operations that change which workspace and account are active, one definition for each
statement that touches more than a row, and the repair of the scope they share. A transaction is a
function of the whole database: it gives the one it commits, or fails.
-/

namespace AgentDb
namespace Store

open Sorting

/-! ### Queries -/

namespace Database

variable (db : Database)

/-- `active_resource_scope`. -/
def activeResourceScope : AppResult ActiveResourceScope :=
  match db.activeWorkspaceId, db.generation with
  | some id, some generation =>
      match (db.activeWorkspace id).filter fun _ => db.scopeValid id db.activeAccountId with
      | none => .error (.config "no active workspace scope is configured")
      | some workspace =>
          match workspace.kind, db.activeAccountId with
          | .personal, account => .ok ⟨id, .personal, account, .personal, generation⟩
          | .team, some user => .ok ⟨id, .team, some user, .workspaceUser user, generation⟩
          | .team, none => .error (.config "a team workspace has no active account")
  | _, _ => .error (.config "no active workspace scope is configured")

/-- The active memberships of a user in active workspaces. -/
def memberships (user : UserId) : List (Uuid × Workspace) :=
  db.members.rows.filterMap fun r =>
    if r.1.2 = user ∧ r.2.status = .active then (db.activeWorkspace r.1.1).map (r.1.1, ·) else none

/-- Where an account is sent: its last workspace if it is still a member there, else the first of
its workspaces by name. -/
def fallbackWorkspace (user : UserId) : Option Uuid :=
  let last := ((db.accounts.get user).bind (·.lastWorkspaceId)).filter fun w =>
    db.activeMember w user && (db.activeWorkspace w).isSome
  last <|> ((sortBy (·.2.name) (db.memberships user)).head?.map Prod.fst)

/-- The account that was used last. -/
def lastUsedAccount : Option UserId :=
  (sortBy (fun r : UserId × Account => -r.2.lastUsedAt.instant) db.accounts.rows).head?.map Prod.fst

end Database

/-! ### Statements -/

/-- `bump_active_scope_generation`; the generation is an `i64`. -/
def bumpActiveScopeGeneration (db : Database) : AppResult Database :=
  let next := db.generation.getD 0 + 1
  if next < 9223372036854775808 then .ok { db with generation := some next }
  else .error (.config "active scope generation overflowed")

/-- The second half of the repair: a workspace that cannot be used is left for the fallback. -/
def repairWorkspace (now : DateTime) (accountRepaired : Bool) (current : Uuid) (db : Database) :
    AppResult Database :=
  if db.scopeValid current db.activeAccountId then
    if accountRepaired then bumpActiveScopeGeneration db else .ok db
  else
    let fallback := (db.activeAccountId.bind db.fallbackWorkspace).getD personalWorkspaceId
    let visit (user : UserId) (account : Account) : Account :=
      if db.activeAccountId = some user then
        { account with
          lastWorkspaceId :=
            if fallback = personalWorkspaceId then account.lastWorkspaceId else some fallback
          lastUsedAt := now
          updatedAt := now }
      else account
    bumpActiveScopeGeneration
      { db with activeWorkspaceId := some fallback, accounts := db.accounts.mapRows visit }

/-- `repair_active_scope_after_membership_change`: a selected account that is no longer remembered
is cleared first. -/
def repairActiveScopeAfterMembershipChange (now : DateTime) (db : Database) : AppResult Database :=
  match db.activeWorkspaceId with
  | none => .error (.config "no active workspace is configured")
  | some current =>
      if db.activeAccountId.any fun user => (db.accounts.get user).isNone then
        repairWorkspace now true current { db with activeAccountId := none }
      else repairWorkspace now false current db

/-- The memberships of the user are archived before the server's list is written. -/
def archiveMemberships (user : UserId) (db : Database) : Database :=
  { db with members := db.members.mapRows fun key m =>
      if key.2 = user then { m with status := .archived } else m }

/-- One workspace of the server's list, with the membership of the user. -/
def joinWorkspace (now : DateTime) (user : WorkspaceAuthUser) (db : Database)
    (entry : Uuid × String × WorkspaceRole) : Database :=
  { db with
    workspaces := db.workspaces.upsert entry.1 ⟨entry.2.1, .team, .active, now, now⟩ fun w =>
      if w.kind = .team then
        { w with name := entry.2.1, lifecycleState := .active, updatedAt := now }
      else w
    members := db.members.upsert (entry.1, user.id)
      ⟨user.displayName, entry.2.2, .active, now⟩ fun m =>
        { m with displayName := user.displayName, role := entry.2.2, status := .active } }

/-- A local connection without an owner becomes the user's in the teams of the user. -/
def Connection.claim (member : Uuid → Bool) (user : UserId) (c : Connection) : Connection :=
  if c.remote = false ∧ c.accountUserId = none ∧ member c.workspaceId then
    { c with accountUserId := some user }
  else c

def claimLegacyConnections (user : UserId) (db : Database) : Database :=
  { db with
    connections := db.connections.mapRows fun _ => Connection.claim (db.activeMember · user) user }

/-- The row still holds credentials of its own. -/
def Connection.hasCredentials (c : Connection) : Bool :=
  c.username ≠ "" ∨ c.extraParams ≠ "\x7b\x7d" ∨ c.secretRef ≠ none

/-- `INSERT OR IGNORE` of the former global credentials of a template as the user's binding. -/
def inheritBinding (now : DateTime) (user : UserId) (db : Database) (entry : Uuid × Connection) :
    Database :=
  let binding : Binding :=
    ⟨entry.2.username, entry.2.extraParams, entry.2.secretRef, .view, false, 1, now.toRfc3339⟩
  if entry.2.remote ∧ db.activeMember entry.2.workspaceId user ∧ entry.2.hasCredentials then
    { db with bindings := db.bindings.upsert (entry.1, user) binding id }
  else db

/-- The global credentials of the templates in the user's teams are cleared. -/
def Connection.clear (member : Uuid → Bool) (c : Connection) : Connection :=
  if c.remote ∧ member c.workspaceId then
    { c with username := "", extraParams := "\x7b\x7d", secretRef := none }
  else c

def clearGlobalCredentials (user : UserId) (db : Database) : Database :=
  { db with
    connections := db.connections.mapRows fun _ => Connection.clear (db.activeMember · user) }

/-- The connection is in a team the user is an active member of. -/
def Database.inTeamOf (db : Database) (user : UserId) (connection : Uuid) : Bool :=
  (db.connections.get connection).any fun c =>
    db.activeMember c.workspaceId user ∧
      (db.workspaces.get c.workspaceId).any (·.kind = .team)

/-- Personal artifacts of team connections become the user's. Two catalogs of one connection would
then share a key, which the legacy cache refuses. -/
def claimArtifacts (user : UserId) (db : Database) : AppResult Database :=
  let history := db.history.map fun h =>
    if h.accountScope = "personal" ∧ db.inTeamOf user h.connectionId then
      { h with accountScope := user.text }
    else h
  let legacyCatalogs := db.legacyCatalogs.map fun key =>
    if key.2 = "personal" ∧ db.inTeamOf user key.1 then (key.1, user.text) else key
  if legacyCatalogs.Nodup then .ok { db with history, legacyCatalogs }
  else .error (.db ("UNIQUE constraint failed: schema_cache.connection_id, " ++
    "schema_cache.account_scope"))

/-- A team nobody is an active member of is archived. -/
def archiveEmptyTeams (now : DateTime) (db : Database) : Database :=
  { db with workspaces := db.workspaces.mapRows fun id w =>
      if w.kind = .team ∧ ¬ db.members.any fun key m => key.1 = id ∧ m.status = .active then
        { w with lifecycleState := .archived, updatedAt := now }
      else w }

/-- The last workspace of the user is forgotten if the user is no longer a member there. -/
def forgetLastWorkspace (user : UserId) (db : Database) : Database :=
  { db with accounts := db.accounts.mapRows fun id account =>
      if id = user ∧ account.lastWorkspaceId.any fun w => ¬ db.activeMember w user then
        { account with lastWorkspaceId := none }
      else account }

/-! ### Operations -/

/-- `remember_workspace_account`. -/
def rememberWorkspaceAccount (now : DateTime) (user : WorkspaceAuthUser) (db : Database) :
    Database :=
  let account : Account := ⟨user.email, user.displayName, none, now, now, now⟩
  { db with accounts := db.accounts.upsert user.id account fun a =>
      { a with email := user.email, displayName := user.displayName, updatedAt := now } }

/-- The main transaction of `sync_account_workspaces`, after the account is remembered. -/
def syncMemberships (now : DateTime) (user : WorkspaceAuthUser)
    (workspaces : List (Uuid × String × WorkspaceRole)) (db : Database) : AppResult Database := do
  let db := workspaces.foldl (joinWorkspace now user) (archiveMemberships user.id db)
  let db := claimLegacyConnections user.id db
  let db := db.connections.rows.foldl (inheritBinding now user.id) db
  let db := clearGlobalCredentials user.id db
  let db ← claimArtifacts user.id db
  let db := archiveEmptyTeams now db
  let db := forgetLastWorkspace user.id db
  repairActiveScopeAfterMembershipChange now db

/-- `activate_workspace`. -/
def activateWorkspace (now : DateTime) (id : Uuid) (account : Option UserId) (db : Database) :
    AppResult Database :=
  match db.activeWorkspace id, account with
  | none, _ => .error (.notFound ("workspace " ++ id.toText))
  | some workspace, some user =>
      if (db.accounts.get user).isNone then
        .error (.notFound ("workspace account " ++ user.text))
      else if workspace.kind = .team ∧ ¬ db.activeMember id user then
        .error (.notFound ("workspace " ++ id.toText ++ " for account " ++ user.text))
      else
        let visit (key : UserId) (a : Account) : Account :=
          if key = user then
            { a with
              lastWorkspaceId := if workspace.kind = .team then some id else a.lastWorkspaceId
              lastUsedAt := now
              updatedAt := now }
          else a
        bumpActiveScopeGeneration
          { db with
            activeAccountId := some user
            accounts := db.accounts.mapRows visit
            activeWorkspaceId := some id }
  | some workspace, none =>
      if workspace.kind = .team then
        .error (.config "a team workspace must be selected with an authenticated account")
      else
        bumpActiveScopeGeneration { db with activeAccountId := none, activeWorkspaceId := some id }

/-- `activate_workspace_account`. -/
def activateWorkspaceAccount (now : DateTime) (user : UserId) (db : Database) :
    AppResult Database :=
  activateWorkspace now ((db.fallbackWorkspace user).getD personalWorkspaceId) (some user) db

/-- `remove_workspace_account`. -/
def removeWorkspaceAccount (now : DateTime) (user : UserId) (db : Database) : AppResult Database :=
  let db := { db with
    members := db.members.filterRows fun key _ => key.2 ≠ user
    accounts := db.accounts.filterRows fun key _ => key ≠ user }
  let db := archiveEmptyTeams now db
  if db.activeAccountId = some user then
    match db.lastUsedAccount with
    | some fallback =>
        bumpActiveScopeGeneration
          { db with
            activeAccountId := some fallback
            activeWorkspaceId :=
              some ((db.fallbackWorkspace fallback).getD personalWorkspaceId) }
    | none =>
        bumpActiveScopeGeneration
          { db with activeAccountId := none, activeWorkspaceId := some personalWorkspaceId }
  else .ok db

end Store
end AgentDb
