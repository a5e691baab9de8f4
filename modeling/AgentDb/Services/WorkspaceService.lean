import AgentDb.Services.WorkspaceAuth
import AgentDb.Store.Scope

/-!
# Accounts and their workspaces: `services/workspace_service.rs`

A call of the service is a program: each query of the store, each of its transactions, each access
to the credential store and each request is one step, and other calls go on in between. The gate
of the connection manager is left out, which only adds orders of steps; so is the retirement of
connections, whose releases of leases are calls of their own.
-/

namespace AgentDb
namespace Services
namespace WorkspaceService

open Crew Program Sorting Store WorkspaceAuth

/-! ### The store -/

/-- A query of the store. -/
inductive Query
  | accounts
  | memberships (user : UserId)
  | activeAccountId
  | workspaces
  | activeWorkspace

/-- What a query reads. -/
abbrev Query.Result : Query → Type
  | .accounts => List WorkspaceAuthUser
  | .memberships _ => List (Uuid × WorkspaceRole)
  | .activeAccountId => Option UserId
  | .workspaces => List (Uuid × Workspace)
  | .activeWorkspace => Uuid × Workspace

/-- The remembered accounts, the one used last first. -/
def accountUsers (db : Database) : List WorkspaceAuthUser :=
  (sortBy (fun r : UserId × Account => toLex (-r.2.lastUsedAt.instant, r.2.createdAt.instant))
    db.accounts.rows).map fun r => ⟨r.1, r.2.email, r.2.displayName⟩

/-- The active memberships of an account, the oldest first. -/
def accountMemberships (db : Database) (user : UserId) : List (Uuid × WorkspaceRole) :=
  (sortBy (fun r : (Uuid × UserId) × Member => r.2.joinedAt.instant)
    (db.members.rows.filter fun r => r.1.2 = user ∧ r.2.status = .active)).map fun r =>
      (r.1.1, r.2.role)

/-- The active workspaces by kind and name. -/
def activeWorkspaces (db : Database) : List (Uuid × Workspace) :=
  sortBy (fun r : Uuid × Workspace => toLex ((if r.2.kind = .team then 1 else 0 : ℕ), r.2.name))
    (db.workspaces.rows.filter fun r => r.2.lifecycleState = .active)

/-- `active_workspace`. -/
def usableWorkspace (db : Database) : AppResult (Uuid × Workspace) :=
  match db.usableWorkspace with
  | some entry => .ok entry
  | none => .error (.config "no active workspace is configured")

/-- What a query is answered by. -/
def Query.answer (db : Database) : (q : Query) → AppResult q.Result
  | .accounts => .ok (accountUsers db)
  | .memberships user => .ok (accountMemberships db user)
  | .activeAccountId => .ok db.activeAccountId
  | .workspaces => .ok (activeWorkspaces db)
  | .activeWorkspace => usableWorkspace db

/-- A transaction that returns nothing. -/
inductive Change
  | remember (user : WorkspaceAuthUser)
  | syncMemberships (user : WorkspaceAuthUser) (workspaces : List (Uuid × String × WorkspaceRole))
  | remove (user : UserId)

/-- What a transaction commits. -/
def Change.apply (now : DateTime) (db : Database) : Change → AppResult Database
  | .remember user => .ok (rememberWorkspaceAccount now user db)
  | .syncMemberships user workspaces => Store.syncMemberships now user workspaces db
  | .remove user => removeWorkspaceAccount now user db

/-! ### Steps -/

/-- What a call of the service does in one step. -/
inductive Action
  | auth (call : WorkspaceAuth.Call)
  | read (query : Query)
  | write (change : Change)
  | activate (id : Uuid) (account : Option UserId)
  | activateAccount (user : UserId)
  | syncRemoteConnections (workspaceId : Uuid) (user : UserId)
      (connections : List (ConnectionProfile × ℤ))

/-- What is answered; a sync of connections names the credentials that are no longer used. -/
abbrev Result : Action → Type
  | .auth c => WorkspaceAuth.Answer c
  | .read query => AppResult query.Result
  | .write _ => AppResult Unit
  | .activate _ _ => AppResult (Uuid × Workspace)
  | .activateAccount _ => AppResult (Uuid × Workspace)
  | .syncRemoteConnections _ _ _ => AppResult (List Uuid)

/-- The sessions and the store. -/
structure State where
  auth : WorkspaceAuth.State
  db : Database

/-- A step is made by a call of `poll_login` or by another one; neither the credential store nor
the store look at that. -/
structure Call where
  login : Bool
  action : Action

abbrev Answer (c : Call) : Type := Result c.action

/-- What a step does. A failed step of the store does nothing. -/
def Does (owner : String → Uuid) (s : State) : (c : Action) → Result c → State → Prop
  | .auth c, answer, s' => ∃ auth,
      WorkspaceAuth.Answered owner s.auth c answer auth ∧ s' = { s with auth }
  | .read query, .ok result, s' => s' = s ∧ query.answer s.db = .ok result
  | .write change, .ok _, s' => ∃ now db, change.apply now s.db = .ok db ∧ s' = { s with db }
  | .activate id account, .ok entry, s' => ∃ now db,
      Store.activateWorkspace now id account s.db = .ok db ∧ entry.1 = id ∧
      s.db.activeWorkspace id = some entry.2 ∧ s' = { s with db }
  | .activateAccount user, .ok entry, s' => ∃ now db,
      Store.activateWorkspaceAccount now user s.db = .ok db ∧
      entry.1 = (s.db.fallbackWorkspace user).getD personalWorkspaceId ∧
      s.db.activeWorkspace entry.1 = some entry.2 ∧ s' = { s with db }
  | .syncRemoteConnections workspaceId user connections, .ok _, s' => ∃ now db,
      Store.syncRemoteConnections now workspaceId user connections s.db = .ok db ∧
      s' = { s with db }
  | _, _, s' => s' = s

def Answered (owner : String → Uuid) : Answers Call Answer State := fun s c => Does owner s c.action

/-! ### The functions -/

/-- Steps that may fail. -/
abbrev ServiceM (α : Type) := ExceptT AppError (Program Action Result) α

section Functions

/-- A step. -/
def step (action : Action) : Program Action Result (Result action) := perform action

def read (query : Query) : ServiceM query.Result := ExceptT.mk (step (.read query))

def write (change : Change) : ServiceM Unit := ExceptT.mk (step (.write change))

/-- `activate_workspace` of the connection manager. -/
def activateWorkspace (id : Uuid) (account : Option UserId) : ServiceM (Uuid × Workspace) :=
  ExceptT.mk (step (.activate id account))

/-- `activate_workspace_account` of the connection manager. -/
def activateWorkspaceAccount (user : UserId) : ServiceM (Uuid × Workspace) :=
  ExceptT.mk (step (.activateAccount user))

/-- `sync_remote_connections` of the connection manager. -/
def syncRemoteConnections (workspaceId : Uuid) (user : UserId)
    (connections : List (ConnectionProfile × ℤ)) : ServiceM (List Uuid) :=
  ExceptT.mk (step (.syncRemoteConnections workspaceId user connections))

/-- The steps of a program of `workspace_auth.rs`. -/
def authSteps {α : Type} (program : Program WorkspaceAuth.Call WorkspaceAuth.Answer α) :
    Program Action Result α :=
  embed Action.auth (fun (c : WorkspaceAuth.Call) (a : Result (.auth c)) => a) program

/-- A call of `workspace_auth.rs`. -/
def auth {α : Type} (c : CallM α) : ServiceM α := ExceptT.mk (authSteps c.run)

def errorOf {α : Type} : AppResult α → Option AppError
  | .ok _ => none
  | .error error => some error

/-- `WorkspaceAuthAccount`. -/
structure WorkspaceAuthAccount where
  user : WorkspaceAuthUser
  memberships : List (Uuid × WorkspaceRole)

/-- `WorkspaceAuthState`. -/
structure WorkspaceAuthState where
  authenticated : Bool
  user : Option WorkspaceAuthUser
  accounts : List WorkspaceAuthAccount

/-- `workspace_accounts`: the accounts, then the memberships of each. -/
def workspaceAccounts : ServiceM (List WorkspaceAuthAccount) := do
  let users ← read .accounts
  users.mapM fun user => do
    let memberships ← read (.memberships user.id)
    pure ⟨user, memberships⟩

/-- `auth_state_from_store`. -/
def authStateFromStore : ServiceM WorkspaceAuthState := do
  let accounts ← workspaceAccounts
  let activeId ← read .activeAccountId
  let user := activeId.bind fun id =>
    (accounts.find? fun account => account.user.id = id).map (·.user)
  pure ⟨user.isSome, user, accounts⟩

/-- `sync_account_workspaces` of the connection manager. -/
def syncAccountWorkspaces (user : WorkspaceAuthUser)
    (workspaces : List (Uuid × String × WorkspaceRole)) : ServiceM Unit :=
  if workspaces.any fun entry => entry.1 = personalWorkspaceId then
    throw (.config "remote workspace conflicts with the Personal Workspace")
  else do
    write (.remember user)
    write (.syncMemberships user workspaces)

/-- `ensure_active_account`. -/
def ensureActiveAccount : ServiceM Unit := do
  let activeId ← read .activeAccountId
  let accounts ← workspaceAccounts
  if activeId.any fun id => accounts.any fun account => account.user.id = id then pure ()
  else match activeId, accounts with
    | some stale, _ => write (.remove stale)
    | none, [] => pure ()
    | none, account :: _ => do
        let _ ← activateWorkspaceAccount account.user.id
        pure ()

variable (parseUuid : String → Option Uuid)

/-- The clean-up of the credentials of removed connections, whose failures are not reported. -/
def deleteSecretsBestEffort : List Uuid → ServiceM Unit
  | [] => pure ()
  | id :: ids => do
      let _ ← attempt (auth (ExceptT.lift (vault .asked (Connection.Keychain.deleteSecret id))))
      deleteSecretsBestEffort ids

/-- `sync_connections`; an answer that does not come leaves the local cache as it is. -/
def syncConnections (user : UserId) (workspaceId : Uuid) : ServiceM Unit := do
  match ← attempt (auth (remoteConnections parseUuid user.text workspaceId)) with
  | .ok (some connections) => do
      let removed ← syncRemoteConnections workspaceId user connections
      deleteSecretsBestEffort removed
  | .ok none => pure ()
  | .error _ => pure ()

/-- `sync_account_memberships`. -/
def syncAccountMemberships (user : WorkspaceAuthUser) : ServiceM Unit := do
  write (.remember user)
  let remote ← auth (remoteWorkspaces parseUuid user.id.text)
  syncAccountWorkspaces user (remote.map fun workspace =>
    (workspace.id, workspace.name, workspace.role))
  let active ← read .activeWorkspace
  let activeId ← if active.2.kind = .team then read .activeAccountId else pure none
  if activeId = some user.id then syncConnections parseUuid user.id active.1 else pure ()

/-- `validated_user`. -/
def validatedUser (userId : UserId) : ServiceM WorkspaceAuthUser := do
  match ← auth (authUser parseUuid userId.text) with
  | some user => pure user
  | none => do
      write (.remove userId)
      ensureActiveAccount
      throw (.network "workspace session is no longer active")

/-- `auth_state`. -/
def authState : ServiceM WorkspaceAuthState := do
  ensureActiveAccount
  authStateFromStore

/-- A legacy session is migrated while no account is remembered. -/
def migrateLegacy : ServiceM Unit := do
  match ← auth (migrateLegacySession parseUuid) with
  | none => pure ()
  | some user => do
      let _ ← attempt (syncAccountMemberships parseUuid user)
      let _ ← activateWorkspaceAccount user.id
      pure ()

/-- The active session is validated; an outage leaves what was verified last. -/
def revalidate (userId : UserId) : ServiceM Unit := do
  match ← attempt (auth (authUser parseUuid userId.text)) with
  | .ok (some user) => do
      let _ ← attempt (syncAccountMemberships parseUuid user)
      pure ()
  | .ok none => do
      write (.remove userId)
      ensureActiveAccount
  | .error _ => pure ()

/-- `refresh_auth_state`. -/
def refreshAuthState : ServiceM WorkspaceAuthState := do
  let accounts ← workspaceAccounts
  if accounts.isEmpty then migrateLegacy parseUuid else pure ()
  ensureActiveAccount
  match ← read .activeAccountId with
  | some userId => revalidate parseUuid userId
  | none => pure ()
  authStateFromStore

/-- What signs an account out: it is removed, then its session. -/
def signOutAccount (userId : UserId) : ServiceM Unit := do
  write (.remove userId)
  auth (WorkspaceAuth.signOut parseUuid userId.text)

/-- The account a sign-out is of: the given one, else the active one. -/
def signOutTarget : Option UserId → ServiceM UserId
  | some userId => pure userId
  | none => do
      match ← read .activeAccountId with
      | some userId => pure userId
      | none => throw (.config "no workspace account is signed in")

/-- `sign_out`, with the account that it was. -/
def signOut (user : Option UserId) : ServiceM (List UserId × WorkspaceAuthState) := do
  let userId ← signOutTarget user
  signOutAccount parseUuid userId
  let state ← authStateFromStore
  pure ([userId], state)

/-- The accounts are signed out one after the other, whatever fails; the first error is kept. -/
def signOutEach (firstError : Option AppError) : List UserId → ServiceM (Option AppError)
  | [] => pure firstError
  | userId :: users => do
      let removed ← attempt (write (.remove userId))
      let signedOut ← attempt (auth (WorkspaceAuth.signOut parseUuid userId.text))
      signOutEach (firstError <|> errorOf removed <|> errorOf signedOut) users

/-- `sign_out_all`, with the accounts that were signed out. -/
def signOutAll : ServiceM (List UserId × WorkspaceAuthState) := do
  let accounts ← workspaceAccounts
  let users := accounts.map fun account => account.user.id
  match ← signOutEach parseUuid none users with
  | some error => throw error
  | none => do
      let state ← authStateFromStore
      pure (users, state)

/-- One account of `refresh_memberships`. -/
def refreshAccount (userId : UserId) : ServiceM Unit := do
  match ← attempt (auth (authUser parseUuid userId.text)) with
  | .ok (some user) => syncAccountMemberships parseUuid user
  | .ok none => write (.remove userId)
  | .error _ => pure ()

/-- `refresh_memberships`. -/
def refreshMemberships : ServiceM (List (Uuid × Workspace)) := do
  let accounts ← workspaceAccounts
  accounts.forM fun account => refreshAccount parseUuid account.user.id
  ensureActiveAccount
  read .workspaces

/-- The connections of a team that was just selected. -/
def syncSelected (account : Option UserId) (workspace : Uuid × Workspace) : ServiceM Unit :=
  if workspace.2.kind = .team then
    match account with
    | none => throw (.config "team workspace selection requires an account")
    | some user => do
        let _ ← attempt (syncConnections parseUuid user workspace.1)
        pure ()
  else pure ()

/-- `activate`. -/
def activate (id : Uuid) (account : Option UserId) : ServiceM (Uuid × Workspace) := do
  let workspaces ← read .workspaces
  match workspaces.find? fun entry => entry.1 = id with
  | none => throw (.notFound ("workspace " ++ id.toText))
  | some target => do
      if target.2.kind = .team then
        match account with
        | none => throw (.config "team workspace selection requires an account")
        | some userId => do
            let user ← validatedUser parseUuid userId
            syncAccountMemberships parseUuid user
      else pure ()
      let workspace ← activateWorkspace id account
      syncSelected parseUuid account workspace
      pure workspace

/-- `activate_account`. -/
def activateAccount (userId : UserId) : ServiceM (Uuid × Workspace) := do
  let user ← validatedUser parseUuid userId
  syncAccountMemberships parseUuid user
  let workspace ← activateWorkspaceAccount userId
  syncSelected parseUuid (some userId) workspace
  pure workspace

/-- `poll_login`. -/
def pollLogin (deviceCode : String) : ServiceM WorkspaceLoginPoll := do
  let result ← auth (WorkspaceAuth.pollLogin parseUuid deviceCode)
  if result.status = .signedIn then
    match result.user with
    | none => throw (.network "workspace login did not return an account")
    | some user => do
        let _ ← attempt (syncAccountMemberships parseUuid user)
        let _ ← activateWorkspaceAccount user.id
        pure result
  else pure result

/-- A call of the service, or one of `workspace_auth.rs` on behalf of a connection. -/
inductive Op
  | authState
  | refreshAuthState
  | signOut (user : Option UserId)
  | signOutAll
  | refreshMemberships
  | activate (id : Uuid) (account : Option UserId)
  | activateAccount (user : UserId)
  | pollLogin (deviceCode : String)
  | onBehalf (op : WorkspaceAuth.Op)

/-- What a call comes back with; of a sign-out also the accounts it was of. -/
inductive Outcome
  | state (result : AppResult WorkspaceAuthState)
  | signedOut (result : AppResult (List UserId × WorkspaceAuthState))
  | workspaces (result : AppResult (List (Uuid × Workspace)))
  | workspace (result : AppResult (Uuid × Workspace))
  | login (result : AppResult WorkspaceLoginPoll)
  | auth (outcome : WorkspaceAuth.Outcome)

/-- The call is run to its end, whatever it is. -/
def ServiceM.ended {α : Type} (call : ServiceM α) (outcome : AppResult α → Outcome) :
    Program Action Result Outcome :=
  call.run.bind fun result => .done (outcome result)

/-- The steps of a call. -/
def Op.actions : Op → Program Action Result Outcome
  | .authState => ServiceM.ended WorkspaceService.authState .state
  | .refreshAuthState => (WorkspaceService.refreshAuthState parseUuid).ended .state
  | .signOut user => (WorkspaceService.signOut parseUuid user).ended .signedOut
  | .signOutAll => (WorkspaceService.signOutAll parseUuid).ended .signedOut
  | .refreshMemberships => (WorkspaceService.refreshMemberships parseUuid).ended .workspaces
  | .activate id account => (WorkspaceService.activate parseUuid id account).ended .workspace
  | .activateAccount user => (WorkspaceService.activateAccount parseUuid user).ended .workspace
  | .pollLogin deviceCode => (WorkspaceService.pollLogin parseUuid deviceCode).ended .login
  | .onBehalf op => (authSteps (op.program parseUuid)).bind fun outcome => .done (.auth outcome)

/-- A login is the only call that signs an account in. -/
def Op.isLogin : Op → Bool
  | .pollLogin _ => true
  | .onBehalf (.pollLogin _) => true
  | _ => false

/-- A call under way. -/
abbrev Run := Program Call Answer Outcome

/-- The program of a call. -/
def Op.program (op : Op) : Run :=
  embed (Call.mk op.isLogin) (fun _ a => a) (op.actions parseUuid)

end Functions

end WorkspaceService
end Services
end AgentDb
