import AgentDb.Audit.Record
import AgentDb.Connection.Keychain
import AgentDb.Lib.JsonText
import AgentDb.Store.Connections

/-!
# Workspace sessions: `workspace_auth.rs`

A request on behalf of an account reads the session token of the account from the credential
store, sends it, and on a 401 deletes the stored session, by the name of the account. Every access
to the credential store or to its cache is one step, and so is every request: between two of them
any other call may go on. What a request was answered is a status, and what comes of reading the
body.
-/

namespace AgentDb
namespace Services
namespace WorkspaceAuth

open Connection Crew Program Store

/-! ### Responses -/

/-- A status code, with its `Display` text. -/
structure StatusCode where
  code : ℕ
  text : String

def StatusCode.isSuccess (status : StatusCode) : Bool := 200 ≤ status.code ∧ status.code < 300

/-- `OAuthErrorResponse`. -/
structure OAuthErrorResponse where
  error : Option String
  errorDescription : Option String
  message : Option String

/-- A response: its status, and what reading its body as JSON gives, as what is expected of a
success and as an error. -/
structure Response (β : Type) where
  status : StatusCode
  json : Except String β
  oauth : Except String OAuthErrorResponse

/-- `WorkspaceAuthUser`, as a session names it. -/
structure SessionUser where
  id : String
  email : String
  displayName : String

/-- `RemoteWorkspaceResponse`. -/
structure RemoteWorkspaceResponse where
  id : String
  name : String
  role : Option String

/-- `RemoteConnectionResponse`. -/
structure RemoteConnectionResponse where
  id : String
  name : String
  engine : String
  provider : String
  driverId : Option String
  host : String
  port : UInt16
  database : String
  sslmode : String
  readonlyDefault : Bool
  allowWrites : Bool
  env : Option String
  schemaGroup : Option String
  revision : ℤ
  accessMode : String
  credentialMode : String

/-- `AuthorizedConnectionResponse`. -/
structure AuthorizedConnectionResponse where
  allowed : Bool
  action : String
  accessMode : String
  revision : ℤ

/-- `RemoteManagedLease`. -/
structure RemoteManagedLease where
  id : String
  provider : String
  engine : String
  host : String
  port : UInt16
  database : String
  username : String
  password : String
  sslmode : String
  tlsServerCaPem : Option String
  accessMode : String
  expiresAt : String

/-- `SharedConnectionRequest`. -/
structure SharedConnectionRequest where
  name : String
  engine : String
  provider : String
  driverId : Option String
  host : String
  port : UInt16
  database : String
  sslmode : String
  readonlyDefault : Bool
  allowWrites : Bool
  env : Option String
  schemaGroup : Option String

/-! ### Calls -/

/-- A request that carries a session token, other than the session check. -/
inductive Request
  | signOut
  | workspaces
  | connections (workspaceId : Uuid)
  | share (workspaceId : Uuid) (request : SharedConnectionRequest)
  | delete (workspaceId connectionId : Uuid)
  | authorize (workspaceId connectionId : Uuid) (action : String)
  | lease (workspaceId connectionId : Uuid) (accessMode : String)
  | release (workspaceId connectionId leaseId : Uuid)

/-- What a success is answered with. -/
abbrev Body : Request → Type
  | .signOut => Unit
  | .workspaces => List RemoteWorkspaceResponse
  | .connections _ => List RemoteConnectionResponse
  | .share _ _ => RemoteConnectionResponse
  | .delete _ _ => Unit
  | .authorize _ _ _ => AuthorizedConnectionResponse
  | .lease _ _ _ => RemoteManagedLease
  | .release _ _ _ => Unit

/-- Why the credential store is accessed: the caller has asked for it, or a stored session is
deleted after an answer to its token. The credential store looks at none of it. -/
inductive Reason
  | asked
  | unauthorized (token : String)
  | otherUser (token : String)

/-- An access to the credential store or to its cache, or a request. -/
inductive Call
  | keychain (access : Keychain.Access) (reason : Reason)
  | session (token : String)
  | request (request : Request) (token : String)
  | token (deviceCode : String)

/-- A request that was not answered: `origin` or `client` fails, or sending it. -/
inductive SendError
  | unprepared (error : AppError)
  | failed (text : String)

/-- What a call answers. -/
abbrev Answer : Call → Type
  | .keychain access _ => Keychain.Answer access
  | .session _ => Except SendError (Response SessionUser)
  | .request request _ => Except SendError (Response (Body request))
  | .token _ => Except SendError (Response String)

/-- The credential store and its cache, and the tokens that the control plane has answered 401. -/
structure State where
  keychain : Keychain.Stores
  rejected : String → Prop

/-- A token was answered with a status. -/
def State.answer (s : State) (token : String) (status : StatusCode) : State :=
  { s with rejected := fun t => status.code = 401 ∧ t = token ∨ s.rejected t }

/-- What a call does. `owner` is the user of a token: a session names no other, by the text of a
UUID that the control plane has generated. -/
def Answered (owner : String → Uuid) (s : State) : (c : Call) → Answer c → State → Prop
  | .keychain access _, answer, s' => ∃ keychain,
      Keychain.Answered s.keychain access answer keychain ∧ s' = { s with keychain }
  | .session token, .ok response, s' => s' = s.answer token response.status ∧
      ∀ user, response.json = .ok user → user.id = (owner token).toText
  | .request _ token, .ok response, s' => s' = s.answer token response.status
  | _, _, s' => s' = s

/-- Calls that may fail. -/
abbrev CallM (α : Type) := ExceptT AppError (Program Call Answer) α

/-! ### What an answer comes to -/

section Pure

/-- `request_error`. -/
def requestError (action error : String) : AppError := .network (action ++ " failed: " ++ error)

def SendError.into (action : String) : SendError → AppError
  | .unprepared error => error
  | .failed text => requestError action text

/-- `oauth_error`. -/
def oauthError {β : Type} (response : Response β) : AppError :=
  let detail := response.oauth.toOption.bind fun value => value.errorDescription <|> value.message
  .network ("workspace authentication returned " ++ response.status.text ++ ": " ++
    detail.getD "the control plane rejected the request")

/-- A success, whose body can be read. -/
def Response.success {β : Type} (response : Response β) (action : String) : AppResult β :=
  if response.status.isSuccess then response.json.mapError (requestError action)
  else .error (oauthError response)

/-- `valid_device_code`. -/
def validDeviceCode (deviceCode : String) : Bool :=
  deviceCode.utf8ByteSize = 40 ∧ deviceCode.toList.all Char.isAlphanum

/-- `parse_provider`. -/
def parseProvider : String → AppResult Provider
  | "auto" => .ok .auto
  | "generic" => .ok .generic
  | "neon" => .ok .neon
  | "planetScale" => .ok .planetScale
  | "gcpCloudSql" => .ok .gcpCloudSql
  | other => .error (.config ("unknown provider '" ++ other ++ "'"))

/-- `provider_str`. -/
def providerStr : Provider → String
  | .auto => "auto"
  | .generic => "generic"
  | .neon => "neon"
  | .planetScale => "planetScale"
  | .gcpCloudSql => "gcpCloudSql"

theorem parseProvider_providerStr (provider : Provider) :
    parseProvider (providerStr provider) = .ok provider := by
  cases provider <;> rfl

/-- `parse_workspace_access`. -/
def parseWorkspaceAccess : String → AppResult WorkspaceConnectionAccess
  | "view" => .ok .view
  | "read" => .ok .read
  | "write" => .ok .write
  | "manage" => .ok .manage
  | "local" => .ok .local_
  | other => .error (.config ("unknown workspace connection access '" ++ other ++ "'"))

/-- `parse_credential_mode`. -/
def parseCredentialMode : String → AppResult WorkspaceCredentialMode
  | "local" => .ok .local_
  | "member_local" => .ok .memberLocal
  | "managed" => .ok .managed
  | other => .error (.config ("unknown workspace credential mode '" ++ other ++ "'"))

/-- The texts of a role; a workspace without one is a viewer's. -/
def parseRole : String → AppResult WorkspaceRole
  | "viewer" => .ok .viewer
  | "analyst" => .ok .analyst
  | "editor" => .ok .editor
  | "admin" => .ok .admin
  | "owner" => .ok .owner
  | _ => .error (.network "workspace membership returned an invalid role")

variable (parseUuid : String → Option Uuid)

/-- The id of an account; neither of the excluded texts is one of a UUID. -/
def accountId (text : String) : Option UserId :=
  if h : (parseUuid text).isSome ∧ text ≠ "" ∧ text ≠ "personal" then
    some ⟨text, h.2.1, h.2.2⟩
  else none

/-- The identity a session names. -/
def sessionUser (user : SessionUser) : AppResult WorkspaceAuthUser :=
  match accountId parseUuid user.id with
  | none => .error (.network "workspace session returned an invalid user identity")
  | some id =>
      if isBlank user.email ∨ user.email.utf8ByteSize > 320 ∨ isBlank user.displayName ∨
          user.displayName.utf8ByteSize > 120 then
        .error (.network "workspace session returned an invalid user identity")
      else .ok ⟨id, user.email, user.displayName⟩

/-- `RemoteWorkspace`. -/
structure RemoteWorkspace where
  id : Uuid
  name : String
  role : WorkspaceRole

/-- One membership of the answer to `remote_workspaces`. -/
def remoteWorkspace (workspace : RemoteWorkspaceResponse) : AppResult RemoteWorkspace :=
  match parseUuid workspace.id with
  | none => .error (.network "workspace membership returned an invalid id")
  | some id =>
      let name := trim workspace.name
      if name = "" ∨ name.utf8ByteSize > 120 then
        .error (.network "workspace membership returned an invalid name")
      else (parseRole (workspace.role.getD "viewer")).map fun role => ⟨id, name, role⟩

/-- `remote_connection`. -/
def remoteConnection (value : RemoteConnectionResponse) : AppResult (ConnectionProfile × ℤ) :=
  match parseUuid value.id with
  | none => .error (.network "shared connection returned an invalid id")
  | some id => do
      refuseIf (isBlank value.name ∨ value.name.utf8ByteSize > 120 ∨ value.host.utf8ByteSize > 512)
        (.network "shared connection returned invalid metadata")
      let access ← parseWorkspaceAccess value.accessMode
      refuseIf (access = .local_) (.network "shared connection returned invalid access")
      let credentialMode ← parseCredentialMode value.credentialMode
      refuseIf (credentialMode = .local_)
        (.network "shared connection returned invalid credential mode")
      refuseIf (value.revision < 1) (.network "shared connection returned invalid revision")
      let engine ← Audit.parseEngine value.engine
      let provider ← parseProvider value.provider
      pure ({ id, name := value.name, engine, provider
              driverId := value.driverId
              host := value.host
              port := value.port
              database := value.database
              username := ""
              sslmode := value.sslmode
              extraParams := "\x7b\x7d"
              readonlyDefault := value.readonlyDefault
              allowWrites := value.allowWrites && access.canWrite
              secretRef := none
              env := value.env
              schemaGroup := value.schemaGroup
              workspaceAccess := access
              credentialMode }, value.revision)

/-- What is shared of a profile: nothing of its credentials. -/
def SharedConnectionRequest.ofProfile (profile : ConnectionProfile) : SharedConnectionRequest where
  name := profile.name
  engine := engineStr profile.engine
  provider := providerStr profile.provider
  driverId := profile.driverId
  host := profile.host
  port := profile.port
  database := profile.database
  sslmode := profile.sslmode
  readonlyDefault := profile.readonlyDefault
  allowWrites := profile.allowWrites
  env := profile.env
  schemaGroup := profile.schemaGroup

/-- The action a shared connection is used for, and the access that is leased. -/
def actionStr (write : Bool) : String := if write then "write" else "read"

/-- The revision an authorization is for. -/
def authority (write : Bool) (authority : AuthorizedConnectionResponse) : AppResult ℤ := do
  let access ← parseWorkspaceAccess authority.accessMode
  refuseIf (¬ authority.allowed ∨ authority.action ≠ actionStr write ∨ authority.revision < 1 ∨
      access = .local_ ∨ (write ∧ ¬ access.canWrite) ∨ (¬ write ∧ ¬ access.canRead))
    (.network "shared connection authorization returned invalid authority")
  pure authority.revision

/-- The TLS material each provider hands out. -/
def validProviderTls (sslmode : String) (ca : Option String) : Provider → Bool
  | .neon | .planetScale => sslmode = "verify-full" ∧ ca = none
  | .gcpCloudSql => (sslmode = "verify-ca" ∨ sslmode = "verify-full") ∧ ca.any fun pem =>
      pem.utf8ByteSize ≤ 64 * 1024 ∧
        "-----BEGIN CERTIFICATE-----".toList.isPrefixOf pem.toList ∧
        "-----END CERTIFICATE-----".toList.isSuffixOf (pem.toList.rdropWhile isWhitespace) ∧
        '\x00' ∉ pem.toList
  | .auto | .generic => false

/-- `ManagedConnectionLease`; it is valid for whole seconds. -/
structure ManagedConnectionLease where
  leaseId : Uuid
  profile : ConnectionProfile
  secret : String
  validFor : ℕ

/-- The lease an answer hands out. `secondsUntil` is how many whole seconds the instant of an RFC
3339 text is ahead. -/
def managedLease (secondsUntil : String → Option ℤ) (profile : ConnectionProfile) (write : Bool)
    (lease : RemoteManagedLease) : AppResult ManagedConnectionLease :=
  match parseUuid lease.id with
  | none => .error (.network "managed database access returned an invalid id")
  | some leaseId => do
      let provider ← parseProvider lease.provider
      let engine ← Audit.parseEngine lease.engine
      refuseIf (engine ≠ profile.engine ∨ provider ≠ profile.provider ∨ lease.host = "" ∨
          lease.host.utf8ByteSize > 512 ∨ "://".toList <:+: lease.host.toList ∨
          lease.host.toList.any isWhitespace ∨ lease.port = 0 ∨ lease.database = "" ∨
          lease.database.utf8ByteSize > 512 ∨ lease.username = "" ∨
          lease.username.utf8ByteSize > 512 ∨ lease.password = "" ∨
          lease.password.utf8ByteSize > 65536 ∨
          ¬ validProviderTls lease.sslmode lease.tlsServerCaPem provider ∨
          lease.accessMode ≠ actionStr write ∨ (write ∧ ¬ profile.workspaceAccess.canWrite))
        (.network "managed database access returned invalid connection material")
      match secondsUntil lease.expiresAt with
      | none => throw (.network "managed database access returned invalid expiry")
      | some seconds => do
          refuseIf (seconds < 30 ∨ 20 * 60 < seconds)
            (.network "managed database access returned an unsafe expiry")
          let extraParams := Json.print (.object (lease.tlsServerCaPem.toList.map fun pem =>
            ("sslrootcert_pem", .string pem)))
          pure
            { leaseId
              profile := { profile with
                provider
                host := lease.host
                port := lease.port
                database := lease.database
                username := lease.username
                sslmode := lease.sslmode
                extraParams
                secretRef := none }
              secret := lease.password
              validFor := seconds.toNat }

/-- `WorkspaceLoginPollStatus`. -/
inductive WorkspaceLoginPollStatus
  | pending
  | slowDown
  | denied
  | expired
  | signedIn
  deriving DecidableEq

/-- `WorkspaceLoginPoll`. -/
structure WorkspaceLoginPoll where
  status : WorkspaceLoginPollStatus
  user : Option WorkspaceAuthUser

/-- What a poll that was refused comes to. -/
def pollStatus (status : StatusCode) (body : OAuthErrorResponse) :
    AppResult WorkspaceLoginPollStatus :=
  match body.error with
  | some "authorization_pending" => .ok .pending
  | some "slow_down" => .ok .slowDown
  | some "access_denied" => .ok .denied
  | some "expired_token" | some "invalid_grant" => .ok .expired
  | _ => .error (.network ("workspace login returned " ++ status.text ++ ": " ++
      (body.errorDescription <|> body.message).getD "the control plane rejected the request"))

end Pure

/-! ### The functions -/

section Functions

variable (parseUuid : String → Option Uuid)

/-- An answer of no call. -/
def answer {α : Type} (result : AppResult α) : CallM α := ExceptT.mk (.done result)

/-- A call of `keychain.rs`. -/
def vault (reason : Reason) (run : Keychain.Run) : Program Call Answer Keychain.Outcome :=
  embed (.keychain · reason) (fun _ a => a) run

/-- `fetch_workspace_session`. A fetch comes back with a session. -/
def fetchWorkspaceSession (userId : String) : CallM (Option String) :=
  ExceptT.mk ((vault .asked (Keychain.fetchWorkspaceSession parseUuid userId)).bind fun
    | .session found => .done found
    | _ => .done (.ok none))

/-- `store_workspace_session`. A store comes back with no more than its result. -/
def storeWorkspaceSession (userId token : String) : CallM Unit :=
  ExceptT.mk ((vault .asked (Keychain.storeWorkspaceSession parseUuid userId token)).bind fun
    | .stored result => .done result
    | _ => .done (.ok ()))

/-- `delete_workspace_session`. A delete comes back with no more than its result. -/
def deleteWorkspaceSession (userId : String) (reason : Reason) : CallM Unit :=
  ExceptT.mk ((vault reason (Keychain.deleteWorkspaceSession parseUuid userId)).bind fun
    | .deleted result => .done result
    | _ => .done (.ok ()))

/-- A request, up to its response. -/
def send (request : Request) (token action : String) : CallM (Response (Body request)) :=
  ExceptT.mk (.call (.request request token) fun response =>
    .done (response.mapError (SendError.into action)))

/-- `session_for_token`. -/
def sessionForToken (token : String) : CallM (Option WorkspaceAuthUser) :=
  ExceptT.mk (.call (.session token) fun
    | .error e => .done (.error (e.into "checking workspace session"))
    | .ok response =>
        if response.status.code = 401 then .done (.ok none)
        else .done ((response.success "reading workspace session").bind fun user =>
          (sessionUser parseUuid user).map some))

/-- The token of an account that has to be signed in. -/
def requireSession (userId missing : String) : CallM String := do
  match ← fetchWorkspaceSession parseUuid userId with
  | none => throw (.config missing)
  | some token => pure token

/-- A request that the control plane does not accept the token of deletes the stored session. -/
def deleteIfUnauthorized {β : Type} (userId token : String) (response : Response β) : CallM Unit :=
  if response.status.code = 401 then deleteWorkspaceSession parseUuid userId (.unauthorized token)
  else pure ()

/-- `auth_user`. -/
def authUser (userId : String) : CallM (Option WorkspaceAuthUser) := do
  match ← fetchWorkspaceSession parseUuid userId with
  | none => pure none
  | some token => do
      let user ← sessionForToken parseUuid token
      if user.map (·.id.text) = some userId then pure user
      else do
        deleteWorkspaceSession parseUuid userId
          (if user.isNone then .unauthorized token else .otherUser token)
        pure none

/-- `fetch_legacy_workspace_session`. -/
def fetchLegacyWorkspaceSession : CallM (Option String) :=
  ExceptT.mk ((vault .asked Keychain.fetchLegacyWorkspaceSession).bind fun
    | .session found => .done found
    | _ => .done (.ok none))

/-- `delete_legacy_workspace_session`. -/
def deleteLegacyWorkspaceSession : CallM Unit :=
  ExceptT.mk ((vault .asked Keychain.deleteLegacyWorkspaceSession).bind fun
    | .deleted result => .done result
    | _ => .done (.ok ()))

/-- `migrate_legacy_session`. -/
def migrateLegacySession : CallM (Option WorkspaceAuthUser) := do
  match ← fetchLegacyWorkspaceSession with
  | none => pure none
  | some token => do
      let user ← sessionForToken parseUuid token
      match user with
      | some user => storeWorkspaceSession parseUuid user.id.text token
      | none => pure ()
      deleteLegacyWorkspaceSession
      pure user

/-- `sign_out`. Whether the session could be revoked makes no difference. -/
def signOut (userId : String) : CallM Unit := do
  match ← fetchWorkspaceSession parseUuid userId with
  | none => deleteWorkspaceSession parseUuid userId .asked
  | some token => do
      let _ ← ExceptT.lift (perform (.request .signOut token))
      deleteWorkspaceSession parseUuid userId .asked

/-- `remote_workspaces`. -/
def remoteWorkspaces (userId : String) : CallM (List RemoteWorkspace) := do
  let token ← requireSession parseUuid userId
    "workspace memberships require an authenticated session"
  let response ← send .workspaces token "loading workspace memberships"
  if response.status.code = 401 then do
    deleteWorkspaceSession parseUuid userId (.unauthorized token)
    throw (.network "workspace session is no longer active")
  else
    let workspaces ← answer (response.success "reading workspace memberships")
    answer (workspaces.mapM (remoteWorkspace parseUuid))

/-- `remote_connections`. A control plane without the route leaves the local cache as it is. -/
def remoteConnections (userId : String) (workspaceId : Uuid) :
    CallM (Option (List (ConnectionProfile × ℤ))) := do
  let token ← requireSession parseUuid userId "shared connections require an authenticated session"
  let response ← send (.connections workspaceId) token "loading shared connections"
  if response.status.code = 404 then pure none
  else do
    deleteIfUnauthorized parseUuid userId token response
    let connections ← answer (response.success "reading shared connections")
    some <$> answer (connections.mapM (remoteConnection parseUuid))

/-- `share_connection`. -/
def shareConnection (userId : String) (workspaceId : Uuid) (profile : ConnectionProfile) :
    CallM (ConnectionProfile × ℤ) := do
  let token ← requireSession parseUuid userId
    "sharing a connection requires an authenticated session"
  let response ← send (.share workspaceId (.ofProfile profile)) token "sharing connection"
  deleteIfUnauthorized parseUuid userId token response
  let connection ← answer (response.success "reading shared connection")
  answer (remoteConnection parseUuid connection)

/-- `delete_connection`. A connection that is gone already is deleted. -/
def deleteConnection (userId : String) (workspaceId connectionId : Uuid) : CallM Unit := do
  let token ← requireSession parseUuid userId
    "deleting a shared connection requires an authenticated session"
  let response ← send (.delete workspaceId connectionId) token "deleting shared connection"
  deleteIfUnauthorized parseUuid userId token response
  if response.status.isSuccess ∨ response.status.code = 404 then pure ()
  else throw (oauthError response)

/-- `authorize_connection`. -/
def authorizeConnection (userId : String) (workspaceId connectionId : Uuid) (write : Bool) :
    CallM ℤ := do
  let token ← requireSession parseUuid userId
    "shared connection access requires an authenticated session"
  let response ← send (.authorize workspaceId connectionId (actionStr write)) token
    "authorizing shared connection"
  deleteIfUnauthorized parseUuid userId token response
  let authorized ← answer (response.success "reading shared connection authorization")
  answer (authority write authorized)

/-- `issue_managed_connection_lease`. -/
def issueManagedConnectionLease (secondsUntil : String → Option ℤ) (userId : String)
    (workspaceId : Uuid) (profile : ConnectionProfile) (write : Bool) :
    CallM ManagedConnectionLease :=
  if profile.credentialMode ≠ .managed then
    throw (.config "managed credentials were requested for a local binding")
  else do
    let token ← requireSession parseUuid userId
      "managed database access requires an authenticated session"
    let response ← send (.lease workspaceId profile.id (actionStr write)) token
      "requesting managed database access"
    deleteIfUnauthorized parseUuid userId token response
    let lease ← answer (response.success "reading managed database access")
    answer (managedLease parseUuid secondsUntil profile write lease)

/-- `release_managed_connection_lease`. An account that is signed out has nothing to release. -/
def releaseManagedConnectionLease (userId : String) (workspaceId connectionId leaseId : Uuid) :
    CallM Unit := do
  match ← fetchWorkspaceSession parseUuid userId with
  | none => pure ()
  | some token => do
      let response ← send (.release workspaceId connectionId leaseId) token
        "releasing managed database access"
      deleteIfUnauthorized parseUuid userId token response
      if response.status.isSuccess then pure () else throw (oauthError response)

/-- What is done with the token of a login. -/
def signIn (token : String) : CallM WorkspaceLoginPoll :=
  if token.utf8ByteSize < 20 ∨ token.utf8ByteSize > 4096 ∨ token.toList.any isWhitespace then
    throw (.network "workspace login returned an invalid session token")
  else do
    match ← sessionForToken parseUuid token with
    | none => throw (.network "workspace login returned an inactive session")
    | some user => do
        storeWorkspaceSession parseUuid user.id.text token
        pure ⟨.signedIn, some user⟩

/-- `poll_login`. -/
def pollLogin (deviceCode : String) : CallM WorkspaceLoginPoll :=
  if ¬ validDeviceCode deviceCode then throw (.config "invalid workspace device code")
  else do
    let response ← ExceptT.mk (.call (.token deviceCode) fun response =>
      .done (response.mapError (SendError.into "polling workspace login")))
    if response.status.isSuccess then do
      let token ← answer (response.json.mapError (requestError "reading workspace session token"))
      signIn parseUuid token
    else do
      let body ← answer (response.oauth.mapError (requestError "reading workspace login status"))
      let status ← answer (pollStatus response.status body)
      pure ⟨status, none⟩

/-- A call of one of the functions. -/
inductive Op
  | authUser (userId : String)
  | signOut (userId : String)
  | remoteWorkspaces (userId : String)
  | remoteConnections (userId : String) (workspaceId : Uuid)
  | shareConnection (userId : String) (workspaceId : Uuid) (profile : ConnectionProfile)
  | deleteConnection (userId : String) (workspaceId connectionId : Uuid)
  | authorizeConnection (userId : String) (workspaceId connectionId : Uuid) (write : Bool)
  | issueManagedConnectionLease (secondsUntil : String → Option ℤ) (userId : String)
      (workspaceId : Uuid) (profile : ConnectionProfile) (write : Bool)
  | releaseManagedConnectionLease (userId : String) (workspaceId connectionId leaseId : Uuid)
  | pollLogin (deviceCode : String)

/-- What a call comes back with. -/
inductive Outcome
  | user (result : AppResult (Option WorkspaceAuthUser))
  | unit (result : AppResult Unit)
  | workspaces (result : AppResult (List RemoteWorkspace))
  | connections (result : AppResult (Option (List (ConnectionProfile × ℤ))))
  | connection (result : AppResult (ConnectionProfile × ℤ))
  | authority (result : AppResult ℤ)
  | lease (result : AppResult ManagedConnectionLease)
  | login (result : AppResult WorkspaceLoginPoll)

/-- A call under way. -/
abbrev Run := Program Call Answer Outcome

/-- The call is run to its end, whatever it is. -/
def CallM.ended {α : Type} (call : CallM α) (outcome : AppResult α → Outcome) : Run :=
  call.run.bind fun result => .done (outcome result)

/-- The program of a call. -/
def Op.program : Op → Run
  | .authUser user => (WorkspaceAuth.authUser parseUuid user).ended .user
  | .signOut user => (WorkspaceAuth.signOut parseUuid user).ended .unit
  | .remoteWorkspaces user => (WorkspaceAuth.remoteWorkspaces parseUuid user).ended .workspaces
  | .remoteConnections user workspaceId =>
      (WorkspaceAuth.remoteConnections parseUuid user workspaceId).ended .connections
  | .shareConnection user workspaceId profile =>
      (WorkspaceAuth.shareConnection parseUuid user workspaceId profile).ended .connection
  | .deleteConnection user workspaceId id =>
      (WorkspaceAuth.deleteConnection parseUuid user workspaceId id).ended .unit
  | .authorizeConnection user workspaceId id write =>
      (WorkspaceAuth.authorizeConnection parseUuid user workspaceId id write).ended .authority
  | .issueManagedConnectionLease secondsUntil user workspaceId profile write =>
      (WorkspaceAuth.issueManagedConnectionLease parseUuid secondsUntil user workspaceId profile
        write).ended .lease
  | .releaseManagedConnectionLease user workspaceId id leaseId =>
      (WorkspaceAuth.releaseManagedConnectionLease parseUuid user workspaceId id leaseId).ended
        .unit
  | .pollLogin deviceCode => (WorkspaceAuth.pollLogin parseUuid deviceCode).ended .login

/-- The account a call is made for. -/
def Op.userId : Op → Option String
  | .authUser user => some user
  | .signOut user => some user
  | .remoteWorkspaces user => some user
  | .remoteConnections user _ => some user
  | .shareConnection user _ _ => some user
  | .deleteConnection user _ _ => some user
  | .authorizeConnection user _ _ _ => some user
  | .issueManagedConnectionLease _ user _ _ _ => some user
  | .releaseManagedConnectionLease user _ _ _ => some user
  | .pollLogin _ => none

end Functions

end WorkspaceAuth
end Services
end AgentDb
