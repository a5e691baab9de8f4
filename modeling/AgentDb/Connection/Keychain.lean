import AgentDb.Error
import AgentDb.Lib.Crew
import AgentDb.Scalars

/-!
# The credential store and its cache: `connection/keychain.rs`

Secrets are at rest in the credential store of the operating system; a cache of the process keeps
those that were read or stored. No lock covers the two: each access is one step, and any number of
threads take theirs in any order. The build is a release build, so the file fallback of debug
builds is left out, and what `delete` does to its file is neither read nor reported.
-/

namespace AgentDb
namespace Connection
namespace Keychain

open Crew Program

/-! ### Accesses -/

/-- `keyring::Error`, by its text: no credential under the name, or a failure of the store. -/
inductive KeyringError
  | noEntry (text : String)
  | failed (text : String)
  deriving DecidableEq, Repr

/-- An access to the session cache or to the credential store. -/
inductive Access
  | cacheGet (account : String)
  | cacheInsert (account secret : String)
  | cacheRemove (account : String)
  | setPassword (account secret : String)
  | getPassword (account : String)
  | deleteCredential (account : String)
  deriving DecidableEq, Repr

/-- What an access answers. -/
abbrev Answer : Access → Type
  | .cacheGet _ => Option String
  | .cacheInsert _ _ => Unit
  | .cacheRemove _ => Unit
  | .setPassword _ _ => Except KeyringError Unit
  | .getPassword _ => Except KeyringError String
  | .deleteCredential _ => Except KeyringError Unit

/-- The account an access is about. -/
def Access.account : Access → String
  | .cacheGet account => account
  | .cacheInsert account _ => account
  | .cacheRemove account => account
  | .setPassword account _ => account
  | .getPassword account => account
  | .deleteCredential account => account

/-- `SESSION_CACHE` and the credential store. -/
structure Stores where
  cache : String → Option String
  os : String → Option String

/-- The cache of an account is set, or emptied. -/
def Stores.setCache (s : Stores) (account : String) (secret : Option String) : Stores :=
  { s with cache := Function.update s.cache account secret }

/-- The credential of an account is set, or deleted. -/
def Stores.setOs (s : Stores) (account : String) (secret : Option String) : Stores :=
  { s with os := Function.update s.os account secret }

/-- What an access does. A failed access to the credential store leaves it as it is. -/
def Answered (s : Stores) : (c : Access) → Answer c → Stores → Prop
  | .cacheGet account, found, s' => found = s.cache account ∧ s' = s
  | .cacheInsert account secret, _, s' => s' = s.setCache account (some secret)
  | .cacheRemove account, _, s' => s' = s.setCache account none
  | .setPassword account secret, .ok _, s' => s' = s.setOs account (some secret)
  | .setPassword _ _, .error _, s' => s' = s
  | .getPassword account, .ok secret, s' => s.os account = some secret ∧ s' = s
  | .getPassword account, .error (.noEntry _), s' => s.os account = none ∧ s' = s
  | .getPassword _, .error (.failed _), s' => s' = s
  | .deleteCredential account, .ok _, s' => s' = s.setOs account none
  | .deleteCredential account, .error (.noEntry _), s' => s.os account = none ∧ s' = s
  | .deleteCredential _, .error (.failed _), s' => s' = s

/-- What the two stores hold of an account. -/
def Stores.holds (s : Stores) (account : String) : Option String × Option String :=
  (s.cache account, s.os account)

section Holds

variable (s : Stores) (account : String) (secret : Option String)

@[simp] theorem holds_setCache : (s.setCache account secret).holds account = (secret, s.os account) :=
  Prod.ext (Function.update_self ..) rfl

@[simp] theorem holds_setOs : (s.setOs account secret).holds account = (s.cache account, secret) :=
  Prod.ext rfl (Function.update_self ..)

theorem cache_setCache : (s.setCache account secret).cache account = secret :=
  Function.update_self ..

variable {account} {other : String}

theorem holds_setCache_of_ne (hne : other ≠ account) :
    (s.setCache account secret).holds other = s.holds other :=
  Prod.ext (Function.update_of_ne hne ..) rfl

theorem holds_setOs_of_ne (hne : other ≠ account) :
    (s.setOs account secret).holds other = s.holds other :=
  Prod.ext rfl (Function.update_of_ne hne ..)

end Holds

/-! ### The functions -/

/-- What a call comes back with. -/
inductive Outcome
  | stored (result : AppResult Unit)
  | secret (result : AppResult String)
  | session (result : AppResult (Option String))
  | deleted (result : AppResult Unit)

/-- The secret a call hands out, if it does. -/
def Outcome.handsOut : Outcome → Option String
  | .secret (.ok text) => some text
  | .session (.ok token) => token
  | _ => none

/-- A call under way. -/
abbrev Run := Program Access Answer Outcome

/-- `AppError::from` of a `keyring::Error`. -/
def KeyringError.into : KeyringError → AppError
  | .noEntry text => .keychain text
  | .failed text => .keychain text

/-- The body of `store_secret` and of `store_workspace_session_account`: the credential store
first, then `remember_secret`. -/
def storeAccount (account secret : String) : Run :=
  .call (.setPassword account secret) fun
    | .ok _ => .call (.cacheInsert account secret) fun _ => .done (.stored (.ok ()))
    | .error e => .done (.stored (.error e.into))

/-- A read of the credential store, whose secret is remembered. -/
def readStore (account : String) (hit : String → Outcome) (miss : KeyringError → Outcome) : Run :=
  .call (.getPassword account) fun
    | .ok secret => .call (.cacheInsert account secret) fun _ => .done (hit secret)
    | .error e => .done (miss e)

/-- `read_cached_secret` and the body of `fetch_workspace_session_account`: the cache, else the
credential store. -/
def readAccount (account : String) (hit : String → Outcome) (miss : KeyringError → Outcome) : Run :=
  .call (.cacheGet account) fun
    | some secret => .done (hit secret)
    | none => readStore account hit miss

/-- The body of `delete_secret` and of `delete_workspace_session_account`: `forget_secret` first,
then the credential store. -/
def deleteAccount (account : String) : Run :=
  .call (.cacheRemove account) fun _ =>
    .call (.deleteCredential account) fun
      | .ok _ => .done (.deleted (.ok ()))
      | .error (.noEntry _) => .done (.deleted (.ok ()))
      | .error (.failed text) => .done (.deleted (.error (KeyringError.failed text).into))

section Functions

variable (parseUuid : String → Option Uuid)

/-- `workspace_session_account`. -/
def workspaceSessionAccount (userId : String) : AppResult String :=
  match parseUuid userId with
  | none => .error (.config "workspace account id is invalid")
  | some id => .ok ("workspace-session:" ++ id.toText)

/-- `LEGACY_WORKSPACE_SESSION_ACCOUNT`. -/
def legacyWorkspaceSessionAccount : String := "workspace-session"

/-- A call of one of the functions. -/
inductive Op
  | storeSecret (connectionId : Uuid) (secret : String)
  | fetchSecret (connectionId : Uuid)
  | deleteSecret (connectionId : Uuid)
  | storeWorkspaceSession (userId token : String)
  | fetchWorkspaceSession (userId : String)
  | deleteWorkspaceSession (userId : String)
  | fetchLegacyWorkspaceSession
  | deleteLegacyWorkspaceSession

/-- `store_secret`. -/
def storeSecret (connectionId : Uuid) (secret : String) : Run :=
  storeAccount connectionId.toText secret

/-- `fetch_secret`. -/
def fetchSecret (connectionId : Uuid) : Run :=
  readAccount connectionId.toText (fun secret => .secret (.ok secret)) fun
    | .noEntry _ => .secret (.error (.notFound ("no secret for connection " ++ connectionId.toText)))
    | .failed text => .secret (.error (KeyringError.failed text).into)

/-- `delete_secret`. -/
def deleteSecret (connectionId : Uuid) : Run := deleteAccount connectionId.toText

/-- `fetch_workspace_session_account`. -/
def fetchWorkspaceSessionAccount (account : String) : Run :=
  readAccount account (fun token => .session (.ok (some token))) fun
    | .noEntry _ => .session (.ok none)
    | .failed text => .session (.error (KeyringError.failed text).into)

/-- `store_workspace_session`. -/
def storeWorkspaceSession (userId token : String) : Run :=
  match workspaceSessionAccount parseUuid userId with
  | .error e => .done (.stored (.error e))
  | .ok account => storeAccount account token

/-- `fetch_workspace_session`. -/
def fetchWorkspaceSession (userId : String) : Run :=
  match workspaceSessionAccount parseUuid userId with
  | .error e => .done (.session (.error e))
  | .ok account => fetchWorkspaceSessionAccount account

/-- `delete_workspace_session`. -/
def deleteWorkspaceSession (userId : String) : Run :=
  match workspaceSessionAccount parseUuid userId with
  | .error e => .done (.deleted (.error e))
  | .ok account => deleteAccount account

/-- `fetch_legacy_workspace_session`. -/
def fetchLegacyWorkspaceSession : Run := fetchWorkspaceSessionAccount legacyWorkspaceSessionAccount

/-- `delete_legacy_workspace_session`. -/
def deleteLegacyWorkspaceSession : Run := deleteAccount legacyWorkspaceSessionAccount

/-- The program of a call. -/
def Op.program : Op → Run
  | .storeSecret id secret => Keychain.storeSecret id secret
  | .fetchSecret id => Keychain.fetchSecret id
  | .deleteSecret id => Keychain.deleteSecret id
  | .storeWorkspaceSession user token => Keychain.storeWorkspaceSession parseUuid user token
  | .fetchWorkspaceSession user => Keychain.fetchWorkspaceSession parseUuid user
  | .deleteWorkspaceSession user => Keychain.deleteWorkspaceSession parseUuid user
  | .fetchLegacyWorkspaceSession => Keychain.fetchLegacyWorkspaceSession
  | .deleteLegacyWorkspaceSession => Keychain.deleteLegacyWorkspaceSession

/-- Whose secret an account keeps. -/
inductive Owner
  | connection (id : Uuid)
  | workspaceUser (id : Uuid)
  | legacyWorkspace
  deriving DecidableEq

/-- The name of an account. -/
def Owner.account : Owner → String
  | .connection id => id.toText
  | .workspaceUser id => "workspace-session:" ++ id.toText
  | .legacyWorkspace => legacyWorkspaceSessionAccount

theorem length_toText (id : Uuid) : id.toText.length = 36 := by
  have hdigits : id.digits.length = 32 := by simp [Uuid.digits]
  rw [Uuid.toText, String.length_ofList]
  simp [hdigits]

/-- No two owners share an account: the names of the three kinds have different lengths. -/
theorem Owner.account_injective : Function.Injective Owner.account := by
  have hsession : ∀ id : Uuid, ("workspace-session:" ++ id.toText).length = 54 := fun id => by
    rw [String.length_append, length_toText]
    rfl
  have hlegacy : legacyWorkspaceSessionAccount.length = 17 := rfl
  have hne : ∀ {s t : String} {m n : ℕ}, s.length = m → t.length = n → m ≠ n → s ≠ t := by
    rintro s t m n rfl rfl hmn rfl
    exact hmn rfl
  intro a b h
  cases a with
  | connection id =>
      cases b with
      | connection id' => exact congrArg _ (Uuid.toText_injective h)
      | workspaceUser id' => exact absurd h (hne (length_toText id) (hsession id') (by decide))
      | legacyWorkspace => exact absurd h (hne (length_toText id) hlegacy (by decide))
  | workspaceUser id =>
      cases b with
      | connection id' => exact absurd h (hne (hsession id) (length_toText id') (by decide))
      | workspaceUser id' =>
          rw [Uuid.toText_injective ((String.append_right_inj "workspace-session:").1 h)]
      | legacyWorkspace => exact absurd h (hne (hsession id) hlegacy (by decide))
  | legacyWorkspace =>
      cases b with
      | connection id' => exact absurd h (hne hlegacy (length_toText id') (by decide))
      | workspaceUser id' => exact absurd h (hne hlegacy (hsession id') (by decide))
      | legacyWorkspace => rfl

/-- Whose secret a call is about; a user id that is none has no account. -/
def Op.owner : Op → Option Owner
  | .storeSecret id _ => some (.connection id)
  | .fetchSecret id => some (.connection id)
  | .deleteSecret id => some (.connection id)
  | .storeWorkspaceSession user _ => (parseUuid user).map .workspaceUser
  | .fetchWorkspaceSession user => (parseUuid user).map .workspaceUser
  | .deleteWorkspaceSession user => (parseUuid user).map .workspaceUser
  | .fetchLegacyWorkspaceSession => some .legacyWorkspace
  | .deleteLegacyWorkspaceSession => some .legacyWorkspace

/-- The account a call is about. -/
def Op.account (op : Op) : Option String := (op.owner parseUuid).map Owner.account

theorem Op.account_eq_some_iff {op : Op} {owner : Owner} :
    op.account parseUuid = some owner.account ↔ op.owner parseUuid = some owner := by
  rw [Op.account, Option.map_eq_some_iff]
  constructor
  · rintro ⟨other, hother, heq⟩
    rw [hother, Owner.account_injective heq]
  · exact fun h => ⟨owner, h, rfl⟩

/-- What a call is for. -/
inductive Role
  | store (secret : String)
  | fetch
  | delete
  deriving DecidableEq, Repr

def Op.role : Op → Role
  | .storeSecret _ secret => .store secret
  | .storeWorkspaceSession _ token => .store token
  | .fetchSecret _ => .fetch
  | .fetchWorkspaceSession _ => .fetch
  | .fetchLegacyWorkspaceSession => .fetch
  | .deleteSecret _ => .delete
  | .deleteWorkspaceSession _ => .delete
  | .deleteLegacyWorkspaceSession => .delete

end Functions

end Keychain
end Connection
end AgentDb
