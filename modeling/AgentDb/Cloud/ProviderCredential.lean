import AgentDb.Cloud.LeaseCleanup
import AgentDb.Frontend.SchemaDiff
import Mathlib.Data.Prod.Lex

/-!
# The credential of a provider integration

The row of one PlanetScale account in `workspace_provider_integration`, and the requests that write
its credential: `providerAccessToken` of `lib/provider-integrations.ts`, which refreshes it, the
`GET` of `providers/planet-scale/callback`, which connects or reconnects the account, and the
`DELETE` of `provider-integrations/[integrationId]`. Between any two statements of a request any
other request may go on. A call of `revokeActiveLeases` reads the integration for itself, and is a
request of its own.
-/

namespace AgentDb
namespace Cloud

/-! ### Tokens -/

/-- `planetScaleManagedScopes`. -/
def planetScaleManagedScopes : List String :=
  ["read_organizations", "read_databases", "read_branches", "manage_passwords",
    "manage_production_branch_passwords"]

/-- `missingPlanetScaleManagedScopes`. -/
def missingPlanetScaleManagedScopes (scope : String) : List String :=
  let granted := (scope.toList.splitOnP Frontend.isBlank).map String.ofList
  planetScaleManagedScopes.filter fun item => item ∉ granted

/-- `PlanetScaleToken`. The provider's own numbers are not in it: of the grant that it belongs to,
and of the token among all that were issued. -/
structure PlanetScaleToken where
  accessToken : String
  refreshToken : String
  expiresAt : Millis
  scope : String
  grant : ℕ
  issue : ℕ
  deriving DecidableEq

/-- Newer are tokens of a later grant, and among those of one grant the ones issued later. -/
abbrev Stamp := ℕ ×ₗ ℕ

def PlanetScaleToken.stamp (t : PlanetScaleToken) : Stamp := toLex (t.grant, t.issue)

/-- What `sealProviderCredential` is given. -/
inductive SealedCredential
  | token (t : PlanetScaleToken)
  | scrubbed (revokedAt : Millis)
  deriving DecidableEq

/-- The body of a token response, as far as it is used. -/
structure TokenBody where
  accessToken : Option String
  refreshToken : Option String
  expiresIn : Option ℤ
  scope : Option String

/-- `oauthTokenRequest`, from the body on. -/
def oauthTokenRequest (body : TokenBody) (previousRefreshToken : Option String)
    (previousScope : String) (now : Millis) (grant issue : ℕ) : Option PlanetScaleToken := do
  let expiresIn := match body.expiresIn with
    | some n => if 0 < n then min n (60 * 60 * 24 * 31) else 60 * 60
    | none => 60 * 60
  let accessToken ← body.accessToken.filter (· ≠ "")
  let refreshToken ← (body.refreshToken.filter (· ≠ "")).or
    (previousRefreshToken.filter (· ≠ ""))
  return {
    accessToken
    refreshToken
    expiresAt := now + expiresIn * 1000
    scope := body.scope.getD previousScope
    grant
    issue }

/-! ### The row -/

/-- A row of `workspace_provider_integration`. -/
structure ProviderIntegration where
  provider : String
  status : String
  encryptedCredential : SealedCredential
  credentialExpiresAt : Option Millis
  grantedScope : Option String
  updatedAt : Millis
  revokedAt : Option Millis
  revocationPendingAt : Option Millis
  revocationClaimedAt : Option Millis
  revocationClaimId : Option ℕ
  deriving DecidableEq

/-- `ActiveProviderIntegration`, as a request has it, with the number of times that the account had
been connected when it was read. -/
structure ActiveProviderIntegration where
  provider : String
  encryptedCredential : SealedCredential
  credentialExpiresAt : Option Millis
  connects : ℕ

/-- `REVOCATION_CLAIM_STALE_MS`. -/
def revocationClaimStaleMs : Millis := 5 * 60 * 1000

namespace ProviderIntegration

variable (row : ProviderIntegration)

/-- `claimRevocationGate` for an integration. -/
def claimRevocationGate (claimedAt : Millis) (claimId : ℕ) : Option ProviderIntegration :=
  if row.status = "active" ∧ row.revokedAt = none ∧ (row.revocationClaimId = none ∨
      row.revocationClaimedAt.any fun t => t < claimedAt - revocationClaimStaleMs) then
    some { row with
      revocationPendingAt := some (row.revocationPendingAt.getD claimedAt)
      revocationClaimedAt := some claimedAt
      revocationClaimId := some claimId }
  else none

/-- `releaseRevocationGateClaim`. -/
def releaseRevocationGateClaim (claimId : ℕ) : ProviderIntegration :=
  if row.revocationPendingAt ≠ none ∧ row.revocationClaimId = some claimId then
    { row with revocationClaimedAt := none, revocationClaimId := none }
  else row

/-- The `UPDATE` of `providerAccessToken`. -/
def writeBack (refreshed : PlanetScaleToken) (now : Millis) : Option ProviderIntegration :=
  if row.status = "active" then
    some { row with
      encryptedCredential := .token refreshed
      credentialExpiresAt := some refreshed.expiresAt
      grantedScope := some refreshed.scope
      updatedAt := now }
  else none

/-- `updatePredicates`. -/
def updatePredicates (existing : ProviderIntegration) : Option ℕ → Bool
  | some claimId =>
      row.status = "active" ∧ row.revokedAt = none ∧ row.revocationClaimId = some claimId
  | none =>
      row.revocationPendingAt = none ∧ row.revocationClaimId = none ∧
        row.status = existing.status ∧ row.updatedAt = existing.updatedAt ∧
        row.revokedAt = existing.revokedAt

/-- `integrationUpdate`. -/
def integrationUpdate (existing : ProviderIntegration) (claim : Option ℕ)
    (token : PlanetScaleToken) (now : Millis) : Option ProviderIntegration :=
  if row.updatePredicates existing claim then
    let updated := { row with
      status := "active"
      encryptedCredential := .token token
      credentialExpiresAt := some token.expiresAt
      grantedScope := some token.scope
      updatedAt := now
      revokedAt := none }
    some (match claim with
      | some _ => updated
      | none => { updated with
          revocationPendingAt := none
          revocationClaimedAt := none
          revocationClaimId := none })
  else none

/-- The last statement of a reconnect that has a claim. -/
def clearClaim (now : Millis) (claimId : ℕ) : Option ProviderIntegration :=
  if row.updatedAt = now ∧ row.revocationClaimId = some claimId then
    some { row with
      revocationPendingAt := none
      revocationClaimedAt := none
      revocationClaimId := none }
  else none

/-- The `UPDATE` of `DELETE`. -/
def disconnect (claimId : ℕ) (disconnectedAt : Millis) : Option ProviderIntegration :=
  if row.status = "active" ∧ row.revokedAt = none ∧ row.revocationClaimId = some claimId then
    some { row with
      status := "revoked"
      encryptedCredential := .scrubbed disconnectedAt
      credentialExpiresAt := none
      grantedScope := none
      revokedAt := some disconnectedAt
      updatedAt := disconnectedAt
      revocationPendingAt := none
      revocationClaimedAt := none
      revocationClaimId := none }
  else none

end ProviderIntegration

/-! ### Requests -/

/-- Where a request is. The first three are of any request that uses the credential, the next four
of the callback, where `token` has the verified scope, and the last one of `DELETE`. -/
inductive Request
  | holding (integration : ActiveProviderIntegration)
  | refreshing (integration : ActiveProviderIntegration) (credential : PlanetScaleToken)
  | writing (integration : ActiveProviderIntegration) (refreshed : PlanetScaleToken)
  | exchanged (token : PlanetScaleToken)
  | inserting (token : PlanetScaleToken) (now : Millis)
  | claiming (token : PlanetScaleToken) (existing : ProviderIntegration) (now : Millis)
  | reconnecting (token : PlanetScaleToken) (existing : ProviderIntegration) (now : Millis)
      (claim : Option ℕ)
  | disconnecting (claim : ℕ) (integration : Option ActiveProviderIntegration)

/-- The row, the requests that are running, the numbers that were given out, and what was written:
every token that was stored, the tokens of the refreshes and of the connects among them (the latest
first), and the grants that were disconnected. -/
structure ProviderState where
  row : Option ProviderIntegration
  requests : Table ℕ Request
  started : ℕ
  claims : ℕ
  grants : ℕ
  issued : ℕ
  stored : List Stamp
  refreshes : List Stamp
  connects : List Stamp
  disconnected : List ℕ

namespace ProviderState

variable (c : ProviderState)

/-- Nothing has been connected yet. -/
def initial : ProviderState := ⟨none, .empty, 0, 0, 0, 0, [], [], [], []⟩

/-- `providerIntegration`. -/
def providerIntegration (allowPendingRevocation : Bool) : Option ActiveProviderIntegration :=
  (c.row.filter fun row => row.status = "active" ∧ row.revokedAt = none ∧
    (allowPendingRevocation ∨ row.revocationPendingAt = none)).map fun row =>
      ⟨row.provider, row.encryptedCredential, row.credentialExpiresAt, c.connects.length⟩

/-- A request starts. -/
def begin_ (r : Request) : ProviderState :=
  { c with requests := c.requests.put c.started r, started := c.started + 1 }

/-- A request goes on. -/
def goOn (request : ℕ) (r : Request) : ProviderState :=
  { c with requests := c.requests.put request r }

/-- A request ends. -/
def finish (request : ℕ) : ProviderState :=
  { c with requests := c.requests.filterRows fun k _ => k ≠ request }

/-- A request gives its claim back and ends; giving it back may fail. -/
def release (request : ℕ) (claim : Option ℕ) (released : Bool) : ProviderState :=
  finish { c with row := match claim, released with
    | some claimId, true => c.row.map (·.releaseRevocationGateClaim claimId)
    | _, _ => c.row } request

/-- The `UPDATE` of `providerAccessToken`. -/
def writeBack (refreshed : PlanetScaleToken) (now : Millis) : ProviderState :=
  match c.row.bind (·.writeBack refreshed now) with
  | none => c
  | some row =>
      { c with
        row := some row
        stored := refreshed.stamp :: c.stored
        refreshes := refreshed.stamp :: c.refreshes }

/-- The batch of a reconnect, and whether it has written what it should. -/
def reconnect (token : PlanetScaleToken) (existing : ProviderIntegration) (now : Millis)
    (claim : Option ℕ) : ProviderState × Bool :=
  let updated := c.row.bind (·.integrationUpdate existing claim token now)
  let c := match updated with
    | none => c
    | some row =>
        { c with
          row := some row
          stored := token.stamp :: c.stored
          connects := token.stamp :: c.connects }
  match claim with
  | none => (c, updated.isSome)
  | some claimId =>
      let cleared := c.row.bind (·.clearClaim now claimId)
      ({ c with row := cleared.or c.row }, updated.isSome && cleared.isSome)

/-- The `INSERT` of the callback; there is one row for an account. -/
def insert (token : PlanetScaleToken) (now : Millis) : ProviderState :=
  match c.row with
  | some _ => c
  | none =>
      { c with
        row := some
          { provider := "planetScale"
            status := "active"
            encryptedCredential := .token token
            credentialExpiresAt := some token.expiresAt
            grantedScope := some token.scope
            updatedAt := now
            revokedAt := none
            revocationPendingAt := none
            revocationClaimedAt := none
            revocationClaimId := none }
        stored := token.stamp :: c.stored
        connects := token.stamp :: c.connects }

/-- The statement of `DELETE`, and whether it has written the row. -/
def disconnect (claimId : ℕ) (disconnectedAt : Millis) : ProviderState × Bool :=
  match c.row, c.row.bind (·.disconnect claimId disconnectedAt) with
  | some row, some row' =>
      ({ c with
        row := some row'
        disconnected := match row.encryptedCredential with
          | .token t => t.grant :: c.disconnected
          | .scrubbed _ => c.disconnected }, true)
  | _, _ => (c, false)

/-- A step of a request. -/
def turn (request : ℕ) (f : Request → Except Unit ProviderState) : Except Unit ProviderState :=
  match c.requests.get request with
  | none => .error ()
  | some r => f r

/-- `claimRevocationGate`, with a new claim. -/
def claimRevocationGate (now : Millis) : Option ProviderState :=
  (c.row.bind (·.claimRevocationGate now c.claims)).map fun row =>
    { c with row := some row, claims := c.claims + 1 }

/-- The part of `providerAccessToken` before its refresh: the credential that is to be refreshed. -/
def credentialToRefresh (integration : ActiveProviderIntegration) (now : Millis) :
    Option PlanetScaleToken :=
  match integration.encryptedCredential with
  -- A scrubbed credential has no scopes.
  | .scrubbed _ => none
  | .token credential =>
      if integration.provider ≠ "planetScale" then none
      else if missingPlanetScaleManagedScopes credential.scope ≠ [] then none
      else if credential.accessToken ≠ "" ∧ credential.refreshToken ≠ "" ∧
          now + 2 * 60 * 1000 < credential.expiresAt then none
      else some credential

end ProviderState

/-! ### Events -/

/-- What happens next. Times are what a request reads from its clock. `fault` is a statement that
fails, with whether it was executed all the same. -/
inductive ProviderEvent
  | providerIntegration (allowPendingRevocation : Bool)
  | providerAccessToken (request : ℕ) (now : Millis)
  | refreshPlanetScaleToken (request : ℕ) (body : Option TokenBody) (now : Millis)
  | writeBack (request : ℕ) (now : Millis) (fault : Option Bool)
  | exchangePlanetScaleCode (body : TokenBody) (inspectedScope : String) (now : Millis)
  | findExisting (request : ℕ) (now : Millis)
  | claimReconnect (request : ℕ) (now : Millis)
  | reconnect (request : ℕ) (fault : Option Bool) (released : Bool)
  | insert (request : ℕ) (fault : Option Bool)
  | claimDisconnect (now : Millis)
  | integrationForRevocation (request : ℕ) (released : Bool)
  | disconnect (request : ℕ) (now : Millis) (fault : Option Bool) (released : Bool)
  | giveUp (request : ℕ) (released : Bool)
  | crash (request : ℕ)

namespace ProviderEvent

open ProviderState

/-- What an event does, if it can happen. -/
def apply (event : ProviderEvent) (c : ProviderState) : Except Unit ProviderState :=
  match event with
  | .providerIntegration allowPendingRevocation =>
      match c.providerIntegration allowPendingRevocation with
      | none => .error ()
      | some integration => .ok (c.begin_ (.holding integration))
  | .providerAccessToken request now => c.turn request fun
      | .holding integration =>
          -- Otherwise it throws, or returns the token that it has.
          match credentialToRefresh integration now with
          | none => .ok c
          | some credential => .ok (c.goOn request (.refreshing integration credential))
      | _ => .error ()
  | .refreshPlanetScaleToken request body now => c.turn request fun
      | .refreshing integration credential =>
          -- The token is issued here; when its answer arrives makes no difference to anyone else.
          let issue := c.issued + 1
          let refreshed := body.bind fun body => oauthTokenRequest body
            (some credential.refreshToken) credential.scope now credential.grant issue
          let c := { c with issued := issue }
          match refreshed.filter fun t => missingPlanetScaleManagedScopes t.scope = [] with
          | none => .ok (c.goOn request (.holding integration))
          | some refreshed => .ok (c.goOn request (.writing integration refreshed))
      | _ => .error ()
  | .writeBack request now fault => c.turn request fun
      | .writing integration refreshed =>
          let written := c.writeBack refreshed now
          match fault with
          | none => .ok (written.goOn request (.holding { integration with
              encryptedCredential := .token refreshed
              credentialExpiresAt := some refreshed.expiresAt }))
          | some executed =>
              .ok ((if executed then written else c).goOn request (.holding integration))
      | _ => .error ()
  | .exchangePlanetScaleCode body inspectedScope now =>
      let grant := c.grants + 1
      let issue := c.issued + 1
      let c := { c with grants := grant, issued := issue }
      match oauthTokenRequest body none "" now grant issue with
      | none => .ok c
      | some token =>
          let verifiedScope := if inspectedScope = "" then token.scope else inspectedScope
          if missingPlanetScaleManagedScopes verifiedScope ≠ [] then .ok c
          else .ok (c.begin_ (.exchanged { token with scope := verifiedScope }))
  | .findExisting request now => c.turn request fun
      | .exchanged token =>
          match c.row with
          | none => .ok (c.goOn request (.inserting token now))
          | some existing =>
              if existing.status = "active" ∧ existing.revokedAt = none then
                .ok (c.goOn request (.claiming token existing now))
              else if existing.revocationPendingAt ≠ none then .ok (c.finish request)
              else .ok (c.goOn request (.reconnecting token existing now none))
      | _ => .error ()
  | .claimReconnect request now => c.turn request fun
      | .claiming token existing before =>
          match c.claimRevocationGate now with
          | none => .ok (c.finish request)
          | some claimed =>
              .ok (claimed.goOn request (.reconnecting token existing before (some c.claims)))
      | _ => .error ()
  | .reconnect request fault released => c.turn request fun
      | .reconnecting token existing now claim =>
          let (reconnected, done) := c.reconnect token existing now claim
          match fault with
          | none =>
              if done then .ok (reconnected.finish request)
              else .ok (reconnected.release request claim released)
          | some executed =>
              .ok ((if executed then reconnected else c).release request claim released)
      | _ => .error ()
  | .insert request fault => c.turn request fun
      | .inserting token now =>
          .ok ((if fault = some false then c else c.insert token now).finish request)
      | _ => .error ()
  | .claimDisconnect now =>
      match c.claimRevocationGate now with
      | none => .error ()
      | some claimed => .ok (claimed.begin_ (.disconnecting c.claims none))
  | .integrationForRevocation request released => c.turn request fun
      | .disconnecting claim none =>
          match c.providerIntegration true with
          | none => .ok (c.release request (some claim) released)
          | some integration => .ok (c.goOn request (.disconnecting claim (some integration)))
      | _ => .error ()
  | .disconnect request now fault released => c.turn request fun
      | .disconnecting claim (some _) =>
          let (disconnected, done) := c.disconnect claim now
          match fault with
          | none =>
              if done then .ok (disconnected.finish request)
              else .ok (disconnected.release request (some claim) released)
          | some executed =>
              .ok ((if executed then disconnected else c).release request (some claim) released)
      | _ => .error ()
  | .giveUp request released => c.turn request fun
      -- Leases could not be revoked, or the authorization could not.
      | .reconnecting _ _ _ (some claim) => .ok (c.release request (some claim) released)
      | .disconnecting claim (some _) => .ok (c.release request (some claim) released)
      | _ => .error ()
  | .crash request => .ok (c.finish request)

end ProviderEvent

end Cloud
end AgentDb
