import AgentDb.Lib.Commits
import AgentDb.Lib.Table
import AgentDb.Lib.Transaction
import AgentDb.Scalars
import Mathlib.Data.List.Sort

/-!
# Cleaning up credential leases: `lib/provider-integrations.ts`

A lease is the record of a credential that a provider has issued for a while. Cleanup workers claim
leases that have expired, have their providers revoke them and mark them; other requests revoke
leases that are still active in the same way, but without a claim. A worker waits for the database
and for the provider at every step, and may stop at any of them. Times are milliseconds of one
clock.
-/

namespace AgentDb
namespace Cloud

abbrev Millis := ℤ

/-! ### Rows -/

/-- A row of `workspace_credential_lease`, as far as its cleanup uses it. -/
structure Lease where
  organizationId : String
  connectionId : Uuid
  integrationId : Uuid
  userId : String
  provider : String
  externalCredentialId : String
  externalCredentialKind : String
  expiresAt : Millis
  revokedAt : Option Millis
  cleanupAttempts : ℕ
  cleanupNextAttemptAt : Option Millis
  cleanupClaimedAt : Option Millis

/-- A row of `workspace_connection`. -/
structure WorkspaceConnection where
  organizationId : String
  providerIntegrationId : Option Uuid

/-- A row of `workspace_provider_integration`. -/
structure Integration where
  organizationId : String
  provider : String
  status : String
  revokedAt : Option Millis

/-- `LeaseCleanupRow`; a claim is the number of its attempt. -/
structure LeaseCleanupRow where
  id : Uuid
  organizationId : String
  connectionOrganizationId : String
  connectionIntegrationId : Option Uuid
  integrationId : Uuid
  userId : String
  provider : String
  credentialId : String
  credentialKind : String
  expiresAt : Millis
  cleanupClaim : Option ℕ

/-- `LeaseRevocationFilter`. -/
structure LeaseRevocationFilter where
  organizationId : String
  leaseId : Option Uuid := none
  userId : Option String := none
  connectionId : Option Uuid := none
  integrationId : Option Uuid := none

/-! ### Constants -/

/-- `CLEANUP_CLAIM_STALE_SECONDS`, in milliseconds. -/
def cleanupClaimStaleMs : Millis := 2 * 60 * 1000

/-- `CLEANUP_RETRY_BASE_MS`. -/
def cleanupRetryBaseMs : Millis := 60 * 1000

/-- `CLEANUP_RETRY_MAX_MS`. -/
def cleanupRetryMaxMs : Millis := 60 * 60 * 1000

/-- `managedLeaseCleanupRetryDelayMs`. -/
def managedLeaseCleanupRetryDelayMs (attempt : ℕ) : Millis :=
  min (cleanupRetryBaseMs * 2 ^ min (attempt - 1) 16) cleanupRetryMaxMs

theorem managedLeaseCleanupRetryDelayMs_le (attempt : ℕ) :
    managedLeaseCleanupRetryDelayMs attempt ≤ cleanupRetryMaxMs := min_le_right _ _

/-! ### What a lease needs -/

/-- `managedLeaseAuthorityMatches`. -/
def managedLeaseAuthorityMatches (lease : LeaseCleanupRow) (integration : Integration) : Bool :=
  lease.connectionOrganizationId = lease.organizationId ∧
    lease.connectionIntegrationId = some lease.integrationId ∧
    integration.organizationId = lease.organizationId ∧ integration.provider = lease.provider

/-- `neonLeaseRole`. -/
def neonLeaseRole (userId : String) (leaseId : Uuid) : Option String :=
  let plain (s : String) : List Char := (s.toList.filter Char.isAlphanum).map Char.toLower
  let user := (plain userId).take 8
  let lease := (plain leaseId.toText).take 32
  if user = [] ∨ lease = [] then none
  else some (String.ofList ("dopedb_".toList ++ user ++ "_".toList ++ lease))

/-- What a provider is asked to revoke. -/
inductive ProviderRequest
  | planetScale (credentialKind credentialId : String)
  | neon (role : String)

/-- What is done with a lease first. -/
inductive Action
  | retire
  | defer
  | call (request : ProviderRequest)
  | fail

/-- The loop body of `revokeLeaseRows`, up to its first request. -/
def leaseAction (integration : Option Integration) (now : Millis) (lease : LeaseCleanupRow) :
    Action :=
  match integration with
  | none => .fail
  | some integration =>
      let expired := lease.expiresAt ≤ now
      if ¬ managedLeaseAuthorityMatches lease integration then .fail
      else if integration.provider = "gcpCloudSql" then
        -- Tokens of this provider cannot be revoked, they only expire.
        if ¬ expired then .defer else .retire
      else if lease.credentialKind = "pending" then
        if ¬ expired then .defer
        else if integration.provider = "neon" then
          match neonLeaseRole lease.userId lease.id with
          | some role => .call (.neon role)
          | none => .fail
        else .retire
      else if integration.provider = "planetScale" ∧
          (lease.credentialKind = "role" ∨ lease.credentialKind = "password") then
        .call (.planetScale lease.credentialKind lease.credentialId)
      else if integration.provider = "neon" ∧ lease.credentialKind = "role" then
        .call (.neon lease.credentialId)
      else .fail

/-- A lease of this kind ends by itself. -/
def NeedsNoRevocation (provider credentialKind : String) : Prop :=
  provider = "gcpCloudSql" ∨ credentialKind = "pending" ∧ provider ≠ "neon"

/-- A lease that is retired has expired, and needs nothing else. -/
theorem needsNoRevocation_of_retire {integration : Option Integration} {now : Millis}
    {lease : LeaseCleanupRow} (h : leaseAction integration now lease = .retire) :
    NeedsNoRevocation lease.provider lease.credentialKind ∧ lease.expiresAt ≤ now := by
  unfold leaseAction at h
  split at h
  · cases h
  rename_i integration
  dsimp only at h
  split at h
  · cases h
  rename_i hauthority
  have hprovider : integration.provider = lease.provider :=
    (of_decide_eq_true (not_not.1 hauthority)).2.2.2
  rw [hprovider] at h
  split at h
  · rename_i hgcp
    split at h
    · cases h
    · rename_i hexpired
      exact ⟨.inl hgcp, not_not.1 hexpired⟩
  split at h
  · rename_i hpending
    split at h
    · cases h
    rename_i hexpired
    split at h
    · split at h <;> cases h
    · rename_i hneon
      exact ⟨.inr ⟨hpending, hneon⟩, not_not.1 hexpired⟩
  · split at h
    · cases h
    split at h <;> cases h

/-! ### Workers -/

/-- How the request to the provider ends: it went through, the credential is not there any more
(`404`), or anything else. -/
inductive ProviderAnswer
  | revoked
  | notFound
  | failed
  deriving DecidableEq

/-- Why a lease is about to be marked. -/
inductive Why
  | expired
  | answered (answer : ProviderAnswer)
  deriving DecidableEq

/-- Where a worker is: before it has read the integrations, at the top of its loop, or waiting for
the provider or for one of its own writes. -/
inductive Stage
  | selecting
  | examining
  | calling (request : ProviderRequest)
  | marking (why : Why)
  | retrying

/-- A call of `revokeLeaseRows` with the leases it has still to do. `claimedAt` is when they were
selected, and is not used. -/
structure Worker where
  rows : List LeaseCleanupRow
  claimedAt : Millis
  stage : Stage
  integrations : List (Uuid × Integration)
  now : Millis
  revoked : ℕ
  deferred : ℕ

/-- A worker that starts on some leases. -/
def Worker.start (rows : List LeaseCleanupRow) (now : Millis) : Worker :=
  ⟨rows, now, .selecting, [], now, 0, 0⟩

/-- `integrationMap.get`. -/
def Worker.integration (w : Worker) (id : Uuid) : Option Integration :=
  (w.integrations.find? fun entry => entry.1 = id).map Prod.snd

/-- What a provider has answered to a worker for a lease. -/
structure Answer where
  worker : ℕ
  lease : Uuid
  request : ProviderRequest
  answer : ProviderAnswer

/-- The tables, the calls that are running, and what the providers have answered so far. -/
structure Control where
  now : Millis
  leases : Table Uuid Lease
  connections : Table Uuid WorkspaceConnection
  integrations : Table Uuid Integration
  workers : Table ℕ Worker
  started : ℕ
  answers : List Answer

/-! ### Claims -/

/-- The condition of the claim: the lease has expired and is not revoked, its next attempt is due,
and it is not claimed or its claim is stale. -/
def Lease.due (now : Millis) (l : Lease) : Bool :=
  l.revokedAt = none ∧ l.expiresAt ≤ now ∧ (l.cleanupNextAttemptAt.all fun t => t ≤ now) ∧
    l.cleanupClaimedAt.all fun t => t < now - cleanupClaimStaleMs

/-- `ready_at`. -/
def Lease.readyAt (l : Lease) : Millis := l.cleanupNextAttemptAt.getD l.expiresAt

/-- The order within a tenant. -/
def tenantOrder (a b : Uuid × Lease) : Ordering :=
  (compare a.2.cleanupAttempts b.2.cleanupAttempts).then
    ((compare a.2.readyAt b.2.readyAt).then
      ((compare a.2.expiresAt b.2.expiresAt).then (compare a.1.toText b.1.toText)))

/-- `tenant_rank`. -/
def tenantRank (due : List (Uuid × Lease)) (r : Uuid × Lease) : ℕ :=
  due.countP fun other =>
    other.2.organizationId = r.2.organizationId ∧ tenantOrder other r = .lt

/-- The order of the claim. -/
def claimOrder (due : List (Uuid × Lease)) (a b : Uuid × Lease) : Ordering :=
  (compare a.2.cleanupAttempts b.2.cleanupAttempts).then
    ((compare (tenantRank due a) (tenantRank due b)).then
      ((compare a.2.readyAt b.2.readyAt).then (compare a.1.toText b.1.toText)))

namespace Control

variable (c : Control)

/-- `ranked`: the leases that may be claimed. -/
def ranked (integrationId : Option Uuid) : List (Uuid × Lease) :=
  c.leases.rows.filter fun r =>
    (c.connections.get r.2.connectionId).isSome ∧ r.2.due c.now ∧
      integrationId.all (· = r.2.integrationId)

/-- `candidates`: the first of them that no other transaction has locked. -/
def candidates (integrationId : Option Uuid) (limit : ℕ) (locked : List Uuid) :
    List (Uuid × Lease) :=
  let due := c.ranked integrationId
  ((due.insertionSort fun a b => (claimOrder due a b).isLE).filter fun r => r.1 ∉ locked).take
    limit

/-- A selected lease with the columns of its connection. -/
def cleanupRow (r : Uuid × Lease) (cleanupClaim : Option ℕ) : Option LeaseCleanupRow :=
  (c.connections.get r.2.connectionId).map fun connection =>
    { id := r.1
      organizationId := r.2.organizationId
      connectionOrganizationId := connection.organizationId
      connectionIntegrationId := connection.providerIntegrationId
      integrationId := r.2.integrationId
      userId := r.2.userId
      provider := r.2.provider
      credentialId := r.2.externalCredentialId
      credentialKind := r.2.externalCredentialKind
      expiresAt := r.2.expiresAt
      cleanupClaim }

/-- The `UPDATE` of the claim. -/
def claimLeases (ids : List Uuid) : Table Uuid Lease :=
  c.leases.mapRows fun id l =>
    if id ∈ ids then
      { l with cleanupClaimedAt := some c.now, cleanupAttempts := l.cleanupAttempts + 1 }
    else l

/-- A worker starts, unless it has nothing to do. -/
def begin_ (rows : List LeaseCleanupRow) : Control :=
  if rows = [] then c
  else
    { c with
      workers := c.workers.put c.started (.start rows c.now)
      started := c.started + 1 }

/-- `claimExpiredManagedLeases`, with the rows that others have locked. -/
def claimExpiredManagedLeases (integrationId : Option Uuid) (limit : ℕ) (locked : List Uuid) :
    Control :=
  let claimed := c.candidates integrationId limit locked
  let rows := claimed.filterMap fun r => c.cleanupRow r (some (r.2.cleanupAttempts + 1))
  begin_ { c with leases := c.claimLeases (claimed.map Prod.fst) } rows

/-- The leases that `revokeActiveLeases` selects. -/
def activeLeases (filter : LeaseRevocationFilter) : List (Uuid × Lease) :=
  (c.leases.rows.filter fun r =>
    r.2.organizationId = filter.organizationId ∧ r.2.revokedAt = none ∧
      filter.leaseId.all (· = r.1) ∧ filter.userId.all (· = r.2.userId) ∧
      filter.connectionId.all (· = r.2.connectionId) ∧
      filter.integrationId.all (· = r.2.integrationId)).insertionSort
    fun a b => a.2.expiresAt ≤ b.2.expiresAt

/-- `revokeActiveLeases`, up to `revokeLeaseRows`. -/
def revokeActiveLeases (filter : LeaseRevocationFilter) : Control :=
  begin_ c ((c.activeLeases filter).filterMap fun r => c.cleanupRow r none)

/-! ### The writes of a worker -/

/-- `markLeaseRevoked`: whether a row was written, and the leases. -/
def markLeaseRevoked (id : Uuid) (cleanupClaim : Option ℕ) (readAt : Millis) :
    Bool × Table Uuid Lease :=
  match (c.leases.get id).filter fun l =>
    l.revokedAt = none ∧
      cleanupClaim.all fun attempt => l.cleanupAttempts = attempt ∧ l.cleanupClaimedAt ≠ none with
  | none => (false, c.leases)
  | some l =>
      let row : Lease := { l with
        revokedAt := some readAt
        cleanupClaimedAt := none
        cleanupNextAttemptAt := none }
      (true, c.leases.put id row)

/-- The `UPDATE` of `scheduleLeaseCleanupRetry`. -/
def scheduleLeaseCleanupRetry (id : Uuid) (attempt : ℕ) (readAt : Millis) :
    Bool × Table Uuid Lease :=
  match (c.leases.get id).filter fun l =>
    l.cleanupAttempts = attempt ∧ l.cleanupClaimedAt ≠ none ∧ l.revokedAt = none with
  | none => (false, c.leases)
  | some l =>
      let row : Lease := { l with
        cleanupClaimedAt := none
        cleanupNextAttemptAt := some (readAt + managedLeaseCleanupRetryDelayMs attempt) }
      (true, c.leases.put id row)

/-- The worker goes on with its next lease, or returns. -/
def advance (worker : ℕ) (w : Worker) : Control :=
  match w.rows.tail with
  | [] => { c with workers := c.workers.filterRows fun k _ => k ≠ worker }
  | rows => { c with workers := c.workers.put worker { w with rows, stage := .examining } }

/-- The worker goes on with the same lease. -/
def stay (worker : ℕ) (w : Worker) (stage : Stage) : Control :=
  { c with workers := c.workers.put worker { w with stage } }

/-- The worker stops, and leaves everything else. -/
def stop (worker : ℕ) : Control :=
  { c with workers := c.workers.filterRows fun k _ => k ≠ worker }

/-- The `catch` of the loop body for any other error than a `404`. -/
def caught (worker : ℕ) (w : Worker) (lease : LeaseCleanupRow) : Control :=
  match lease.cleanupClaim with
  | none => c.advance worker { w with deferred := w.deferred + 1 }
  | some _ => c.stay worker w .retrying

/-- A step of a worker on the lease it has come to. -/
def turn (worker : ℕ) (f : Worker → LeaseCleanupRow → Except Unit Control) :
    Except Unit Control :=
  match c.workers.get worker with
  | none => .error ()
  | some w =>
      match w.rows with
      | [] => .error ()
      | lease :: _ => f w lease

end Control

/-! ### Events -/

/-- The columns of the cleanup are the same, what was revoked stays so, and a lease that has expired
is not issued any more. -/
def Lease.KeepsCleanup (now : Millis) (old l : Lease) : Prop :=
  l.cleanupAttempts = old.cleanupAttempts ∧ l.cleanupClaimedAt = old.cleanupClaimedAt ∧
    l.cleanupNextAttemptAt = old.cleanupNextAttemptAt ∧
    (old.revokedAt ≠ none → l.revokedAt ≠ none) ∧
    (old.expiresAt ≤ now → l.expiresAt ≤ now ∧ l.provider = old.provider ∧
      l.externalCredentialKind = old.externalCredentialKind ∧
      l.externalCredentialId = old.externalCredentialId)

instance (now : Millis) (old l : Lease) : Decidable (old.KeepsCleanup now l) :=
  inferInstanceAs (Decidable (_ ∧ _ ∧ _ ∧ _ ∧ _))

/-- A lease as it is inserted. -/
def Lease.Untouched (l : Lease) : Prop :=
  l.cleanupAttempts = 0 ∧ l.cleanupClaimedAt = none ∧ l.cleanupNextAttemptAt = none

instance (l : Lease) : Decidable l.Untouched := inferInstanceAs (Decidable (_ ∧ _ ∧ _))

/-- What happens next. A write that fails may have been made or not; the time that a worker writes
is one it has read before. -/
inductive Event
  | tick (now : Millis)
  | written (id : Uuid) (lease : Lease)
  | deleted (id : Uuid)
  | authority (connections : Table Uuid WorkspaceConnection) (integrations : Table Uuid Integration)
  | cleanupExpiredManagedLeases (integrationId : Option Uuid) (limit : ℕ) (locked : List Uuid)
  | revokeActiveLeases (filter : LeaseRevocationFilter)
  | selectIntegrations (worker : ℕ)
  | examine (worker : ℕ)
  | answer (worker : ℕ) (answer : ProviderAnswer)
  | mark (worker : ℕ) (readAt : Millis) (fault : Option Bool)
  | schedule (worker : ℕ) (readAt : Millis) (fault : Option Bool)
  | crash (worker : ℕ)

namespace Event

open Control

/-- What an event does, if it can happen. -/
def apply (event : Event) (c : Control) : Except Unit Control :=
  match event with
  | .tick now => do
      refuseIf (now < c.now) ()
      return { c with now }
  | .written id lease => do
      refuseIf (c.connections.get lease.connectionId = none) ()
      match c.leases.get id with
      | none => do
          -- Ids are not used twice.
          refuseIf (¬ lease.Untouched ∨ c.workers.any fun _ w => w.rows.any (·.id = id)) ()
          return { c with leases := c.leases.put id lease }
      | some old => do
          refuseIf (¬ old.KeepsCleanup c.now lease) ()
          return { c with leases := c.leases.put id lease }
  | .deleted id => return { c with leases := c.leases.filterRows fun k _ => k ≠ id }
  | .authority connections integrations => do
      refuseIf (c.leases.any fun _ l => connections.get l.connectionId = none) ()
      return { c with connections, integrations }
  | .cleanupExpiredManagedLeases integrationId limit locked => do
      refuseIf (limit < 1 ∨ 100 < limit) ()
      return c.claimExpiredManagedLeases integrationId limit locked
  | .revokeActiveLeases filter => return c.revokeActiveLeases filter
  | .selectIntegrations worker => c.turn worker fun w _ =>
      match w.stage with
      | .selecting =>
          let integrations := c.integrations.rows.filter fun r =>
            r.1 ∈ w.rows.map (·.integrationId) ∧ r.2.status = "active" ∧ r.2.revokedAt = none
          .ok (c.stay worker { w with integrations, now := c.now } .examining)
      | _ => .error ()
  | .examine worker => c.turn worker fun w lease =>
      match w.stage with
      | .examining =>
          match leaseAction (w.integration lease.integrationId) w.now lease with
          | .retire => .ok (c.stay worker w (.marking .expired))
          | .defer => .ok (c.advance worker { w with deferred := w.deferred + 1 })
          | .call request => .ok (c.stay worker w (.calling request))
          | .fail => .ok (c.caught worker w lease)
      | _ => .error ()
  | .answer worker given => c.turn worker fun w lease =>
      match w.stage with
      | .calling request =>
          let c := { c with answers := c.answers ++ [Answer.mk worker lease.id request given] }
          if given = .failed then .ok (c.caught worker w lease)
          else .ok (c.stay worker w (.marking (.answered given)))
      | _ => .error ()
  | .mark worker readAt fault => c.turn worker fun w lease =>
      match w.stage with
      | .marking why => do
          refuseIf (c.now < readAt) ()
          let (wrote, leases) := c.markLeaseRevoked lease.id lease.cleanupClaim readAt
          match fault with
          | none =>
              let revoked := if wrote then w.revoked + 1 else w.revoked
              .ok (advance { c with leases } worker { w with revoked })
          | some applied =>
              let c := if applied then { c with leases } else c
              -- What is thrown in the `catch` ends the call.
              if why = .answered .notFound then .ok (c.stop worker)
              else .ok (c.caught worker w lease)
      | _ => .error ()
  | .schedule worker readAt fault => c.turn worker fun w lease =>
      match w.stage, lease.cleanupClaim with
      | .retrying, some attempt => do
          refuseIf (c.now < readAt) ()
          let (wrote, leases) := c.scheduleLeaseCleanupRetry lease.id attempt readAt
          match fault with
          | none =>
              let deferred := if wrote then w.deferred + 1 else w.deferred
              .ok (advance { c with leases } worker { w with deferred })
          | some applied =>
              let c := if applied then { c with leases } else c
              .ok (c.stop worker)
      | _, _ => .error ()
  | .crash worker => return c.stop worker

/-- The leases that are claimed. -/
def claimed (event : Event) (c : Control) : List (Uuid × Lease) :=
  match event with
  | .cleanupExpiredManagedLeases integrationId limit locked =>
      c.candidates integrationId limit locked
  | _ => []

/-- The worker that takes the step. -/
def worker : Event → Option ℕ
  | .selectIntegrations worker | .examine worker | .answer worker _ | .mark worker _ _
  | .schedule worker _ _ | .crash worker => some worker
  | _ => none

end Event

end Cloud
end AgentDb
