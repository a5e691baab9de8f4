import AgentDb.Broker.Session
import AgentDb.Lib.Commits

/-!
# The session registry between threads

Every access to the map of `BrokerSessionRegistry` is atomic, a call need not be: `issue` inserts a
record it has made before, `authenticate` finds that a record has expired and removes it by its
session in a second access, `revoke_connection` collects the sessions of a connection shard by
shard and removes them one by one, `revoke_all` clears the map shard by shard. A run is a list of
accesses of any number of threads; what has happened is kept in a log, from which it is read which
issue is the latest of a session and which revocations have covered it.
-/

namespace AgentDb
namespace Broker

open Protocol Store

deriving instance DecidableEq for SessionRecord

/-! ### The accesses -/

/-- What a call that revokes several sessions covers. -/
inductive Cover
  | connection (connectionId : Uuid)
  | all
  deriving DecidableEq

def Cover.covers : Cover → SessionRecord → Bool
  | .connection connectionId, record => record.metadata.connectionId = connectionId
  | .all, _ => true

/-- What a thread is in the middle of. -/
inductive Call
  | idle
  /-- `issue` has made the record and not inserted it. -/
  | issuing (record : SessionRecord)
  /-- `authenticate` has found the record of a session expired. -/
  | dismissing (id : Uuid)
  /-- `revoke_connection` has collected the sessions of the shards below `next`, in all `count`, and
  has still to remove `ids`. -/
  | revoking (connectionId : Uuid) (next count : ℕ) (ids : List Uuid)
  /-- `revoke_all` has cleared the shards below `next`. -/
  | clearing (next : ℕ)

def Call.cover : Call → Option Cover
  | .revoking connectionId _ _ _ => some (.connection connectionId)
  | .clearing _ => some .all
  | _ => none

/-- The accesses; threads are numbers. -/
inductive Event
  | tick (now : DateTime)
  | prepare (thread : ℕ) (record : SessionRecord)
  | insert (thread : ℕ) (record : SessionRecord)
  | authenticate (thread : ℕ) (authentication : SessionAuthentication)
  | dismiss (thread : ℕ) (id : Uuid)
  | revoke (thread : ℕ) (id : Uuid)
  | begin (thread : ℕ) (cover : Cover)
  | sweep (thread : ℕ)
  | remove (thread : ℕ) (id : Uuid)
  | finish (thread : ℕ)

/-- The shards of the map. -/
structure Shards where
  count : ℕ
  shard : Uuid → ℕ
  shard_lt : ∀ id, shard id < count

/-- The registry, the clock, the threads, and the log from its last entry on. -/
structure Shared where
  registry : BrokerSessionRegistry
  now : DateTime
  calls : ℕ → Call
  log : List Event

namespace BrokerSessionRegistry

def insert (registry : BrokerSessionRegistry) (record : SessionRecord) : BrokerSessionRegistry :=
  { registry with sessions := registry.sessions.put record.metadata.terminalSessionId record }

def remove (registry : BrokerSessionRegistry) (id : Uuid) : BrokerSessionRegistry :=
  { registry with sessions := registry.sessions.filterRows fun k _ => k ≠ id }

def clearShard (m : Shards) (registry : BrokerSessionRegistry) (next : ℕ) :
    BrokerSessionRegistry :=
  { registry with sessions := registry.sessions.filterRows fun k _ => m.shard k ≠ next }

/-- The sessions of a connection in a shard. -/
def collect (m : Shards) (registry : BrokerSessionRegistry) (connectionId : Uuid) (next : ℕ) :
    List Uuid :=
  (registry.sessions.rows.filter fun entry =>
    m.shard entry.1 = next ∧ entry.2.metadata.connectionId = connectionId).map Prod.fst

/-- `authenticate` finds a record that is not of this runtime or has expired. -/
def findsExpired (registry : BrokerSessionRegistry) (now : DateTime) (id : Uuid) : Bool :=
  match registry.sessions.get id with
  | none => false
  | some record => record.metadata.runtimeId ≠ registry.runtimeId ∨ record.metadata.expiresAt ≤ now

/-- The record `issue` makes. -/
def record (registry : BrokerSessionRegistry) (terminalSessionId : Uuid) (pin : PinnedConnection)
    (capabilities : List BrokerCapability) (token : Vector UInt8 32) (expiresAt : DateTime) :
    SessionRecord where
  metadata :=
    { terminalSessionId
      runtimeId := registry.runtimeId
      workspaceId := pin.scope.workspaceId
      accountScope := pin.scope.accountScope.storageKey
      connectionId := pin.connectionId
      connectionRevision := pin.connectionRevision
      capabilities
      expiresAt }
  token := token

/-- `issue` inserts the record it has made. -/
theorem issue_eq_insert (registry : BrokerSessionRegistry) (id : Uuid) (pin : PinnedConnection)
    (capabilities : List BrokerCapability) (token : Vector UInt8 32) (expiresAt : DateTime) :
    registry.issue id pin capabilities token expiresAt =
      registry.insert (registry.record id pin capabilities token expiresAt) := rfl

theorem get_insert (registry : BrokerSessionRegistry) (r : SessionRecord) (id : Uuid) :
    (registry.insert r).sessions.get id =
      if id = r.metadata.terminalSessionId then some r else registry.sessions.get id :=
  Table.get_put _ _ _ _

theorem get_remove (registry : BrokerSessionRegistry) (removed id : Uuid) :
    (registry.remove removed).sessions.get id =
      if id = removed then none else registry.sessions.get id :=
  Table.get_filterRows_ne _ _ _

theorem get_clearShard (m : Shards) (registry : BrokerSessionRegistry) (next : ℕ) (id : Uuid) :
    (registry.clearShard m next).sessions.get id =
      if m.shard id = next then none else registry.sessions.get id := by
  unfold clearShard
  split
  · exact Table.get_filterRows_of_drop fun _ => by simpa
  · exact Table.get_filterRows_of_keep fun _ => by simpa

theorem mem_collect {m : Shards} {registry : BrokerSessionRegistry} {id : Uuid}
    {r : SessionRecord} (hget : registry.sessions.get id = some r) :
    id ∈ registry.collect m r.metadata.connectionId (m.shard id) :=
  List.mem_map.2 ⟨(id, r), List.mem_filter.2 ⟨Table.mem_rows_iff.2 hget, by simp⟩, rfl⟩

end BrokerSessionRegistry

namespace Shared

def setCall (s : Shared) (thread : ℕ) (call : Call) : Shared :=
  { s with calls := Function.update s.calls thread call }

def setRegistry (s : Shared) (registry : BrokerSessionRegistry) : Shared :=
  { s with registry }

@[simp] theorem setCall_registry (s : Shared) (thread : ℕ) (call : Call) :
    (s.setCall thread call).registry = s.registry := rfl
@[simp] theorem setCall_now (s : Shared) (thread : ℕ) (call : Call) :
    (s.setCall thread call).now = s.now := rfl
@[simp] theorem setCall_log (s : Shared) (thread : ℕ) (call : Call) :
    (s.setCall thread call).log = s.log := rfl
@[simp] theorem setRegistry_registry (s : Shared) (registry : BrokerSessionRegistry) :
    (s.setRegistry registry).registry = registry := rfl
@[simp] theorem setRegistry_calls (s : Shared) (registry : BrokerSessionRegistry) :
    (s.setRegistry registry).calls = s.calls := rfl

theorem setCall_calls (s : Shared) (thread t : ℕ) (call : Call) :
    (s.setCall thread call).calls t = if t = thread then call else s.calls t :=
  Function.update_apply _ _ _ _

/-- The state an access leaves, without its entry in the log; `none` for an access that the thread
is not at. -/
def access (m : Shards) (s : Shared) : Event → Option Shared
  | .tick now => if s.now ≤ now then some { s with now } else none
  | .prepare thread record =>
      match s.calls thread with
      | .idle =>
          if record.metadata.runtimeId = s.registry.runtimeId ∧ s.now < record.metadata.expiresAt
          then some (s.setCall thread (.issuing record)) else none
      | _ => none
  | .insert thread record =>
      match s.calls thread with
      | .issuing prepared =>
          if prepared = record then
            some ((s.setRegistry (s.registry.insert record)).setCall thread .idle)
          else none
      | _ => none
  | .authenticate thread authentication =>
      match s.calls thread with
      | .idle =>
          if s.registry.findsExpired s.now authentication.terminalSessionId then
            some (s.setCall thread (.dismissing authentication.terminalSessionId))
          else some s
      | _ => none
  | .dismiss thread id =>
      match s.calls thread with
      | .dismissing found =>
          if found = id then some ((s.setRegistry (s.registry.remove id)).setCall thread .idle)
          else none
      | _ => none
  | .revoke thread id =>
      match s.calls thread with
      | .idle => some (s.setRegistry (s.registry.remove id))
      | _ => none
  | .begin thread cover =>
      match s.calls thread, cover with
      | .idle, .connection connectionId => some (s.setCall thread (.revoking connectionId 0 0 []))
      | .idle, .all => some (s.setCall thread (.clearing 0))
      | _, _ => none
  | .sweep thread =>
      match s.calls thread with
      | .revoking connectionId next count ids =>
          if next < m.count then
            let found := s.registry.collect m connectionId next
            some (s.setCall thread
              (.revoking connectionId (next + 1) (count + found.length) (ids ++ found)))
          else none
      | .clearing next =>
          if next < m.count then
            some ((s.setRegistry (s.registry.clearShard m next)).setCall thread
              (.clearing (next + 1)))
          else none
      | _ => none
  | .remove thread id =>
      match s.calls thread with
      | .revoking connectionId next count (first :: ids) =>
          if m.count ≤ next ∧ first = id then
            some ((s.setRegistry (s.registry.remove id)).setCall thread
              (.revoking connectionId next count ids))
          else none
      | _ => none
  | .finish thread =>
      match s.calls thread with
      | .revoking _ next _ [] => if m.count ≤ next then some (s.setCall thread .idle) else none
      | .clearing next => if m.count ≤ next then some (s.setCall thread .idle) else none
      | _ => none

/-- An access and its entry in the log. -/
def apply (m : Shards) (event : Event) (s : Shared) : Except Unit Shared :=
  match s.access m event with
  | some s' => .ok { s' with log := event :: s.log }
  | none => .error ()

/-- No session has been issued. -/
def start (runtimeId : Uuid) (decodeToken : String → Option (Vector UInt8 32)) (now : DateTime) :
    Shared where
  registry := ⟨runtimeId, .empty, decodeToken⟩
  now := now
  calls _ := .idle
  log := []

/-- What each access finds and leaves. -/
inductive Accessed (m : Shards) (s : Shared) : Event → Shared → Prop
  | tick {now : DateTime} (h : s.now ≤ now) : Accessed m s (.tick now) { s with now }
  | prepare {thread : ℕ} {record : SessionRecord} (hcall : s.calls thread = .idle)
      (hruntime : record.metadata.runtimeId = s.registry.runtimeId) :
      Accessed m s (.prepare thread record) (s.setCall thread (.issuing record))
  | insert {thread : ℕ} {record : SessionRecord} (hcall : s.calls thread = .issuing record) :
      Accessed m s (.insert thread record)
        ((s.setRegistry (s.registry.insert record)).setCall thread .idle)
  | expired {thread : ℕ} {authentication : SessionAuthentication}
      (hcall : s.calls thread = .idle) :
      Accessed m s (.authenticate thread authentication)
        (s.setCall thread (.dismissing authentication.terminalSessionId))
  | answered {thread : ℕ} {authentication : SessionAuthentication} :
      Accessed m s (.authenticate thread authentication) s
  | dismiss {thread : ℕ} {id : Uuid} (hcall : s.calls thread = .dismissing id) :
      Accessed m s (.dismiss thread id)
        ((s.setRegistry (s.registry.remove id)).setCall thread .idle)
  | revoke {thread : ℕ} {id : Uuid} :
      Accessed m s (.revoke thread id) (s.setRegistry (s.registry.remove id))
  | beginConnection {thread : ℕ} {connectionId : Uuid} (hcall : s.calls thread = .idle) :
      Accessed m s (.begin thread (.connection connectionId))
        (s.setCall thread (.revoking connectionId 0 0 []))
  | beginAll {thread : ℕ} (hcall : s.calls thread = .idle) :
      Accessed m s (.begin thread .all) (s.setCall thread (.clearing 0))
  | collect {thread next count : ℕ} {connectionId : Uuid} {ids : List Uuid}
      (hcall : s.calls thread = .revoking connectionId next count ids) :
      Accessed m s (.sweep thread)
        (s.setCall thread (.revoking connectionId (next + 1)
          (count + (s.registry.collect m connectionId next).length)
          (ids ++ s.registry.collect m connectionId next)))
  | clear {thread next : ℕ} (hcall : s.calls thread = .clearing next) :
      Accessed m s (.sweep thread)
        ((s.setRegistry (s.registry.clearShard m next)).setCall thread (.clearing (next + 1)))
  | remove {thread next count : ℕ} {connectionId id : Uuid} {ids : List Uuid}
      (hcall : s.calls thread = .revoking connectionId next count (id :: ids)) :
      Accessed m s (.remove thread id)
        ((s.setRegistry (s.registry.remove id)).setCall thread
          (.revoking connectionId next count ids))
  | finishConnection {thread next count : ℕ} {connectionId : Uuid}
      (hcall : s.calls thread = .revoking connectionId next count []) (hnext : m.count ≤ next) :
      Accessed m s (.finish thread) (s.setCall thread .idle)
  | finishAll {thread next : ℕ} (hcall : s.calls thread = .clearing next)
      (hnext : m.count ≤ next) : Accessed m s (.finish thread) (s.setCall thread .idle)

theorem access_cases {m : Shards} {s s' : Shared} {event : Event}
    (h : s.access m event = some s') : Accessed m s event s' := by
  cases event with
  | tick now =>
      simp only [access, Option.ite_none_right_eq_some, Option.some_inj] at h
      obtain ⟨hnow, rfl⟩ := h
      exact .tick hnow
  | prepare thread record =>
      simp only [access] at h
      split at h
      case h_1 hcall =>
        simp only [Option.ite_none_right_eq_some, Option.some_inj] at h
        obtain ⟨⟨hruntime, -⟩, rfl⟩ := h
        exact .prepare hcall hruntime
      case h_2 => cases h
  | insert thread record =>
      simp only [access] at h
      split at h
      case h_1 prepared hcall =>
        simp only [Option.ite_none_right_eq_some, Option.some_inj] at h
        obtain ⟨rfl, rfl⟩ := h
        exact .insert hcall
      case h_2 => cases h
  | authenticate thread authentication =>
      simp only [access] at h
      split at h
      case h_1 hcall =>
        split at h
        · cases h
          exact .expired hcall
        · cases h
          exact .answered
      case h_2 => cases h
  | dismiss thread id =>
      simp only [access] at h
      split at h
      case h_1 found hcall =>
        simp only [Option.ite_none_right_eq_some, Option.some_inj] at h
        obtain ⟨rfl, rfl⟩ := h
        exact .dismiss hcall
      case h_2 => cases h
  | revoke thread id =>
      simp only [access] at h
      split at h
      case h_1 =>
        cases h
        exact .revoke
      case h_2 => cases h
  | begin thread cover =>
      simp only [access] at h
      split at h
      case h_1 hcall =>
        cases h
        exact .beginConnection hcall
      case h_2 hcall =>
        cases h
        exact .beginAll hcall
      case h_3 => cases h
  | sweep thread =>
      simp only [access] at h
      split at h
      case h_1 hcall =>
        simp only [Option.ite_none_right_eq_some, Option.some_inj] at h
        obtain ⟨-, rfl⟩ := h
        exact .collect hcall
      case h_2 hcall =>
        simp only [Option.ite_none_right_eq_some, Option.some_inj] at h
        obtain ⟨-, rfl⟩ := h
        exact .clear hcall
      case h_3 => cases h
  | remove thread id =>
      simp only [access] at h
      split at h
      case h_1 hcall =>
        simp only [Option.ite_none_right_eq_some, Option.some_inj] at h
        obtain ⟨⟨-, rfl⟩, rfl⟩ := h
        exact .remove hcall
      case h_2 => cases h
  | finish thread =>
      simp only [access] at h
      split at h
      case h_1 hcall =>
        simp only [Option.ite_none_right_eq_some, Option.some_inj] at h
        obtain ⟨hnext, rfl⟩ := h
        exact .finishConnection hcall hnext
      case h_2 hcall =>
        simp only [Option.ite_none_right_eq_some, Option.some_inj] at h
        obtain ⟨hnext, rfl⟩ := h
        exact .finishAll hcall hnext
      case h_3 => cases h

theorem apply_cases {m : Shards} {s s' : Shared} {event : Event}
    (h : apply m event s = .ok s') :
    ∃ left, Accessed m s event left ∧ s' = { left with log := event :: s.log } := by
  unfold apply at h
  cases hleft : s.access m event with
  | none =>
      rw [hleft] at h
      cases h
  | some left =>
      rw [hleft] at h
      cases h
      exact ⟨left, access_cases hleft, rfl⟩

end Shared

/-! ### What the log says -/

/-- The record of the latest issue for a session. -/
def latest : List Event → Uuid → Option SessionRecord
  | [], _ => none
  | .insert _ record :: log, id =>
      if record.metadata.terminalSessionId = id then some record else latest log id
  | _ :: log, id => latest log id

/-- What the call covers in which a thread is revoking. -/
def running : List Event → ℕ → Option Cover
  | [], _ => none
  | .begin thread cover :: log, t => if thread = t then some cover else running log t
  | .finish thread :: log, t => if thread = t then none else running log t
  | _ :: log, t => running log t

/-- A thread has begun to revoke since the latest issue for a session. -/
def begunSince : List Event → ℕ → Uuid → Bool
  | [], _, _ => false
  | .insert _ record :: log, t, id =>
      if record.metadata.terminalSessionId = id then false else begunSince log t id
  | .begin thread _ :: log, t, id => thread = t ∨ begunSince log t id
  | _ :: log, t, id => begunSince log t id

/-- Some cover includes the latest issue for a session. -/
def Includes (log : List Event) (cover : Option Cover) (id : Uuid) : Prop :=
  ∃ c record, cover = some c ∧ latest log id = some record ∧ c.covers record = true

/-- The latest issue for a session is revoked: since then, a call that covers it has begun and has
returned. -/
def Revoked : List Event → Uuid → Prop
  | [], _ => False
  | .insert _ record :: log, id => record.metadata.terminalSessionId ≠ id ∧ Revoked log id
  | .revoke _ revoked :: log, id => revoked = id ∨ Revoked log id
  | .finish thread :: log, id =>
      (Includes log (running log thread) id ∧ begunSince log thread id = true) ∨ Revoked log id
  | _ :: log, id => Revoked log id

/-- The latest issue for a session has met a revocation: a call that covers it was running then, or
has begun since. -/
def Contested : List Event → Uuid → Prop
  | [], _ => False
  | .insert thread record :: log, id =>
      if record.metadata.terminalSessionId = id then
        ∃ t, Includes (.insert thread record :: log) (running log t) id
      else Contested log id
  | .revoke _ revoked :: log, id => revoked = id ∨ Contested log id
  | .begin _ cover :: log, id => Includes log (some cover) id ∨ Contested log id
  | _ :: log, id => Contested log id

theorem latest_session {log : List Event} {id : Uuid} {record : SessionRecord}
    (h : latest log id = some record) : record.metadata.terminalSessionId = id := by
  induction log with
  | nil => cases h
  | cons event log ih =>
      cases event with
      | insert thread r =>
          simp only [latest] at h
          split at h
          case isTrue heq =>
            cases h
            exact heq
          case isFalse => exact ih h
      | tick | prepare | authenticate | dismiss | revoke | begin | sweep | remove | finish =>
          exact ih h

/-- Whatever a running call covers has met it. -/
theorem contested_of_running {log : List Event} {t : ℕ} {id : Uuid}
    (h : Includes log (running log t) id) : Contested log id := by
  induction log with
  | nil =>
      obtain ⟨c, record, hcover, -⟩ := h
      cases hcover
  | cons event log ih =>
      cases event with
      | insert thread r =>
          simp only [Contested]
          split
          case isTrue => exact ⟨t, h⟩
          case isFalse hne =>
            obtain ⟨c, record, hcover, hlatest, hcovers⟩ := h
            simp only [latest, if_neg hne] at hlatest
            exact ih ⟨c, record, hcover, hlatest, hcovers⟩
      | begin thread cover =>
          obtain ⟨c, record, hcover, hlatest, hcovers⟩ := h
          simp only [running] at hcover
          split at hcover
          case isTrue => exact .inl ⟨c, record, hcover, hlatest, hcovers⟩
          case isFalse => exact .inr (ih ⟨c, record, hcover, hlatest, hcovers⟩)
      | finish thread =>
          obtain ⟨c, record, hcover, hlatest, hcovers⟩ := h
          simp only [running] at hcover
          split at hcover
          case isTrue => cases hcover
          case isFalse => exact ih ⟨c, record, hcover, hlatest, hcovers⟩
      | revoke thread revoked => exact .inr (ih h)
      | tick | prepare | authenticate | dismiss | sweep | remove => exact ih h

/-! ### The promises -/

namespace Shared

/-- Only the latest issue for a session is authenticated, before it expires and unless it is
revoked. -/
def Authentic (s : Shared) : Prop :=
  ∀ authentication session,
    s.registry.authenticate s.now authentication = .ok session →
    ∃ record, latest s.log authentication.terminalSessionId = some record ∧
      record.metadata = session ∧
      s.registry.decodeToken authentication.token = some record.token ∧
      s.now < record.metadata.expiresAt ∧ ¬ Revoked s.log authentication.terminalSessionId

/-- The latest issue for a session is authenticated until it expires or meets a revocation. -/
def Available (s : Shared) : Prop :=
  ∀ authentication record,
    latest s.log authentication.terminalSessionId = some record →
    s.now < record.metadata.expiresAt →
    ¬ Contested s.log authentication.terminalSessionId →
    s.registry.decodeToken authentication.token = some record.token →
    s.registry.authenticate s.now authentication = .ok record.metadata

/-- An access removes a session that has been issued again since its call looked at it: one that
`authenticate` removes has not expired, or one that `revoke_connection` removes is for another
connection and has not expired. -/
def Overtaken (event : Event) (s : Shared) : Prop :=
  match event with
  | .dismiss _ id => ∃ record ∈ s.registry.sessions.get id, s.now < record.metadata.expiresAt
  | .remove thread id =>
      ∃ record ∈ s.registry.sessions.get id, s.now < record.metadata.expiresAt ∧
        (s.calls thread).cover ≠ some (.connection record.metadata.connectionId)
  | _ => False

instance (event : Event) (s : Shared) : Decidable (Overtaken event s) :=
  match event with
  | .dismiss _ id =>
      inferInstanceAs (Decidable (∃ record ∈ s.registry.sessions.get id,
        s.now < record.metadata.expiresAt))
  | .remove thread id =>
      inferInstanceAs (Decidable (∃ record ∈ s.registry.sessions.get id,
        s.now < record.metadata.expiresAt ∧
          (s.calls thread).cover ≠ some (.connection record.metadata.connectionId)))
  | .tick _ | .prepare _ _ | .insert _ _ | .authenticate _ _ | .revoke _ _ | .begin _ _ | .sweep _
  | .finish _ => inferInstanceAs (Decidable False)

/-! ### Safety -/

/-- What a call that revokes has done to the records issued before it began. -/
def Handled (m : Shards) (id : Uuid) (record : SessionRecord) : Call → Prop
  | .revoking connectionId next _ ids =>
      connectionId = record.metadata.connectionId → m.shard id < next → id ∈ ids
  | .clearing next => ¬ m.shard id < next
  | _ => True

/-- The map holds latest issues that are not revoked. -/
structure Sound (m : Shards) (s : Shared) : Prop where
  held : ∀ id record, s.registry.sessions.get id = some record →
    latest s.log id = some record ∧ ¬ Revoked s.log id ∧
      record.metadata.runtimeId = s.registry.runtimeId
  prepared : ∀ t record, s.calls t = .issuing record →
    record.metadata.runtimeId = s.registry.runtimeId
  running_eq : ∀ t, running s.log t = (s.calls t).cover
  handled : ∀ t id record, s.registry.sessions.get id = some record →
    begunSince s.log t id = true → Handled m id record (s.calls t)

section

variable {m : Shards} {s left : Shared} {event : Event} {id : Uuid} {record : SessionRecord}

theorem running_step (hs : Sound m s) (h : Accessed m s event left) (t : ℕ) :
    running (event :: s.log) t = (left.calls t).cover := by
  have hrun := hs.running_eq t
  -- Only the accesses that begin or finish a revocation change what a thread covers.
  have hkeep : ∀ {thread : ℕ} {call : Call} {s' : Shared}, s'.calls = s.calls →
      call.cover = (s.calls thread).cover →
      running s.log t = ((s'.setCall thread call).calls t).cover := fun hcalls hcover => by
    rw [setCall_calls]
    split
    case isTrue ht => rw [hcover, hrun, ht]
    case isFalse => rw [hcalls, hrun]
  cases h with
  | tick | answered | revoke => exact hrun
  | prepare hcall | expired hcall | insert hcall | dismiss hcall | remove hcall | clear hcall
  | collect hcall => exact hkeep rfl (by rw [hcall]; rfl)
  | @beginConnection thread | @beginAll thread | @finishConnection thread | @finishAll thread =>
      rw [setCall_calls]
      by_cases ht : t = thread
      · simp only [running, ht, if_true]
        rfl
      · simp only [running, if_neg ht, if_neg (Ne.symm ht), hrun]

/-- A record in the map was there before the access, unless the access has inserted it. -/
theorem held_before (h : Accessed m s event left)
    (hget : left.registry.sessions.get id = some record) :
    s.registry.sessions.get id = some record ∨
      ∃ thread, event = .insert thread record ∧ record.metadata.terminalSessionId = id := by
  cases h with
  | tick | answered | prepare | expired | beginConnection | beginAll | collect
  | finishConnection | finishAll => exact .inl hget
  | @insert thread r =>
      rw [setCall_registry, setRegistry_registry, BrokerSessionRegistry.get_insert] at hget
      split at hget
      case isTrue hid =>
        cases hget
        exact .inr ⟨thread, rfl, hid.symm⟩
      case isFalse => exact .inl hget
  | dismiss | remove =>
      rw [setCall_registry, setRegistry_registry, BrokerSessionRegistry.get_remove] at hget
      split at hget
      · cases hget
      · exact .inl hget
  | revoke =>
      rw [setRegistry_registry, BrokerSessionRegistry.get_remove] at hget
      split at hget
      · cases hget
      · exact .inl hget
  | clear =>
      rw [setCall_registry, setRegistry_registry, BrokerSessionRegistry.get_clearShard] at hget
      split at hget
      · cases hget
      · exact .inl hget

theorem latest_insert_of_ne {thread : ℕ} {r : SessionRecord} {log : List Event}
    (h : r.metadata.terminalSessionId ≠ id) :
    latest (.insert thread r :: log) id = latest log id := if_neg h

/-- The runtime of a registry never changes. -/
theorem runtimeId_step (h : Accessed m s event left) :
    left.registry.runtimeId = s.registry.runtimeId := by
  cases h <;> rfl

theorem held_step (hs : Sound m s) (h : Accessed m s event left)
    (hget : left.registry.sessions.get id = some record) :
    latest (event :: s.log) id = some record ∧ ¬ Revoked (event :: s.log) id ∧
      record.metadata.runtimeId = s.registry.runtimeId := by
  obtain hbefore | ⟨thread, rfl, rfl⟩ := held_before h hget
  · obtain ⟨hlatest, hrevoked, hruntime⟩ := hs.held id record hbefore
    cases h with
    | tick | answered | prepare | expired | beginConnection | beginAll | collect | clear | dismiss
    | remove => exact ⟨hlatest, hrevoked, hruntime⟩
    | @insert thread r =>
        by_cases hid : r.metadata.terminalSessionId = id
        · rw [setCall_registry, setRegistry_registry, BrokerSessionRegistry.get_insert,
            if_pos hid.symm] at hget
          cases hget
          exact ⟨if_pos hid, fun hr => hr.1 hid, hruntime⟩
        · exact ⟨(latest_insert_of_ne hid).trans hlatest, fun hr => hrevoked hr.2, hruntime⟩
    | @revoke thread revoked =>
        refine ⟨hlatest, fun hr => ?_, hruntime⟩
        obtain rfl | hold := hr
        · rw [setRegistry_registry, BrokerSessionRegistry.get_remove, if_pos rfl] at hget
          cases hget
        · exact hrevoked hold
    | @finishConnection thread next count connectionId hcall hnext =>
        refine ⟨hlatest, fun hr => ?_, hruntime⟩
        obtain ⟨⟨c, r, hcover, hr, hcovers⟩, hbegun⟩ | hold := hr
        · have hhandled := hs.handled thread id record hbefore hbegun
          rw [hs.running_eq, hcall] at hcover
          cases hcover
          rw [hlatest] at hr
          cases hr
          rw [hcall] at hhandled
          have hmem := hhandled (of_decide_eq_true hcovers).symm ((m.shard_lt id).trans_le hnext)
          cases hmem
        · exact hrevoked hold
    | @finishAll thread next hcall hnext =>
        refine ⟨hlatest, fun hr => ?_, hruntime⟩
        obtain ⟨-, hbegun⟩ | hold := hr
        · have hhandled := hs.handled thread id record hbefore hbegun
          rw [hcall] at hhandled
          exact hhandled ((m.shard_lt id).trans_le hnext)
        · exact hrevoked hold
  · cases h with
    | insert hcall => exact ⟨if_pos rfl, fun hr => hr.1 rfl, hs.prepared thread record hcall⟩

theorem prepared_step (hs : Sound m s) (h : Accessed m s event left) {t : ℕ}
    (hcall : left.calls t = .issuing record) :
    record.metadata.runtimeId = s.registry.runtimeId := by
  have hkeep : ∀ {thread : ℕ} {call : Call} {s' : Shared}, s'.calls = s.calls →
      (s'.setCall thread call).calls t = .issuing record → call ≠ .issuing record →
      record.metadata.runtimeId = s.registry.runtimeId := fun hcalls hleft hne => by
    rw [setCall_calls] at hleft
    split at hleft
    · exact absurd hleft hne
    · exact hs.prepared t record (hcalls ▸ hleft)
  cases h with
  | tick | answered | revoke => exact hs.prepared t record hcall
  | @prepare thread r _ hruntime =>
      rw [setCall_calls] at hcall
      split at hcall
      · cases hcall
        exact hruntime
      · exact hs.prepared t record hcall
  | insert | expired | dismiss | beginConnection | beginAll | collect | clear | remove
  | finishConnection | finishAll => exact hkeep rfl hcall (by simp)

theorem handled_step (hs : Sound m s) (h : Accessed m s event left)
    (hget : left.registry.sessions.get id = some record) {t : ℕ}
    (hbegun : begunSince (event :: s.log) t id = true) : Handled m id record (left.calls t) := by
  obtain hbefore | ⟨thread, rfl, rfl⟩ := held_before h hget
  · have hold := hs.handled t id record hbefore
    -- A call that is done with, or that revokes nothing, has nothing to handle.
    have hkeep : ∀ {thread : ℕ} {call : Call} {s' : Shared}, s'.calls = s.calls →
        call.cover = none → begunSince s.log t id = true →
        Handled m id record ((s'.setCall thread call).calls t) := fun hcalls hnone hsince => by
      rw [setCall_calls]
      split
      · cases ‹Call› with
        | idle | issuing | dismissing => trivial
        | revoking | clearing => cases hnone
      · rw [hcalls]
        exact hold hsince
    cases h with
    | tick | answered | revoke => exact hold hbegun
    | prepare | expired | dismiss => exact hkeep rfl rfl hbegun
    | finishConnection | finishAll => exact hkeep rfl rfl hbegun
    | @insert thread r =>
        simp only [begunSince] at hbegun
        split at hbegun
        · cases hbegun
        · exact hkeep rfl rfl hbegun
    | @beginConnection thread connectionId hcall =>
        rw [setCall_calls]
        split
        case isTrue => exact fun _ hlt => absurd hlt (Nat.not_lt_zero _)
        case isFalse hne =>
          refine hold ?_
          simpa only [begunSince, Ne.symm hne, false_or, Bool.decide_eq_true] using hbegun
    | @beginAll thread hcall =>
        rw [setCall_calls]
        split
        case isTrue => exact Nat.not_lt_zero _
        case isFalse hne =>
          refine hold ?_
          simpa only [begunSince, Ne.symm hne, false_or, Bool.decide_eq_true] using hbegun
    | @collect thread next count connectionId ids hcall =>
        rw [setCall_calls]
        split
        case isTrue ht =>
          have hids := hold hbegun
          rw [ht, hcall] at hids
          rintro rfl hlt
          obtain hlt | heq := Nat.lt_succ_iff_lt_or_eq.1 hlt
          · exact List.mem_append_left _ (hids rfl hlt)
          · exact List.mem_append_right _ (heq ▸ BrokerSessionRegistry.mem_collect hbefore)
        case isFalse => exact hold hbegun
    | @clear thread next hcall =>
        rw [setCall_registry, setRegistry_registry, BrokerSessionRegistry.get_clearShard] at hget
        have hne : m.shard id ≠ next := fun heq => by
          rw [if_pos heq] at hget
          cases hget
        rw [setCall_calls]
        split
        case isTrue ht =>
          have hcleared := hold hbegun
          rw [ht, hcall] at hcleared
          exact fun hlt => (Nat.lt_succ_iff_lt_or_eq.1 hlt).elim hcleared hne
        case isFalse => exact hold hbegun
    | @remove thread next count connectionId removed ids hcall =>
        rw [setCall_registry, setRegistry_registry, BrokerSessionRegistry.get_remove] at hget
        have hne : id ≠ removed := fun heq => by
          rw [if_pos heq] at hget
          cases hget
        rw [setCall_calls]
        split
        case isTrue ht =>
          have hids := hold hbegun
          rw [ht, hcall] at hids
          exact fun hc hlt => List.mem_of_ne_of_mem hne (hids hc hlt)
        case isFalse => exact hold hbegun
  · simp [begunSince] at hbegun

theorem sound_step (hs : Sound m s) {s' : Shared} (h : apply m event s = .ok s') : Sound m s' := by
  obtain ⟨left, hleft, rfl⟩ := apply_cases h
  have hruntime := runtimeId_step hleft
  exact {
    held := fun id record hget => by
      obtain ⟨hlatest, hrevoked, hof⟩ := held_step hs hleft hget
      exact ⟨hlatest, hrevoked, hof.trans hruntime.symm⟩
    prepared := fun t record hcall => (prepared_step hs hleft hcall).trans hruntime.symm
    running_eq := fun t => running_step hs hleft t
    handled := fun t id record hget hbegun => handled_step hs hleft hget hbegun }

theorem sound_start (runtimeId : Uuid) (decodeToken : String → Option (Vector UInt8 32))
    (now : DateTime) : Sound m (start runtimeId decodeToken now) where
  held id record hget := by cases hget
  prepared t record hcall := by cases hcall
  running_eq t := rfl
  handled t id record hget := by cases hget

theorem authentic_of_sound (hs : Sound m s) : s.Authentic := by
  intro authentication session h
  unfold BrokerSessionRegistry.authenticate at h
  split at h
  case h_1 => cases h
  case h_2 record hget =>
    split at h
    · cases h
    · rename_i haccepted
      split at h
      · cases h
      · rename_i htoken
        cases h
        obtain ⟨hlatest, hrevoked, -⟩ := hs.held _ _ hget
        have hnow : ¬ record.metadata.expiresAt ≤ s.now := fun hle => haccepted (.inr hle)
        exact ⟨record, hlatest, rfl, not_not.1 htoken, Int.not_le.1 hnow, hrevoked⟩

/-! ### Availability -/

/-- The map holds every latest issue that has not expired and met no revocation. -/
def Kept (s : Shared) : Prop :=
  ∀ id record, latest s.log id = some record → s.now < record.metadata.expiresAt →
    ¬ Contested s.log id → s.registry.sessions.get id = some record

theorem kept_step (hs : Sound m s) (hkept : s.Kept) (hgood : ¬ s.Overtaken event) {s' : Shared}
    (h : apply m event s = .ok s') : s'.Kept := by
  obtain ⟨left, hleft, rfl⟩ := apply_cases h
  intro id record hlatest hnow hfree
  -- What is running covers nothing of a session that has met no revocation.
  have hcover : ∀ t c, (s.calls t).cover = some c → latest s.log id = some record →
      ¬ Contested s.log id → c.covers record ≠ true := fun t c hc hl hf hcovers =>
    hf (contested_of_running (t := t) ⟨c, record, (hs.running_eq t).trans hc, hl, hcovers⟩)
  cases hleft with
  | tick hle => exact hkept id record hlatest (Int.lt_of_le_of_lt hle hnow) hfree
  | answered | prepare | expired | collect | finishConnection | finishAll =>
      exact hkept id record hlatest hnow hfree
  | beginConnection | beginAll => exact hkept id record hlatest hnow fun hc => hfree (.inr hc)
  | @insert thread r =>
      refine (BrokerSessionRegistry.get_insert _ _ _).trans ?_
      simp only [latest] at hlatest
      simp only [Contested] at hfree
      split at hlatest
      case isTrue hid => rw [if_pos hid.symm, hlatest]
      case isFalse hid =>
        rw [if_neg hid] at hfree
        rw [if_neg (Ne.symm hid), hkept id record hlatest hnow hfree]
  | @dismiss thread removed hcall =>
      have hget := hkept id record hlatest hnow hfree
      refine (BrokerSessionRegistry.get_remove _ _ _).trans ?_
      split
      case isTrue heq => exact absurd ⟨record, heq ▸ hget, hnow⟩ hgood
      case isFalse => exact hget
  | @revoke thread removed =>
      have hget := hkept id record hlatest hnow fun hc => hfree (.inr hc)
      refine (BrokerSessionRegistry.get_remove _ _ _).trans ?_
      rw [if_neg fun heq => hfree (.inl heq.symm), hget]
  | @clear thread next hcall =>
      have hall : (s.calls thread).cover = some .all := by rw [hcall]; rfl
      exact absurd rfl (hcover thread .all hall hlatest hfree)
  | @remove thread next count connectionId removed ids hcall =>
      have hget := hkept id record hlatest hnow hfree
      refine (BrokerSessionRegistry.get_remove _ _ _).trans ?_
      split
      case isTrue heq =>
        refine absurd ⟨record, heq ▸ hget, hnow, fun hc => ?_⟩ hgood
        exact hcover thread _ hc hlatest hfree (decide_eq_true rfl)
      case isFalse => exact hget

theorem available_of_kept (hs : Sound m s) (hkept : s.Kept) : s.Available := by
  intro authentication record hlatest hnow hfree htoken
  have hget := hkept _ _ hlatest hnow hfree
  have hruntime := (hs.held _ _ hget).2.2
  have haccepted : ¬ (record.metadata.runtimeId ≠ s.registry.runtimeId ∨
      record.metadata.expiresAt ≤ s.now) := by
    rintro (hne | hle)
    · exact hne hruntime
    · exact Int.not_le.2 hnow hle
  simp only [BrokerSessionRegistry.authenticate, hget]
  rw [if_neg haccepted, if_neg (not_not_intro htoken)]

/-- An overtaken session that met no revocation is denied from then on. -/
theorem not_available_of_overtaken (hs : Sound m s) {thread : ℕ} {token : String}
    (hover : Overtaken (.dismiss thread id) s) (hfree : ¬ Contested s.log id) {s' : Shared}
    (h : apply m (.dismiss thread id) s = .ok s')
    (htoken : ∀ record ∈ s.registry.sessions.get id,
      s.registry.decodeToken token = some record.token) : ¬ s'.Available := by
  obtain ⟨left, hleft, rfl⟩ := apply_cases h
  obtain ⟨record, hget, hnow⟩ := hover
  intro havailable
  cases hleft with
  | dismiss hcall =>
      have hanswer := havailable ⟨id, token⟩ record (hs.held id record hget).1 hnow hfree
        (htoken record hget)
      simp [BrokerSessionRegistry.authenticate, BrokerSessionRegistry.get_remove] at hanswer

end

/-! ### Runs -/

/-- **Sessions of a registry.** In every run of any number of threads only the latest issue for a
session is authenticated, with what it was issued for, before it expires and unless it is revoked.
In every run in which no removal is overtaken by an issue, the latest issue for a session is
authenticated until it expires or meets a revocation. -/
theorem run_authentic_available (m : Shards) (runtimeId : Uuid)
    (decodeToken : String → Option (Vector UInt8 32)) (now : DateTime) (events : List Event) :
    (Commits.run (apply m) events (start runtimeId decodeToken now)).Authentic ∧
      (Commits.Along (apply m) (fun event s => ¬ Overtaken event s) events
          (start runtimeId decodeToken now) →
        (Commits.run (apply m) events (start runtimeId decodeToken now)).Available) := by
  constructor
  · exact authentic_of_sound (Commits.run_invariant (I := Sound m)
      (fun _ _ _ _ hs h => sound_step hs h) (Commits.along_true events _)
      (sound_start runtimeId decodeToken now))
  · intro hgood
    obtain ⟨hs, hkept⟩ := Commits.run_invariant (I := fun s => Sound m s ∧ s.Kept)
      (fun _ _ _ hfine hs h => ⟨sound_step hs.1 h, kept_step hs.1 hs.2 hfine h⟩) hgood
      ⟨sound_start runtimeId decodeToken now, fun _ _ hlatest => by cases hlatest⟩
    exact available_of_kept hs hkept

/-! ### A session that is issued again -/

def oneShard : Shards := ⟨1, fun _ => 0, fun _ => Nat.one_pos⟩

/-- The token all of whose bytes are `byte`. -/
def tokenOf (byte : UInt8) : Vector UInt8 32 := .replicate 32 byte

/-- The texts of two tokens are decoded. -/
def decodeSample (text : String) : Option (Vector UInt8 32) :=
  if text = String.join (List.replicate 32 "01") then some (tokenOf 1)
  else if text = String.join (List.replicate 32 "02") then some (tokenOf 2)
  else none

/-- An issue for the session `7`. -/
def issued (byte : UInt8) (expires : Fin 32) : SessionRecord where
  metadata :=
    { terminalSessionId := .ofByte 7
      runtimeId := .ofByte 1
      workspaceId := .ofByte 2
      accountScope := "personal"
      connectionId := .ofByte 3
      connectionRevision := 1
      capabilities := [.queryPlan]
      expiresAt := .ofDay expires }
  token := tokenOf byte

def reissued : SessionAuthentication :=
  ⟨.ofByte 7, String.join (List.replicate 32 "02")⟩

/-- The session expires and is issued again; a call of `authenticate` finds the first record, and
removes the session after the second issue. -/
def overtaking : List Event :=
  [.prepare 1 (issued 1 2), .insert 1 (issued 1 2), .tick (.ofDay 3),
    .authenticate 2 ⟨.ofByte 7, String.join (List.replicate 32 "01")⟩,
    .prepare 1 (issued 2 9), .insert 1 (issued 2 9), .dismiss 2 (.ofByte 7)]

/-- The same accesses, with the removal before the second issue. -/
def inOrder : List Event :=
  [.prepare 1 (issued 1 2), .insert 1 (issued 1 2), .tick (.ofDay 3),
    .authenticate 2 ⟨.ofByte 7, String.join (List.replicate 32 "01")⟩,
    .dismiss 2 (.ofByte 7), .prepare 1 (issued 2 9), .insert 1 (issued 2 9)]

def sampleStart : Shared := start (.ofByte 1) decodeSample (.ofDay 1)

theorem overtaking_denied :
    ¬ (Commits.run (apply oneShard) overtaking sampleStart).Available := by
  intro havailable
  have hlog : (Commits.run (apply oneShard) overtaking sampleStart).log = overtaking.reverse := by
    rfl
  have hfree :
      ¬ Contested (Commits.run (apply oneShard) overtaking sampleStart).log (.ofByte 7) := by
    rw [hlog]
    rintro ⟨t, c, record, hcover, -⟩
    cases hcover
  have hanswer := havailable reissued (issued 2 9) (by decide +kernel) (by decide +kernel) hfree
    (by decide +kernel)
  revert hanswer
  decide +kernel

theorem inOrder_authenticated :
    (Commits.run (apply oneShard) inOrder sampleStart).registry.authenticate (.ofDay 3) reissued =
      .ok (issued 2 9).metadata := by
  have hgood : Commits.Along (apply oneShard) (fun event s => ¬ Overtaken event s) inOrder
      sampleStart :=
    ⟨id, id, id, id, by change ¬ Overtaken _ _; decide +kernel, id, id, trivial⟩
  refine (run_authentic_available oneShard (.ofByte 1) decodeSample (.ofDay 1) inOrder).2 hgood
    reissued (issued 2 9) (by decide +kernel) (by decide +kernel) ?_ (by decide +kernel)
  rintro ⟨t, c, record, hcover, -⟩
  cases hcover

end Shared

end Broker
end AgentDb
