import AgentDb.Cloud.LeaseCleanup
import AgentDb.Lib.Fencing

/-!
# What a step of a cleanup worker does

`ControlOk` is what holds in every state: the claims of the workers are fenced by the number of the
attempt, and what a worker is about to write rests on what it has read and been told. Every step of
a worker is a `Turn` on the lease it has come to: it changes that lease in one of two ways or not at
all, and leaves the worker on it or past it.
-/

namespace AgentDb
namespace Cloud

open Commits Fencing

/-! ### The claims on a lease -/

/-- A claim made at this time has become stale. -/
def Stale (t now : Millis) : Prop := t < now - cleanupClaimStaleMs

/-- What a lease says of its claims. -/
def Lease.lock (l : Lease) : Lock Millis :=
  ⟨l.cleanupAttempts, l.cleanupClaimedAt, l.revokedAt ≠ none⟩

/-- A worker has still to do the lease, which it has claimed. -/
def Control.holds (c : Control) (id : Uuid) : Holds ℕ Millis := fun worker attempt t =>
  ∃ w row, c.workers.get worker = some w ∧ row ∈ w.rows ∧ row.id = id ∧
    row.cleanupClaim = some attempt ∧ w.claimedAt = t

theorem due_iff {l : Lease} {now : Millis} : l.due now = true ↔ l.revokedAt = none ∧
    l.expiresAt ≤ now ∧ (∀ t, l.cleanupNextAttemptAt = some t → t ≤ now) ∧
    ∀ t, l.cleanupClaimedAt = some t → Stale t now := by
  unfold Lease.due Stale
  simp only [Bool.decide_and, Bool.and_eq_true, decide_eq_true_eq, Bool.decide_eq_true]
  cases l.cleanupNextAttemptAt <;> cases l.cleanupClaimedAt <;> simp

/-- The times of a lease are not ahead by more than one delay. -/
structure Lease.Timely (now : Millis) (l : Lease) : Prop where
  claimed : ∀ t, l.cleanupClaimedAt = some t → t ≤ now
  next : ∀ t, l.cleanupNextAttemptAt = some t → t ≤ now + cleanupRetryMaxMs
  claimedAfter : ∀ t t', l.cleanupClaimedAt = some t → l.cleanupNextAttemptAt = some t' → t' ≤ t

/-! ### What a worker knows -/

/-- What a stage of a worker rests on. -/
def Evidence (c : Control) (worker : ℕ) (w : Worker) (row : LeaseCleanupRow) : Stage → Prop
  | .calling request =>
      leaseAction (w.integration row.integrationId) w.now row = .call request
  | .marking .expired => leaseAction (w.integration row.integrationId) w.now row = .retire
  | .marking (.answered answer) => answer ≠ .failed ∧ ∃ request,
      leaseAction (w.integration row.integrationId) w.now row = .call request ∧
        ⟨worker, row.id, request, answer⟩ ∈ c.answers
  | .selecting | .examining | .retrying => True

theorem Evidence.mono {c c' : Control} {worker : ℕ} {w : Worker} {row : LeaseCleanupRow}
    {stage : Stage} (h : Evidence c worker w row stage) (hanswers : c.answers ⊆ c'.answers) :
    Evidence c' worker w row stage := by
  cases stage with
  | marking why =>
      cases why with
      | expired => exact h
      | answered answer =>
          obtain ⟨hanswer, request, haction, hmem⟩ := h
          exact ⟨hanswer, request, haction, hanswers hmem⟩
  | selecting | examining | calling _ | retrying => exact h

/-- What holds of a running worker. -/
structure WorkerOk (c : Control) (worker : ℕ) (w : Worker) : Prop where
  numbered : worker < c.started
  distinct : (w.rows.map (·.id)).Nodup
  read : w.now ≤ c.now
  evidence : ∀ row rest, w.rows = row :: rest → Evidence c worker w row w.stage

/-- A lease that has been claimed has expired, and is not issued any more. -/
def Lease.AgreesWith (now : Millis) (l : Lease) (row : LeaseCleanupRow) : Prop :=
  l.expiresAt ≤ now ∧ l.provider = row.provider ∧ l.externalCredentialKind = row.credentialKind ∧
    l.externalCredentialId = row.credentialId

/-- What holds of a lease. -/
structure LeaseOk (c : Control) (id : Uuid) (l : Lease) : Prop where
  fenced : Sound Stale c.now l.lock (c.holds id)
  timely : l.Timely c.now
  connected : (c.connections.get l.connectionId).isSome
  agrees : ∀ worker w row, c.workers.get worker = some w → row ∈ w.rows → row.id = id →
    row.cleanupClaim ≠ none → l.AgreesWith c.now row

/-- What holds in every state. -/
structure ControlOk (c : Control) : Prop where
  leases : ∀ id l, c.leases.get id = some l → LeaseOk c id l
  workers : ∀ worker w, c.workers.get worker = some w → WorkerOk c worker w

/-! ### A step of a worker -/

/-- How a step of a worker changes the leases. -/
inductive Effect (c c' : Control) (w : Worker) (row : LeaseCleanupRow) (gone : Prop) : Prop
  | none (hleases : c'.leases = c.leases)
  | marked (l : Lease) (why : Why) (readAt : Millis) (hget : c.leases.get row.id = some l)
      (hopen : l.revokedAt = .none)
      (hclaim : ∀ attempt, row.cleanupClaim = some attempt → l.cleanupAttempts = attempt)
      (hstage : w.stage = .marking why)
      (hleases : c'.leases = c.leases.put row.id { l with
        revokedAt := some readAt
        cleanupClaimedAt := .none
        cleanupNextAttemptAt := .none })
  | scheduled (l : Lease) (readAt : Millis) (hget : c.leases.get row.id = some l)
      (hread : readAt ≤ c.now) (hclaim : row.cleanupClaim = some l.cleanupAttempts) (hgone : gone)
      (hleases : c'.leases = c.leases.put row.id { l with
        cleanupClaimedAt := .none
        cleanupNextAttemptAt :=
          some (readAt + managedLeaseCleanupRetryDelayMs l.cleanupAttempts) })

/-- What a step of a worker leaves of it: it has the same leases, or one less. -/
structure Moved (c c' : Control) (worker : ℕ) (w : Worker) (rest : List LeaseCleanupRow) :
    Prop where
  now : c'.now = c.now
  connections : c'.connections = c.connections
  started : c'.started = c.started
  answers : c.answers ⊆ c'.answers
  other : ∀ k, k ≠ worker → c'.workers.get k = c.workers.get k
  mine : ∀ w', c'.workers.get worker = some w' → (w'.rows = w.rows ∨ w'.rows = rest) ∧
    w'.claimedAt = w.claimedAt ∧ w'.now ≤ c.now ∧
    ∀ row more, w'.rows = row :: more → Evidence c' worker w' row w'.stage

/-- A step of a worker on the lease it has come to. -/
structure Turn (c c' : Control) (worker : ℕ) (w : Worker) (row : LeaseCleanupRow)
    (rest : List LeaseCleanupRow) : Prop where
  get : c.workers.get worker = some w
  rows : w.rows = row :: rest
  moved : Moved c c' worker w rest
  effect : Effect c c' w row (∀ w', c'.workers.get worker = some w' → w'.rows = rest)

section

variable {c c' c₁ : Control} {worker : ℕ} {w : Worker} {row : LeaseCleanupRow}
  {rest : List LeaseCleanupRow}

theorem turn_eq_ok {f : Worker → LeaseCleanupRow → Except Unit Control} :
    c.turn worker f = .ok c' ↔ ∃ w row rest, c.workers.get worker = some w ∧
      w.rows = row :: rest ∧ f w row = .ok c' := by
  unfold Control.turn
  cases hw : c.workers.get worker with
  | none => simp
  | some w =>
      cases hrows : w.rows with
      | nil => simp [hrows]
      | cons row rest => simp [hrows]

/-- What the worker-side of a step may have changed before the worker moves. -/
structure Before (c c₁ : Control) : Prop where
  now : c₁.now = c.now
  connections : c₁.connections = c.connections
  started : c₁.started = c.started
  answers : c.answers ⊆ c₁.answers
  workers : c₁.workers = c.workers

theorem Before.refl (c : Control) : Before c c := ⟨rfl, rfl, rfl, fun _ h => h, rfl⟩

theorem Before.leases (c : Control) (leases : Table Uuid Lease) : Before c { c with leases } :=
  ⟨rfl, rfl, rfl, fun _ h => h, rfl⟩

theorem Before.ite (c : Control) (leases : Table Uuid Lease) (applied : Bool) :
    Before c (if applied then { c with leases } else c) := by
  cases applied with
  | true => exact .leases c leases
  | false => exact .refl c

@[simp] theorem workers_stop (c : Control) (worker k : ℕ) :
    (c.stop worker).workers.get k = if k = worker then none else c.workers.get k :=
  Table.get_filterRows_ne _ _ _

theorem moved_stop (h : Before c c₁) : Moved c (c₁.stop worker) worker w rest where
  now := h.now
  connections := h.connections
  started := h.started
  answers := h.answers
  other k hk := by
    rw [workers_stop, if_neg hk, h.workers]
  mine w' hw' := by
    rw [workers_stop, if_pos rfl] at hw'
    cases hw'

theorem moved_stay {w₁ : Worker} {stage : Stage} (h : Before c c₁)
    (hrows : w₁.rows = w.rows) (hclaimed : w₁.claimedAt = w.claimedAt) (hread : w₁.now ≤ c.now)
    (hevidence : ∀ row more, w.rows = row :: more → Evidence c₁ worker w₁ row stage) :
    Moved c (c₁.stay worker w₁ stage) worker w rest where
  now := h.now
  connections := h.connections
  started := h.started
  answers := h.answers
  other k hk := (Table.get_put_of_ne _ _ hk).trans (by rw [h.workers])
  mine w' hw' := by
    rw [Control.stay, Table.get_put_self] at hw'
    obtain rfl := Option.some.inj hw'
    refine ⟨.inl hrows, hclaimed, hread, fun row more hmore => ?_⟩
    have hev := hevidence row more (hrows.symm.trans hmore)
    cases stage with
    | marking why => cases why <;> exact hev
    | selecting | examining | calling _ | retrying => exact hev

theorem moved_advance (w₁ : Worker) (h : Before c c₁) (hrows : w₁.rows = w.rows)
    (hclaimed : w₁.claimedAt = w.claimedAt) (hread : w₁.now ≤ c.now)
    (hw : w.rows = row :: rest) : Moved c (c₁.advance worker w₁) worker w rest ∧
      ∀ w', (c₁.advance worker w₁).workers.get worker = some w' → w'.rows = rest := by
  have htail : w₁.rows.tail = rest := by rw [hrows, hw, List.tail_cons]
  unfold Control.advance
  rw [htail]
  cases rest with
  | nil =>
      refine ⟨moved_stop h, fun w' hw' => ?_⟩
      replace hw' : (c₁.stop worker).workers.get worker = some w' := hw'
      rw [workers_stop, if_pos rfl] at hw'
      cases hw'
  | cons next more =>
      have hmine : ∀ w', (c₁.workers.put worker { w₁ with
          rows := next :: more, stage := .examining }).get worker = some w' →
          w' = { w₁ with rows := next :: more, stage := .examining } := fun w' hw' => by
        rw [Table.get_put_self] at hw'
        exact (Option.some.inj hw').symm
      refine ⟨⟨h.now, h.connections, h.started, h.answers,
        fun k hk => (Table.get_put_of_ne _ _ hk).trans (by rw [h.workers]), fun w' hw' => ?_⟩,
        fun w' hw' => ?_⟩
      · obtain rfl := hmine w' hw'
        exact ⟨.inr rfl, hclaimed, hread, fun _ _ _ => trivial⟩
      · obtain rfl := hmine w' hw'
        rfl

/-- A worker whose lease failed waits to write that, or goes on. -/
theorem moved_caught (h : Before c c₁) (hread : w.now ≤ c.now) (hw : w.rows = row :: rest) :
    Moved c (c₁.caught worker w row) worker w rest := by
  unfold Control.caught
  split
  · exact (moved_advance (w := w) { w with deferred := w.deferred + 1 } h rfl rfl hread hw).1
  · exact moved_stay h rfl rfl hread fun _ _ _ => trivial

/-- The mark is one on the selected lease that is not revoked, and where there is a claim, with its
number. -/
theorem markLeaseRevoked_cases (c : Control) (id : Uuid) (claim : Option ℕ) (readAt : Millis) :
    c.markLeaseRevoked id claim readAt = (false, c.leases) ∨
    ∃ l, c.leases.get id = some l ∧ l.revokedAt = none ∧
      (∀ attempt, claim = some attempt → l.cleanupAttempts = attempt) ∧
      c.markLeaseRevoked id claim readAt = (true, c.leases.put id { l with
        revokedAt := some readAt
        cleanupClaimedAt := none
        cleanupNextAttemptAt := none }) := by
  unfold Control.markLeaseRevoked
  split
  · exact .inl rfl
  · rename_i l hl
    obtain ⟨hget, hcondition⟩ := Option.filter_eq_some_iff.1 hl
    obtain ⟨hopen, hclaim⟩ := of_decide_eq_true hcondition
    refine .inr ⟨l, hget, hopen, fun attempt hattempt => ?_, rfl⟩
    subst hattempt
    simp only [Option.all_some, decide_eq_true_eq] at hclaim
    exact hclaim.1

theorem scheduleLeaseCleanupRetry_cases (c : Control) (id : Uuid) (attempt : ℕ)
    (readAt : Millis) :
    c.scheduleLeaseCleanupRetry id attempt readAt = (false, c.leases) ∨
    ∃ l, c.leases.get id = some l ∧ l.cleanupAttempts = attempt ∧
      c.scheduleLeaseCleanupRetry id attempt readAt = (true, c.leases.put id { l with
        cleanupClaimedAt := none
        cleanupNextAttemptAt := some (readAt + managedLeaseCleanupRetryDelayMs attempt) }) := by
  unfold Control.scheduleLeaseCleanupRetry
  split
  · exact .inl rfl
  · rename_i l hl
    obtain ⟨hget, hcondition⟩ := Option.filter_eq_some_iff.1 hl
    exact .inr ⟨l, hget, (of_decide_eq_true hcondition).1, rfl⟩

/-- Marking a lease changes the leases in one way, wherever the worker goes on. -/
theorem effect_mark {readAt : Millis} {why : Why} {gone : Prop} (hstage : w.stage = .marking why)
    (hleases : c'.leases = (c.markLeaseRevoked row.id row.cleanupClaim readAt).2) :
    Effect c c' w row gone := by
  obtain hsame | ⟨l, hget, hopen, hclaim, hmarked⟩ :=
    markLeaseRevoked_cases c row.id row.cleanupClaim readAt
  · rw [hsame] at hleases
    exact .none hleases
  · rw [hmarked] at hleases
    exact .marked l why readAt hget hopen hclaim hstage hleases

theorem effect_schedule {readAt : Millis} {attempt : ℕ} {gone : Prop} (hread : readAt ≤ c.now)
    (hclaim : row.cleanupClaim = some attempt) (hgone : gone)
    (hleases : c'.leases = (c.scheduleLeaseCleanupRetry row.id attempt readAt).2) :
    Effect c c' w row gone := by
  obtain hsame | ⟨l, hget, rfl, hscheduled⟩ :=
    scheduleLeaseCleanupRetry_cases c row.id attempt readAt
  · rw [hsame] at hleases
    exact .none hleases
  · rw [hscheduled] at hleases
    exact .scheduled l readAt hget hread hclaim hgone hleases

@[simp] theorem leases_advance (c : Control) (worker : ℕ) (w : Worker) :
    (c.advance worker w).leases = c.leases := by
  unfold Control.advance
  split <;> rfl

@[simp] theorem leases_caught (c : Control) (worker : ℕ) (w : Worker) (row : LeaseCleanupRow) :
    (c.caught worker w row).leases = c.leases := by
  unfold Control.caught
  split
  · exact leases_advance _ _ _
  · rfl

theorem turn_selectIntegrations
    (h : Event.apply (.selectIntegrations worker) c = .ok c') :
    ∃ w row rest, Turn c c' worker w row rest := by
  obtain ⟨w, row, rest, hget, hrows, h⟩ := turn_eq_ok.1 h
  refine ⟨w, row, rest, hget, hrows, ?_, .none ?_⟩
  · split at h
    · cases h
      exact moved_stay (.refl c) rfl rfl le_rfl fun _ _ _ => trivial
    · cases h
  · split at h <;> cases h
    rfl

theorem turn_examine (hok : ControlOk c)
    (h : Event.apply (.examine worker) c = .ok c') :
    ∃ w row rest, Turn c c' worker w row rest := by
  obtain ⟨w, row, rest, hget, hrows, h⟩ := turn_eq_ok.1 h
  have hread := (hok.workers _ w hget).read
  have hhead : ∀ row' more, w.rows = row' :: more → row' = row := fun row' more hmore => by
    rw [hrows] at hmore
    exact (List.cons.inj hmore).1.symm
  split at h
  case h_2 => cases h
  split at h
  case h_1 haction =>
      cases h
      refine ⟨w, row, rest, hget, hrows, moved_stay (.refl c) rfl rfl hread
        fun row' more hmore => ?_, .none rfl⟩
      rw [hhead row' more hmore]
      exact haction
  case h_2 =>
      cases h
      exact ⟨w, row, rest, hget, hrows, (moved_advance (w := w)
        { w with deferred := w.deferred + 1 } (.refl c) rfl rfl hread hrows).1,
        .none (leases_advance _ _ _)⟩
  case h_3 request haction =>
      cases h
      refine ⟨w, row, rest, hget, hrows, moved_stay (.refl c) rfl rfl hread
        fun row' more hmore => ?_, .none rfl⟩
      rw [hhead row' more hmore]
      exact haction
  case h_4 =>
      cases h
      exact ⟨w, row, rest, hget, hrows, moved_caught (.refl c) hread hrows,
        .none (leases_caught _ _ _ _)⟩

theorem turn_answer (hok : ControlOk c) {given : ProviderAnswer}
    (h : Event.apply (.answer worker given) c = .ok c') :
    ∃ w row rest, Turn c c' worker w row rest := by
  obtain ⟨w, row, rest, hget, hrows, h⟩ := turn_eq_ok.1 h
  have hwok := hok.workers _ w hget
  split at h
  case h_2 => cases h
  rename_i request hstage
  have hbefore : Before c { c with
      answers := c.answers ++ [Answer.mk worker row.id request given] } :=
    ⟨rfl, rfl, rfl, List.subset_append_left _ _, rfl⟩
  dsimp only at h
  split at h
  case isTrue =>
      cases h
      exact ⟨w, row, rest, hget, hrows, moved_caught hbefore hwok.read hrows,
        .none (leases_caught _ _ _ _)⟩
  case isFalse hanswer =>
      cases h
      refine ⟨w, row, rest, hget, hrows, moved_stay hbefore rfl rfl hwok.read
        fun row' more hmore => ?_, .none rfl⟩
      have haction := hwok.evidence row' more hmore
      rw [hstage] at haction
      rw [hrows] at hmore
      obtain rfl := (List.cons.inj hmore).1
      exact ⟨hanswer, request, haction, List.mem_append_right _ (List.mem_singleton_self _)⟩

theorem turn_mark (hok : ControlOk c) {readAt : Millis} {fault : Option Bool}
    (h : Event.apply (.mark worker readAt fault) c = .ok c') :
    ∃ w row rest, Turn c c' worker w row rest := by
  obtain ⟨w, row, rest, hget, hrows, h⟩ := turn_eq_ok.1 h
  have hread := (hok.workers _ w hget).read
  split at h
  case h_2 => cases h
  rename_i why hstage
  obtain ⟨-, -, h⟩ := Except.bind_eq_ok.1 h
  have heffect : ∀ {c'}, c'.leases = (c.markLeaseRevoked row.id row.cleanupClaim readAt).2 →
      Effect c c' w row (∀ w', c'.workers.get worker = some w' → w'.rows = rest) :=
    effect_mark hstage
  generalize c.markLeaseRevoked row.id row.cleanupClaim readAt = out at h heffect
  obtain ⟨wrote, leases⟩ := out
  cases fault with
  | none =>
      cases h
      exact ⟨w, row, rest, hget, hrows, (moved_advance (w := w)
        { w with revoked := if wrote then w.revoked + 1 else w.revoked }
        (.leases c _) rfl rfl hread hrows).1, heffect (leases_advance _ _ _)⟩
  | some applied =>
      have hbefore := Before.ite c leases applied
      have heffect' : ∀ {c'}, c'.leases = (if applied then { c with leases } else c).leases →
          Effect c c' w row (∀ w', c'.workers.get worker = some w' → w'.rows = rest) := by
        cases applied with
        | true => exact heffect
        | false => exact .none
      dsimp only at h
      generalize (if applied = true then { c with leases } else c) = c₁ at h hbefore heffect'
      split at h
      · cases h
        exact ⟨w, row, rest, hget, hrows, moved_stop hbefore, heffect' rfl⟩
      · cases h
        exact ⟨w, row, rest, hget, hrows, moved_caught hbefore hread hrows,
          heffect' (leases_caught _ _ _ _)⟩

theorem turn_schedule (hok : ControlOk c) {readAt : Millis} {fault : Option Bool}
    (h : Event.apply (.schedule worker readAt fault) c = .ok c') :
    ∃ w row rest, Turn c c' worker w row rest := by
  obtain ⟨w, row, rest, hget, hrows, h⟩ := turn_eq_ok.1 h
  have hread := (hok.workers _ w hget).read
  split at h
  case h_2 => cases h
  rename_i attempt hstage hclaim
  obtain ⟨_, hreadAt, h⟩ := Except.bind_eq_ok.1 h
  have heffect : ∀ {c'}, (∀ w', c'.workers.get worker = some w' → w'.rows = rest) →
      c'.leases = (c.scheduleLeaseCleanupRetry row.id attempt readAt).2 →
      Effect c c' w row (∀ w', c'.workers.get worker = some w' → w'.rows = rest) :=
    effect_schedule (not_lt.1 (refuseIf_eq_ok.1 hreadAt)) hclaim
  generalize c.scheduleLeaseCleanupRetry row.id attempt readAt = out at h heffect
  obtain ⟨wrote, leases⟩ := out
  cases fault with
  | none =>
      cases h
      obtain ⟨hmoved, hgone⟩ := moved_advance (w := w)
        { w with deferred := if wrote then w.deferred + 1 else w.deferred }
        (.leases c leases) rfl rfl hread hrows
      exact ⟨w, row, rest, hget, hrows, hmoved, heffect hgone (leases_advance _ _ _)⟩
  | some applied =>
      have hbefore := Before.ite c leases applied
      cases h
      refine ⟨w, row, rest, hget, hrows, moved_stop hbefore, ?_⟩
      cases applied with
      | true => exact heffect (fun w' hw' => absurd hw' (by simp [workers_stop])) rfl
      | false => exact .none rfl

/-- Every step of a worker but a crash is one on the lease it has come to. -/
theorem turn_of_apply (hok : ControlOk c) {event : Event} (hworker : event.worker = some worker)
    (hcrash : ∀ k, event ≠ .crash k) (h : event.apply c = .ok c') :
    ∃ w row rest, Turn c c' worker w row rest := by
  cases event with
  | crash k => exact absurd rfl (hcrash k)
  | selectIntegrations k => cases hworker; exact turn_selectIntegrations h
  | examine k => cases hworker; exact turn_examine hok h
  | answer k given => cases hworker; exact turn_answer hok h
  | mark k readAt fault => cases hworker; exact turn_mark hok h
  | schedule k readAt fault => cases hworker; exact turn_schedule hok h
  | _ => cases hworker

end

end Cloud
end AgentDb
