import AgentDb.Cloud.LeaseCleanupRun

/-!
# What the cleanup of leases guarantees

In every state that a run reaches, at most one worker that is not stale has a claim on a lease, and
a lease that has expired is claimed or can be claimed soon. In every step from there, the attempts
of a lease grow exactly with its claims, a worker whose claim was taken over leaves the lease as it
is, and no worker marks a lease without a reason.
-/

namespace AgentDb
namespace Cloud

open Commits Fencing

/-! ### Reasons -/

/-- Why a worker may mark a lease: the provider has revoked the credential or does not have it, or
the lease ends by itself and has expired. What it knows of a lease that it has claimed is still
so. -/
structure Justified (c : Control) (worker : ℕ) (w : Worker) (row : LeaseCleanupRow) (l : Lease) :
    Prop where
  reason : (∃ request answer, (answer = .revoked ∨ answer = .notFound) ∧
      leaseAction (w.integration row.integrationId) w.now row = .call request ∧
        ⟨worker, row.id, request, answer⟩ ∈ c.answers) ∨
    NeedsNoRevocation row.provider row.credentialKind ∧ row.expiresAt ≤ w.now ∧ w.now ≤ c.now
  agrees : row.cleanupClaim ≠ none → l.AgreesWith c.now row

/-- What a step does to the leases it finds. -/
structure StepSafe (event : Event) (c c' : Control) : Prop where
  attempts : ∀ id l l', c.leases.get id = some l → c'.leases.get id = some l' →
    l'.cleanupAttempts =
      if id ∈ (event.claimed c).map Prod.fst then l.cleanupAttempts + 1 else l.cleanupAttempts
  overtaken : ∀ id l worker attempt t, c.leases.get id = some l → c.holds id worker attempt t →
    attempt < l.cleanupAttempts → event.worker = some worker → c'.leases.get id = some l
  marked : ∀ id l l', c.leases.get id = some l → c'.leases.get id = some l' →
    l.revokedAt = none → l'.revokedAt ≠ none →
      (∃ lease, event = .written id lease) ∨
        ∃ worker w row, event.worker = some worker ∧ c.workers.get worker = some w ∧
          w.rows.head? = some row ∧ row.id = id ∧ Justified c worker w row l

/-- What holds in a state, whatever happens next. -/
structure CleanupSafe (c : Control) : Prop where
  one : ∀ id l worker worker' attempt attempt' t t', c.leases.get id = some l →
    c.holds id worker attempt t → c.holds id worker' attempt' t' →
      ¬ Stale t c.now → ¬ Stale t' c.now → worker = worker'
  step : ∀ event c', event.apply c = .ok c' → StepSafe event c c'
  claimable : ∀ id l, c.leases.get id = some l → l.revokedAt = none → l.expiresAt ≤ c.now →
    (∃ t, l.cleanupClaimedAt = some t ∧ t ≤ c.now ∧ ¬ Stale t c.now ∧
      ∀ T, t + cleanupClaimStaleMs < T → (id, l) ∈ Control.ranked { c with now := T } none) ∨
    ∃ t, t ≤ c.now + cleanupRetryMaxMs ∧
      ∀ T, t ≤ T → c.now ≤ T → (id, l) ∈ Control.ranked { c with now := T } none
  claimed : ∀ integrationId limit locked, ∀ r ∈ c.ranked integrationId, r.1 ∉ locked →
    (c.candidates integrationId limit locked).length < limit →
      r ∈ c.candidates integrationId limit locked

section

variable {c c' : Control} {id : Uuid} {l l' : Lease}

/-! ### A state -/

theorem LeaseOk.claimable (hlok : LeaseOk c id l) (hget : c.leases.get id = some l)
    (hopen : l.revokedAt = none) (hexpired : l.expiresAt ≤ c.now) :
    (∃ t, l.cleanupClaimedAt = some t ∧ t ≤ c.now ∧ ¬ Stale t c.now ∧
      ∀ T, t + cleanupClaimStaleMs < T → (id, l) ∈ Control.ranked { c with now := T } none) ∨
    ∃ t, t ≤ c.now + cleanupRetryMaxMs ∧
      ∀ T, t ≤ T → c.now ≤ T → (id, l) ∈ Control.ranked { c with now := T } none := by
  have hranked : ∀ T, l.due T → (id, l) ∈ Control.ranked { c with now := T } none :=
    fun T hdue => mem_ranked.2 ⟨hget, hlok.connected, hdue, rfl⟩
  have hstale : (0 : ℤ) ≤ cleanupClaimStaleMs := by decide
  have hmax : (0 : ℤ) ≤ cleanupRetryMaxMs := by decide
  cases hclaimed : l.cleanupClaimedAt with
  | none =>
      -- The lease waits for its next attempt, if for anything.
      refine .inr ⟨l.cleanupNextAttemptAt.getD c.now, ?_, fun T hT hnow => hranked T ?_⟩
      · cases hnext : l.cleanupNextAttemptAt with
        | none => exact le_add_of_nonneg_right hmax
        | some t => exact hlok.timely.next t hnext
      · refine due_iff.2 ⟨hopen, hexpired.trans hnow, fun t ht => ?_, fun t ht => ?_⟩
        · rw [ht] at hT
          exact hT
        · rw [hclaimed] at ht
          cases ht
  | some t =>
      have hbefore := hlok.timely.claimed t hclaimed
      have hdue : ∀ T, Stale t T → c.now ≤ T → l.due T := fun T hT hnow => by
        refine due_iff.2 ⟨hopen, hexpired.trans hnow, fun t' ht' => ?_, fun t' ht' => ?_⟩
        · exact ((hlok.timely.claimedAfter t t' hclaimed ht').trans hbefore).trans hnow
        · rw [hclaimed] at ht'
          exact Option.some.inj ht' ▸ hT
      by_cases hfresh : Stale t c.now
      · exact .inr ⟨c.now, le_add_of_nonneg_right hmax,
          fun T _ hnow => hranked T (hdue T (hfresh.later hnow) hnow)⟩
      · refine .inl ⟨t, rfl, hbefore, hfresh, fun T hT => hranked T (hdue T ?_ ?_)⟩
        · exact lt_sub_iff_add_lt.2 hT
        · exact (sub_le_iff_le_add.1 (not_lt.1 hfresh)).trans hT.le

/-- A claim that takes fewer leases than it may takes every one. -/
theorem mem_candidates {integrationId : Option Uuid} {limit : ℕ} {locked : List Uuid}
    {r : Uuid × Lease} (hr : r ∈ c.ranked integrationId) (hlocked : r.1 ∉ locked)
    (hlimit : (c.candidates integrationId limit locked).length < limit) :
    r ∈ c.candidates integrationId limit locked := by
  unfold Control.candidates at hlimit ⊢
  rw [List.length_take] at hlimit
  rw [List.take_of_length_le (by omega)]
  exact List.mem_filter.2
    ⟨(List.perm_insertionSort _ _).symm.subset hr, decide_eq_true hlocked⟩

/-! ### A step -/

/-- The worker has come to the lease that it changes. -/
theorem Turn.changes {worker : ℕ} {w : Worker} {row : LeaseCleanupRow}
    {rest : List LeaseCleanupRow} (h : Turn c c' worker w row rest)
    (hget : c.leases.get id = some l) : c'.leases.get id = some l ∨
      row.id = id ∧ ∃ l', c'.leases.get id = some l' ∧
        l'.cleanupAttempts = l.cleanupAttempts ∧
        (∀ attempt, row.cleanupClaim = some attempt → l.cleanupAttempts = attempt) ∧
        (l'.revokedAt = l.revokedAt ∨ ∃ why, w.stage = .marking why) := by
  cases h.effect with
  | none hleases => exact .inl (hleases ▸ hget)
  | marked l₀ why readAt hget₀ hopen hclaim hstage hleases =>
      by_cases hid : id = row.id
      · subst hid
        obtain rfl := Option.some.inj (hget.symm.trans hget₀)
        have hget' := (congrArg (·.get row.id) hleases).trans (Table.get_put_self _ _ _)
        exact .inr ⟨rfl, _, hget', rfl, hclaim, .inr ⟨why, hstage⟩⟩
      · rw [hleases, Table.get_put_of_ne _ _ hid]
        exact .inl hget
  | scheduled l₀ readAt hget₀ hread hclaim hgone hleases =>
      by_cases hid : id = row.id
      · subst hid
        obtain rfl := Option.some.inj (hget.symm.trans hget₀)
        have hget' := (congrArg (·.get row.id) hleases).trans (Table.get_put_self _ _ _)
        exact .inr ⟨rfl, _, hget', rfl,
          fun attempt hattempt => Option.some.inj (hclaim.symm.trans hattempt), .inl rfl⟩
      · rw [hleases, Table.get_put_of_ne _ _ hid]
        exact .inl hget

/-- A worker has a reason for every lease that it is about to mark. -/
theorem justified_of_marking (hok : ControlOk c) {worker : ℕ} {w : Worker}
    {row : LeaseCleanupRow} {rest : List LeaseCleanupRow} (hw : c.workers.get worker = some w)
    (hrows : w.rows = row :: rest) {why : Why} (hstage : w.stage = .marking why)
    (hget : c.leases.get row.id = some l) : Justified c worker w row l where
  reason := by
    have hwok := hok.workers worker w hw
    have hevidence := hwok.evidence row rest hrows
    rw [hstage] at hevidence
    cases why with
    | expired =>
        obtain ⟨hkind, hexpired⟩ := needsNoRevocation_of_retire hevidence
        exact .inr ⟨hkind, hexpired, hwok.read⟩
    | answered answer =>
        obtain ⟨hanswer, request, haction, hmem⟩ := hevidence
        refine .inl ⟨request, answer, ?_, haction, hmem⟩
        cases answer with
        | revoked => exact .inl rfl
        | notFound => exact .inr rfl
        | failed => exact absurd rfl hanswer
  agrees hclaim := (hok.leases row.id l hget).agrees worker w row hw
    (hrows ▸ List.mem_cons_self) rfl hclaim

theorem Turn.stepSafe {event : Event} {worker : ℕ} {w : Worker} {row : LeaseCleanupRow}
    {rest : List LeaseCleanupRow} (h : Turn c c' worker w row rest) (hok : ControlOk c)
    (hworker : event.worker = some worker) (hclaimed : event.claimed c = []) :
    StepSafe event c c' where
  attempts id l l' hget hget' := by
    rw [hclaimed, List.map_nil, if_neg List.not_mem_nil]
    obtain hsame | ⟨-, l₁, hget₁, hattempts, -⟩ := h.changes hget
    · rw [Option.some.inj (hget'.symm.trans hsame)]
    · rw [Option.some.inj (hget'.symm.trans hget₁)]
      exact hattempts
  overtaken id l k attempt t hget hholds hlt hk := by
    obtain rfl := Option.some.inj (hworker.symm.trans hk)
    obtain hsame | ⟨hid, l₁, -, -, hclaim, -⟩ := h.changes hget
    · exact hsame
    -- The row it has claimed is the one it has come to.
    obtain ⟨w', row', hw', hrow', hid', hclaim', -⟩ := hholds
    obtain rfl := Option.some.inj (hw'.symm.trans h.get)
    have hdistinct := (hok.workers worker w' hw').distinct
    rw [h.rows] at hrow'
    rw [h.rows, List.map_cons, List.nodup_cons] at hdistinct
    obtain rfl | hrest := List.mem_cons.1 hrow'
    · exact absurd (hclaim attempt hclaim') hlt.ne'
    · exact absurd (List.mem_map.2 ⟨row', hrest, hid'.trans hid.symm⟩) hdistinct.1
  marked id l l' hget hget' hopen hrevoked := by
    obtain hsame | ⟨hid, l₁, hget₁, -, -, hstage⟩ := h.changes hget
    · rw [Option.some.inj (hget'.symm.trans hsame)] at hrevoked
      exact absurd hopen hrevoked
    · rw [Option.some.inj (hget'.symm.trans hget₁)] at hrevoked
      obtain hsame | ⟨why, hstage⟩ := hstage
      · exact absurd (hsame.trans hopen) hrevoked
      · subst hid
        exact .inr ⟨worker, w, row, hworker, h.get, by rw [h.rows, List.head?_cons], rfl,
          justified_of_marking hok h.get h.rows hstage hget⟩

/-- A step that is not one of a worker on a lease. -/
theorem stepSafe_of_attempts {event : Event}
    (hattempts : ∀ id l l', c.leases.get id = some l → c'.leases.get id = some l' →
      l'.cleanupAttempts = if id ∈ (event.claimed c).map Prod.fst then l.cleanupAttempts + 1
        else l.cleanupAttempts)
    (hworker : ∀ worker, event.worker = some worker → c'.leases = c.leases)
    (hrevoked : ∀ id l l', c.leases.get id = some l → c'.leases.get id = some l' →
      l.revokedAt = none → l'.revokedAt ≠ none → ∃ lease, event = .written id lease) :
    StepSafe event c c' where
  attempts := hattempts
  overtaken _ _ worker _ _ hget _ _ hevent := (hworker worker hevent) ▸ hget
  marked id l l' hget hget' hopen hrevoked' :=
    .inl (hrevoked id l l' hget hget' hopen hrevoked')

/-- A step that leaves every lease it does not delete. -/
theorem stepSafe_of_same {event : Event} (hclaimed : event.claimed c = [])
    (hsame : ∀ id l', c'.leases.get id = some l' → c.leases.get id = some l')
    (hworker : ∀ worker, event.worker = some worker → c'.leases = c.leases) :
    StepSafe event c c' := by
  refine stepSafe_of_attempts (fun id l l' hget hget' => ?_) hworker
    fun id l l' hget hget' hopen hrevoked => ?_
  · rw [hclaimed, List.map_nil, if_neg List.not_mem_nil]
    rw [Option.some.inj ((hsame id l' hget').symm.trans hget)]
  · rw [Option.some.inj ((hsame id l' hget').symm.trans hget)] at hrevoked
    exact absurd hopen hrevoked

theorem written_stepSafe {lease : Lease} (h : Event.apply (.written id lease) c = .ok c') :
    StepSafe (.written id lease) c c' := by
  obtain ⟨_, -, h⟩ := Except.bind_eq_ok.1 h
  have hput : c' = { c with leases := c.leases.put id lease } ∧
      ∀ old, c.leases.get id = some old → old.KeepsCleanup c.now lease := by
    split at h
    · rename_i hnone
      obtain ⟨_, -, h⟩ := Except.bind_eq_ok.1 h
      cases h
      exact ⟨rfl, fun old hold => by rw [hnone] at hold; cases hold⟩
    · rename_i old hold
      obtain ⟨_, hkeeps, h⟩ := Except.bind_eq_ok.1 h
      cases h
      refine ⟨rfl, fun old' hold' => ?_⟩
      rw [Option.some.inj (hold'.symm.trans hold)]
      exact not_not.1 (refuseIf_eq_ok.1 hkeeps)
  obtain ⟨rfl, hkeeps⟩ := hput
  refine stepSafe_of_attempts (fun id' l l' hget hget' => ?_) (fun _ hworker => by cases hworker)
    fun id' l l' hget hget' hopen hrevoked => ?_
  · have hclaimed : (Event.written id lease).claimed c = [] := rfl
    rw [hclaimed, List.map_nil, if_neg List.not_mem_nil]
    dsimp only at hget'
    rw [Table.get_put] at hget'
    split at hget'
    · subst id'
      rw [← Option.some.inj hget']
      exact (hkeeps l hget).1
    · rw [Option.some.inj (hget'.symm.trans hget)]
  · dsimp only at hget'
    rw [Table.get_put] at hget'
    split at hget'
    · subst id'
      exact ⟨lease, rfl⟩
    · rw [Option.some.inj (hget'.symm.trans hget)] at hrevoked
      exact absurd hopen hrevoked

theorem stepSafe_apply {event : Event} (hok : ControlOk c) (h : event.apply c = .ok c') :
    StepSafe event c c' := by
  cases event with
  | tick now =>
      obtain ⟨_, -, h⟩ := Except.bind_eq_ok.1 h
      cases h
      exact stepSafe_of_same rfl (fun _ _ h => h) fun _ _ => rfl
  | written id lease => exact written_stepSafe h
  | deleted id =>
      cases h
      refine stepSafe_of_same rfl (fun id' l' hget => ?_) fun _ hworker => by cases hworker
      dsimp only at hget
      rw [Table.get_filterRows_ne] at hget
      split at hget
      · cases hget
      · exact hget
  | authority connections integrations =>
      obtain ⟨_, -, h⟩ := Except.bind_eq_ok.1 h
      cases h
      exact stepSafe_of_same rfl (fun _ _ h => h) fun _ _ => rfl
  | cleanupExpiredManagedLeases integrationId limit locked =>
      obtain ⟨_, -, h⟩ := Except.bind_eq_ok.1 h
      cases h
      have hleases : ∀ id l l', c.leases.get id = some l →
          (c.claimExpiredManagedLeases integrationId limit locked).leases.get id = some l' →
          l' = if id ∈ (c.candidates integrationId limit locked).map Prod.fst then
            { l with
              cleanupClaimedAt := some c.now
              cleanupAttempts := l.cleanupAttempts + 1 } else l := fun id l l' hget hget' => by
        rw [Control.claimExpiredManagedLeases, (begin_eq _ _).2.1, Control.claimLeases,
          Table.get_mapRows, hget, Option.map_some] at hget'
        exact (Option.some.inj hget').symm
      refine stepSafe_of_attempts (fun id l l' hget hget' => ?_)
        (fun _ hworker => by cases hworker) fun id l l' hget hget' hopen hrevoked => ?_
      · rw [hleases id l l' hget hget', Event.claimed]
        split <;> rfl
      · rw [hleases id l l' hget hget'] at hrevoked
        split at hrevoked <;> exact absurd hopen hrevoked
  | revokeActiveLeases filter =>
      cases h
      refine stepSafe_of_same rfl (fun id l' hget => ?_) fun _ hworker => by cases hworker
      rwa [Control.revokeActiveLeases, (begin_eq _ _).2.1] at hget
  | crash worker =>
      cases h
      exact stepSafe_of_same rfl (fun _ _ h => h) fun _ _ => rfl
  | selectIntegrations worker | examine worker | answer worker _ | mark worker _ _
  | schedule worker _ _ =>
      obtain ⟨w, row, rest, hturn⟩ := turn_of_apply hok rfl (fun _ heq => by cases heq) h
      exact hturn.stepSafe hok rfl rfl

theorem cleanupSafe_of_controlOk (hok : ControlOk c) : CleanupSafe c where
  one id l worker worker' attempt attempt' t t' hget hw hw' hfresh hfresh' := by
    by_contra hne
    obtain ⟨-, hstale | hstale⟩ := (hok.leases id l hget).fenced.one worker worker' attempt
      attempt' t t' hw hw' hne
    · exact hfresh hstale
    · exact hfresh' hstale
  step event c' h := stepSafe_apply hok h
  claimable id l hget hopen hexpired := (hok.leases id l hget).claimable hget hopen hexpired
  claimed _ _ _ _ hr hlocked hlimit := mem_candidates hr hlocked hlimit

end

/-! ### Runs -/

/-- Nothing has been cleaned up yet. -/
structure Control.Idle (c : Control) : Prop where
  workers : c.workers = .empty
  leases : ∀ id l, c.leases.get id = some l → l.Untouched
  connected : ∀ id l, c.leases.get id = some l → (c.connections.get l.connectionId).isSome

theorem Control.Idle.controlOk {c : Control} (hc : c.Idle) : ControlOk c where
  leases id l hget := by
    refine leaseOk_of_untouched (hc.leases id l hget) (hc.connected id l hget)
      fun worker w _ hw => ?_
    rw [hc.workers, Table.get_empty] at hw
    cases hw
  workers worker w hw := by
    rw [hc.workers, Table.get_empty] at hw
    cases hw

/-- Whatever the workers, the other requests and the clock have done, in any order. -/
theorem cleanup_run {c : Control} (hc : c.Idle) (events : List Event) :
    CleanupSafe (run Event.apply events c) := by
  refine cleanupSafe_of_controlOk (run_invariant (I := ControlOk) ?_
    (along_true events c) hc.controlOk)
  intro event c c' _ hok h
  exact controlOk_apply hok h

/-! A lease of which the first worker stalls, and a second one takes over. -/

def sampleLease : Lease where
  organizationId := "org"
  connectionId := .ofByte 1
  integrationId := .ofByte 2
  userId := "user"
  provider := "planetScale"
  externalCredentialId := "credential"
  externalCredentialKind := "role"
  expiresAt := 0
  revokedAt := none
  cleanupAttempts := 0
  cleanupNextAttemptAt := none
  cleanupClaimedAt := none

def sampleControl : Control where
  now := 0
  leases := Table.empty.put (.ofByte 3) sampleLease
  connections := Table.empty.put (.ofByte 1) ⟨"org", some (.ofByte 2)⟩
  integrations := Table.empty.put (.ofByte 2) ⟨"org", "planetScale", "active", none⟩
  workers := .empty
  started := 0
  answers := []

def sampleEvents : List Event :=
  [.cleanupExpiredManagedLeases none 20 [], .selectIntegrations 0, .examine 0, .tick 120001,
    .cleanupExpiredManagedLeases none 20 [], .answer 0 .failed, .schedule 0 120001 none,
    .selectIntegrations 1, .examine 1, .answer 1 .revoked, .mark 1 120001 none]

theorem sampleControl_idle : sampleControl.Idle := by
  have hlease : ∀ id l, sampleControl.leases.get id = some l → l = sampleLease :=
    fun id l hget => by
      rw [sampleControl, Table.get_put] at hget
      split at hget
      · exact (Option.some.inj hget).symm
      · rw [Table.get_empty] at hget
        cases hget
  refine ⟨rfl, fun id l hget => ?_, fun id l hget => ?_⟩
  · rw [hlease id l hget]
    decide
  · rw [hlease id l hget]
    decide

theorem cleanup_taken_over :
    ((run Event.apply sampleEvents sampleControl).leases.get (.ofByte 3)).map
      (fun l => (l.cleanupAttempts, l.revokedAt)) = some (2, some 120001) ∧
    CleanupSafe (run Event.apply sampleEvents sampleControl) :=
  ⟨by decide +kernel, cleanup_run sampleControl_idle sampleEvents⟩

end Cloud
end AgentDb
