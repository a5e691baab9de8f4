import AgentDb.Cloud.LeaseCleanupStep

/-!
# Every interleaving of cleanup workers

Every event keeps `ControlOk`, and so it holds in every state that a run reaches. From it follows
what the cleanup is for: the claims on a lease are fenced, a lease is marked for a reason, and no
lease is left out for good.
-/

namespace AgentDb
namespace Cloud

open Commits Fencing

/-! ### What keeps a lease -/

section

variable {c c' : Control} {id : Uuid} {l l' : Lease}

theorem Stale.later {t now now' : Millis} (h : Stale t now) (hnow : now ≤ now') :
    Stale t now' :=
  lt_of_lt_of_le h (Int.sub_le_sub_right hnow _)

/-- Every claim of a worker on the lease is one it had. -/
def ClaimsFrom (id : Uuid) (c c' : Control) : Prop :=
  ∀ worker w' row, c'.workers.get worker = some w' → row ∈ w'.rows → row.id = id →
    row.cleanupClaim ≠ none →
    ∃ w, c.workers.get worker = some w ∧ row ∈ w.rows ∧ w.claimedAt = w'.claimedAt

theorem claimsFrom_of_workers (h : c'.workers = c.workers) : ClaimsFrom id c c' :=
  fun _ w' _ hw' hrow _ _ => ⟨w', h ▸ hw', hrow, rfl⟩

theorem ClaimsFrom.holds (h : ClaimsFrom id c c') :
    ∀ worker attempt t, c'.holds id worker attempt t → c.holds id worker attempt t := by
  rintro worker attempt t ⟨w', row, hw', hrow, hid, hclaim, rfl⟩
  obtain ⟨w, hw, hmem, ht⟩ := h worker w' row hw' hrow hid (by simp [hclaim])
  exact ⟨w, row, hw, hmem, hid, hclaim, ht⟩

/-- A change of a lease that is not a new claim, and gives no claim back. -/
structure Keeps (now : Millis) (l l' : Lease) : Prop where
  attempts : l'.cleanupAttempts = l.cleanupAttempts
  claimed : ∀ t, l.revokedAt ≠ none ∨ l.cleanupClaimedAt = some t →
    l'.revokedAt ≠ none ∨ l'.cleanupClaimedAt = some t
  claimedAt : ∀ t, l'.cleanupClaimedAt = some t → l.cleanupClaimedAt = some t
  nextAttemptAt : ∀ t, l'.cleanupNextAttemptAt = some t → l.cleanupNextAttemptAt = some t
  expired : l.expiresAt ≤ now → l'.expiresAt ≤ now ∧ l'.provider = l.provider ∧
    l'.externalCredentialKind = l.externalCredentialKind ∧
    l'.externalCredentialId = l.externalCredentialId

theorem Keeps.refl (now : Millis) (l : Lease) : Keeps now l l :=
  ⟨rfl, fun _ h => h, fun _ h => h, fun _ h => h, fun h => ⟨h, rfl, rfl, rfl⟩⟩

theorem Lease.KeepsCleanup.keeps {now : Millis} (h : l.KeepsCleanup now l') : Keeps now l l' := by
  obtain ⟨hattempts, hclaimed, hnext, hrevoked, hexpired⟩ := h
  exact ⟨hattempts, fun t => Or.imp hrevoked (hclaimed.trans), fun t ht => hclaimed ▸ ht,
    fun t ht => hnext ▸ ht, hexpired⟩

theorem LeaseOk.keep (hok : LeaseOk c id l) (hkeeps : Keeps c.now l l') (hnow : c.now ≤ c'.now)
    (hclaims : ClaimsFrom id c c') (hconnected : (c'.connections.get l'.connectionId).isSome) :
    LeaseOk c' id l' where
  fenced := ((hok.fenced.later fun _ h => h.later hnow).drop hclaims.holds).keep hkeeps.attempts
    hkeeps.claimed
  timely :=
    { claimed := fun t ht => (hok.timely.claimed t (hkeeps.claimedAt t ht)).trans hnow
      next := fun t ht => (hok.timely.next t (hkeeps.nextAttemptAt t ht)).trans
        (Int.add_le_add_right hnow _)
      claimedAfter := fun t t' ht ht' =>
        hok.timely.claimedAfter t t' (hkeeps.claimedAt t ht) (hkeeps.nextAttemptAt t' ht') }
  connected := hconnected
  agrees worker w' row hw' hrow hid hclaim := by
    obtain ⟨w, hw, hmem, -⟩ := hclaims worker w' row hw' hrow hid hclaim
    obtain ⟨hexpired, hprovider, hkind, hcredential⟩ := hok.agrees worker w row hw hmem hid hclaim
    obtain ⟨hexpired', hprovider', hkind', hcredential'⟩ := hkeeps.expired hexpired
    exact ⟨hexpired'.trans hnow, hprovider'.trans hprovider, hkind'.trans hkind,
      hcredential'.trans hcredential⟩

theorem WorkerOk.later {worker : ℕ} {w : Worker} (hok : WorkerOk c worker w)
    (hnow : c.now ≤ c'.now) (hstarted : c.started ≤ c'.started)
    (hanswers : c.answers ⊆ c'.answers) : WorkerOk c' worker w where
  numbered := hok.numbered.trans_le hstarted
  distinct := hok.distinct
  read := hok.read.trans hnow
  evidence row rest hrows := (hok.evidence row rest hrows).mono hanswers

end

/-! ### A step of a worker -/

section

variable {c c' : Control} {worker : ℕ} {w : Worker} {row : LeaseCleanupRow}
  {rest : List LeaseCleanupRow} {id : Uuid} {l : Lease}

theorem Moved.claimsFrom (h : Moved c c' worker w rest) (hget : c.workers.get worker = some w)
    (hrows : w.rows = row :: rest) : ClaimsFrom id c c' := by
  intro k w' row' hw' hrow _ _
  by_cases hk : k = worker
  · subst hk
    obtain ⟨hsame | hrest, hclaimed, -⟩ := h.mine w' hw'
    · exact ⟨w, hget, hsame ▸ hrow, hclaimed.symm⟩
    · refine ⟨w, hget, ?_, hclaimed.symm⟩
      rw [hrest] at hrow
      rw [hrows]
      exact List.mem_cons_of_mem row hrow
  · exact ⟨w', (h.other k hk).symm.trans hw', hrow, rfl⟩

theorem Moved.workers (h : Moved c c' worker w rest) (hok : ControlOk c)
    (hget : c.workers.get worker = some w) (hrows : w.rows = row :: rest) :
    ∀ k w', c'.workers.get k = some w' → WorkerOk c' k w' := by
  intro k w' hw'
  by_cases hk : k = worker
  · subst hk
    have hwok := hok.workers k w hget
    obtain ⟨hmine, -, hread, hevidence⟩ := h.mine w' hw'
    refine ⟨h.started ▸ hwok.numbered, ?_, h.now ▸ hread, hevidence⟩
    obtain hsame | hrest := hmine
    · exact hsame ▸ hwok.distinct
    · have hdistinct := hwok.distinct
      rw [hrows] at hdistinct
      exact hrest ▸ (List.nodup_cons.1 hdistinct).2
  · exact (hok.workers k w' ((h.other k hk).symm.trans hw')).later h.now.ge h.started.ge h.answers

/-- The worker that has come to the lease is the one whose number the lease has. -/
theorem LeaseOk.scheduled (hok : LeaseOk c row.id l) (hwok : WorkerOk c worker w)
    (hget : c.workers.get worker = some w) (hrows : w.rows = row :: rest)
    (hmoved : Moved c c' worker w rest)
    (hgone : ∀ w', c'.workers.get worker = some w' → w'.rows = rest)
    (hclaim : row.cleanupClaim = some l.cleanupAttempts) {readAt : Millis}
    (hread : readAt ≤ c.now) : LeaseOk c' row.id { l with
      cleanupClaimedAt := none
      cleanupNextAttemptAt :=
        some (readAt + managedLeaseCleanupRetryDelayMs l.cleanupAttempts) } where
  fenced := by
    have hclaims : ClaimsFrom row.id c c' := hmoved.claimsFrom hget hrows
    have hmem : row ∈ w.rows := hrows ▸ List.mem_cons_self
    rw [hmoved.now]
    refine hok.fenced.release (w := worker) ⟨w, row, hget, hmem, rfl, hclaim, rfl⟩ hclaims.holds
      ?_ rfl
    rintro a t ⟨w', row', hw', hrow', hid, -⟩
    -- The worker has gone on, and has no other row of the lease.
    have hdistinct := hwok.distinct
    rw [hrows, List.map_cons, List.nodup_cons] at hdistinct
    rw [hgone w' hw'] at hrow'
    exact hdistinct.1 (List.mem_map.2 ⟨row', hrow', hid⟩)
  timely :=
    { claimed := fun t ht => by cases ht
      next := fun t ht => by
        have hdelay := managedLeaseCleanupRetryDelayMs_le l.cleanupAttempts
        rw [← Option.some.inj ht, hmoved.now]
        exact add_le_add hread hdelay
      claimedAfter := fun t t' ht => by cases ht }
  connected := hmoved.connections ▸ hok.connected
  agrees k w' row' hw' hrow' hid hclaim' := by
    obtain ⟨w₀, hw₀, hmem, -⟩ := hmoved.claimsFrom hget hrows k w' row' hw' hrow' hid hclaim'
    exact hmoved.now ▸ hok.agrees k w₀ row' hw₀ hmem hid hclaim'

/-- What a step of a worker does to a lease. -/
theorem Turn.lease (h : Turn c c' worker w row rest) {l' : Lease}
    (hget' : c'.leases.get id = some l') : ∃ l, c.leases.get id = some l ∧
      (Keeps c.now l l' ∧ l'.connectionId = l.connectionId ∨
        row.id = id ∧ ∃ readAt, readAt ≤ c.now ∧ row.cleanupClaim = some l.cleanupAttempts ∧
          (∀ w', c'.workers.get worker = some w' → w'.rows = rest) ∧
          l' = { l with
            cleanupClaimedAt := none
            cleanupNextAttemptAt :=
              some (readAt + managedLeaseCleanupRetryDelayMs l.cleanupAttempts) }) := by
  cases h.effect with
  | none hleases =>
      rw [hleases] at hget'
      exact ⟨l', hget', .inl ⟨.refl _ _, rfl⟩⟩
  | marked l why readAt hget hopen hclaim hstage hleases =>
      rw [hleases, Table.get_put] at hget'
      split at hget'
      · rename_i hid
        obtain rfl := Option.some.inj hget'
        refine ⟨l, hid ▸ hget, .inl ⟨⟨rfl, fun _ _ => .inl (by simp), fun t ht => ?_,
          fun t ht => ?_, fun hexpired => ⟨hexpired, rfl, rfl, rfl⟩⟩, rfl⟩⟩ <;> cases ht
      · exact ⟨l', hget', .inl ⟨.refl _ _, rfl⟩⟩
  | scheduled l readAt hget hread hclaim hgone hleases =>
      rw [hleases, Table.get_put] at hget'
      split at hget'
      · rename_i hid
        exact ⟨l, hid ▸ hget, .inr ⟨hid.symm, readAt, hread, hclaim, hgone,
          (Option.some.inj hget').symm⟩⟩
      · exact ⟨l', hget', .inl ⟨.refl _ _, rfl⟩⟩

theorem Turn.controlOk (h : Turn c c' worker w row rest) (hok : ControlOk c) : ControlOk c' where
  leases id l' hget' := by
    obtain ⟨l, hget, ⟨hkeeps, hconnection⟩ | ⟨rfl, readAt, hread, hclaim, hgone, rfl⟩⟩ :=
      h.lease hget'
    · have hlok := hok.leases id l hget
      refine hlok.keep hkeeps h.moved.now.ge (h.moved.claimsFrom h.get h.rows) ?_
      rw [h.moved.connections, hconnection]
      exact hlok.connected
    · exact (hok.leases row.id l hget).scheduled (hok.workers worker w h.get) h.get h.rows h.moved
        hgone hclaim hread
  workers := h.moved.workers hok h.get h.rows

end

/-! ### A worker starts -/

section

variable {c : Control} {id : Uuid} {l : Lease}

theorem cleanupRow_eq_some {r : Uuid × Lease} {claim : Option ℕ} {row : LeaseCleanupRow}
    (h : c.cleanupRow r claim = some row) : row.id = r.1 ∧ row.cleanupClaim = claim ∧
      row.provider = r.2.provider ∧ row.credentialKind = r.2.externalCredentialKind ∧
      row.credentialId = r.2.externalCredentialId := by
  obtain ⟨connection, -, rfl⟩ := Option.map_eq_some_iff.1 h
  exact ⟨rfl, rfl, rfl, rfl, rfl⟩

theorem nodup_cleanupRows {rs : List (Uuid × Lease)} (h : (rs.map Prod.fst).Nodup)
    (claim : Uuid × Lease → Option ℕ) :
    ((rs.filterMap fun r => c.cleanupRow r (claim r)).map (·.id)).Nodup := by
  refine List.Nodup.sublist ?_ h
  induction rs with
  | nil => exact .slnil
  | cons r rs ih =>
      have ih := ih (List.nodup_cons.1 h).2
      rw [List.filterMap_cons, List.map_cons]
      cases hrow : c.cleanupRow r (claim r) with
      | none => exact ih.cons _
      | some row =>
          rw [List.map_cons, (cleanupRow_eq_some hrow).1]
          exact ih.cons_cons _

/-- The candidates are leases that may be claimed, no lease twice. -/
theorem candidates_spec (c : Control) (integrationId : Option Uuid) (limit : ℕ)
    (locked : List Uuid) :
    ((c.candidates integrationId limit locked).map Prod.fst).Nodup ∧
      ∀ r ∈ c.candidates integrationId limit locked, r ∈ c.ranked integrationId := by
  have hperm := (c.ranked integrationId).perm_insertionSort
    fun a b => (claimOrder (c.ranked integrationId) a b).isLE
  have hsub := (List.take_sublist limit _).trans (List.filter_sublist (p := fun r : Uuid × Lease =>
    decide (r.1 ∉ locked)) (l := (c.ranked integrationId).insertionSort
    fun a b => (claimOrder (c.ranked integrationId) a b).isLE))
  refine ⟨(hsub.map Prod.fst).nodup ((hperm.map Prod.fst).nodup_iff.2 ?_),
    fun r hr => hperm.subset (hsub.subset hr)⟩
  exact (List.filter_sublist.map Prod.fst).nodup c.leases.nodup

theorem mem_ranked {integrationId : Option Uuid} {r : Uuid × Lease} :
    r ∈ c.ranked integrationId ↔ c.leases.get r.1 = some r.2 ∧
      (c.connections.get r.2.connectionId).isSome ∧ r.2.due c.now ∧
      integrationId.all (· = r.2.integrationId) := by
  unfold Control.ranked
  rw [List.mem_filter, decide_eq_true_iff, ← Table.mem_rows_iff]

/-- The other workers stay as they are, and the new one has the rows. -/
theorem get_begin (leases : Table Uuid Lease) (hok : ControlOk c) {rows : List LeaseCleanupRow}
    {worker : ℕ} {w : Worker}
    (hw : (Control.begin_ { c with leases } rows).workers.get worker = some w) :
    worker ≠ c.started ∧ c.workers.get worker = some w ∨
      worker = c.started ∧ w = .start rows c.now := by
  unfold Control.begin_ at hw
  split at hw
  · refine .inl ⟨?_, hw⟩
    exact ((hok.workers worker w hw).numbered).ne
  · dsimp only at hw
    rw [Table.get_put] at hw
    split at hw
    · exact .inr ⟨‹_›, (Option.some.inj hw).symm⟩
    · exact .inl ⟨‹_›, hw⟩

theorem begin_eq (c : Control) (rows : List LeaseCleanupRow) :
    (c.begin_ rows).now = c.now ∧ (c.begin_ rows).leases = c.leases ∧
      (c.begin_ rows).connections = c.connections ∧ c.started ≤ (c.begin_ rows).started ∧
      c.answers ⊆ (c.begin_ rows).answers := by
  unfold Control.begin_
  split <;> simp

theorem workers_begin (leases : Table Uuid Lease) (hok : ControlOk c)
    {rows : List LeaseCleanupRow} (hnodup : (rows.map (·.id)).Nodup) {worker : ℕ} {w : Worker}
    (hw : (Control.begin_ { c with leases } rows).workers.get worker = some w) :
    WorkerOk (Control.begin_ { c with leases } rows) worker w := by
  obtain ⟨hnow, -, -, hstarted, hanswers⟩ := begin_eq { c with leases } rows
  obtain ⟨-, hold⟩ | ⟨rfl, rfl⟩ := get_begin _ hok hw
  · exact (hok.workers worker w hold).later hnow.ge hstarted hanswers
  · refine ⟨?_, hnodup, hnow.ge, fun _ _ _ => trivial⟩
    unfold Control.begin_ at hw ⊢
    split at hw
    · exact absurd rfl (hok.workers _ _ hw).numbered.ne
    · rw [if_neg ‹_›]
      exact Nat.lt_succ_self _

theorem revokeActiveLeases_controlOk (hok : ControlOk c) (filter : LeaseRevocationFilter) :
    ControlOk (c.revokeActiveLeases filter) := by
  obtain ⟨hnow, hleases, hconnections, -, -⟩ := begin_eq c
    ((c.activeLeases filter).filterMap fun r => c.cleanupRow r none)
  refine ⟨fun id l hget => ?_, fun worker w hw => workers_begin c.leases hok ?_ hw⟩
  · rw [Control.revokeActiveLeases, hleases] at hget
    have hlok := hok.leases id l hget
    refine hlok.keep (.refl _ _) hnow.ge (fun worker w' row hw' hrow _ hclaim => ?_)
      (hconnections ▸ hlok.connected)
    obtain ⟨-, hold⟩ | ⟨rfl, rfl⟩ := get_begin c.leases hok hw'
    · exact ⟨w', hold, hrow, rfl⟩
    · -- The new worker has no claims.
      obtain ⟨r, -, hr⟩ := List.mem_filterMap.1 hrow
      exact absurd (cleanupRow_eq_some hr).2.1 hclaim
  · refine nodup_cleanupRows ?_ fun _ => none
    exact ((List.perm_insertionSort _ _).map Prod.fst).nodup_iff.2
      ((List.filter_sublist.map Prod.fst).nodup c.leases.nodup)

/-- A lease that is claimed. -/
theorem LeaseOk.claim (hlok : LeaseOk c id l) {leases : Table Uuid Lease}
    {rows : List LeaseCleanupRow} (hok : ControlOk c) (hdue : l.due c.now)
    (hrows : ∀ row ∈ rows, row.id = id → row.cleanupClaim = some (l.cleanupAttempts + 1) ∧
      row.provider = l.provider ∧ row.credentialKind = l.externalCredentialKind ∧
      row.credentialId = l.externalCredentialId) :
    LeaseOk (Control.begin_ { c with leases } rows) id { l with
      cleanupClaimedAt := some c.now
      cleanupAttempts := l.cleanupAttempts + 1 } := by
  obtain ⟨hopen, hexpired, hnext, hclaimable⟩ := due_iff.1 hdue
  obtain ⟨hnow, -, hconnections, -, -⟩ := begin_eq { c with leases } rows
  refine ⟨?_, ⟨fun t ht => ?_, fun t ht => ?_, fun t t' ht ht' => ?_⟩,
    ?_, fun worker w row hw hrow hid hclaim => ?_⟩
  · rw [hnow]
    refine hlok.fenced.claim (not_not.2 hopen) hclaimable c.started ?_ rfl rfl
    rintro worker a t ⟨w, row, hw, hrow, hid, hclaim, rfl⟩
    obtain ⟨hne, hold⟩ | ⟨rfl, rfl⟩ := get_begin _ hok hw
    · exact .inl ⟨hne, w, row, hold, hrow, hid, hclaim, rfl⟩
    · rw [(hrows row hrow hid).1] at hclaim
      exact .inr ⟨rfl, (Option.some.inj hclaim).symm, rfl⟩
  · rw [hnow, ← Option.some.inj ht]
  · rw [hnow]
    have hdelay : (0 : ℤ) ≤ cleanupRetryMaxMs := by decide
    exact (hnext t ht).trans (le_add_of_nonneg_right hdelay)
  · rw [← Option.some.inj ht]
    exact hnext t' ht'
  · rw [hconnections]
    exact hlok.connected
  · rw [hnow]
    obtain ⟨-, hold⟩ | ⟨rfl, rfl⟩ := get_begin _ hok hw
    · exact hlok.agrees worker w row hold hrow hid hclaim
    · obtain ⟨-, hprovider, hkind, hcredential⟩ := hrows row hrow hid
      exact ⟨hexpired, hprovider.symm, hkind.symm, hcredential.symm⟩

theorem claimExpiredManagedLeases_controlOk (hok : ControlOk c) (integrationId : Option Uuid)
    (limit : ℕ) (locked : List Uuid) :
    ControlOk (c.claimExpiredManagedLeases integrationId limit locked) := by
  unfold Control.claimExpiredManagedLeases
  obtain ⟨hnodup, hranked⟩ :=
    candidates_spec c integrationId limit locked
  generalize c.candidates integrationId limit locked = claimed at hnodup hranked ⊢
  dsimp only
  refine ⟨fun id l' hget => ?_, fun worker w hw =>
    workers_begin _ hok (nodup_cleanupRows hnodup _) hw⟩
  generalize hrows : (claimed.filterMap fun r => c.cleanupRow r (some (r.2.cleanupAttempts + 1))) =
    rows at hget ⊢
  obtain ⟨hnow, hleases, hconnections, -, -⟩ :=
    begin_eq { c with leases := c.claimLeases (claimed.map Prod.fst) } rows
  rw [hleases] at hget
  obtain ⟨l, hl, rfl⟩ := Option.map_eq_some_iff.1 ((Table.get_mapRows _ _ _).symm.trans hget)
  have hlok := hok.leases id l hl
  have hrow : ∀ row ∈ rows, ∃ r ∈ claimed, r.1 = row.id ∧
      c.cleanupRow r (some (r.2.cleanupAttempts + 1)) = some row := fun row hrow => by
    obtain ⟨r, hr, heq⟩ := List.mem_filterMap.1 (hrows ▸ hrow)
    exact ⟨r, hr, (cleanupRow_eq_some heq).1.symm, heq⟩
  have hlease : ∀ r ∈ claimed, r.1 = id → r.2 = l := fun r hr hid => by
    have hget := (mem_ranked.1 (hranked r hr)).1
    rw [hid, hl] at hget
    exact (Option.some.inj hget).symm
  by_cases hid : id ∈ claimed.map Prod.fst
  · rw [if_pos hid]
    obtain ⟨r, hr, hrid⟩ := List.mem_map.1 hid
    have hdue := (mem_ranked.1 (hranked r hr)).2.2.1
    rw [hlease r hr hrid] at hdue
    refine hlok.claim hok hdue fun row hmem hrowid => ?_
    obtain ⟨r, hr, hrid, heq⟩ := hrow row hmem
    have hrow := (cleanupRow_eq_some heq).2
    rwa [hlease r hr (hrid.trans hrowid)] at hrow
  · rw [if_neg hid]
    refine hlok.keep (.refl _ _) hnow.ge (fun worker w' row hw' hmem hrowid _ => ?_) ?_
    · obtain ⟨-, hold⟩ | ⟨rfl, rfl⟩ := get_begin _ hok hw'
      · exact ⟨w', hold, hmem, rfl⟩
      · obtain ⟨r, hr, hrid, -⟩ := hrow row hmem
        exact absurd (List.mem_map.2 ⟨r, hr, hrid.trans hrowid⟩) hid
    · rw [hconnections]
      exact hlok.connected

end

/-! ### Every event -/

section

variable {c c' : Control} {id : Uuid} {l : Lease}

theorem stop_controlOk (hok : ControlOk c) (worker : ℕ) : ControlOk (c.stop worker) where
  leases id l hget := by
    have hlok := hok.leases id l hget
    refine hlok.keep (.refl _ _) le_rfl (fun k w _ hw hrow _ _ => ?_) hlok.connected
    rw [workers_stop] at hw
    split at hw
    · cases hw
    · exact ⟨w, hw, hrow, rfl⟩
  workers k w hw := by
    rw [workers_stop] at hw
    split at hw
    · cases hw
    · exact (hok.workers k w hw).later le_rfl le_rfl (List.Subset.refl _)

/-- A lease that nobody has a row of. -/
theorem leaseOk_of_untouched (huntouched : l.Untouched)
    (hconnected : (c.connections.get l.connectionId).isSome)
    (hnobody : ∀ worker w row, c.workers.get worker = some w → row ∈ w.rows → row.id ≠ id) :
    LeaseOk c id l where
  fenced := sound_of_unclaimed fun worker _ _ ⟨w, row, hw, hrow, hid, _⟩ =>
    hnobody worker w row hw hrow hid
  timely :=
    { claimed := fun t ht => by
        rw [huntouched.2.1] at ht
        cases ht
      next := fun t ht => by
        rw [huntouched.2.2] at ht
        cases ht
      claimedAfter := fun t t' ht => by
        rw [huntouched.2.1] at ht
        cases ht }
  connected := hconnected
  agrees worker w row hw hrow hid := absurd hid (hnobody worker w row hw hrow)

/-- The lease is written by another request. -/
theorem put_controlOk (hok : ControlOk c) (hlok : LeaseOk c id l) :
    ControlOk { c with leases := c.leases.put id l } where
  leases id' l' hget := by
    dsimp only at hget
    rw [Table.get_put] at hget
    have hsame : LeaseOk c id' l' := by
      split at hget
      · rename_i heq
        rw [heq, ← Option.some.inj hget]
        exact hlok
      · exact hok.leases id' l' hget
    exact hsame.keep (.refl _ _) le_rfl (claimsFrom_of_workers rfl) hsame.connected
  workers worker w hw := (hok.workers worker w hw).later le_rfl le_rfl (List.Subset.refl _)

theorem controlOk_apply {event : Event} (hok : ControlOk c) (h : event.apply c = .ok c') :
    ControlOk c' := by
  cases event with
  | tick now =>
      obtain ⟨_, hnow, h⟩ := Except.bind_eq_ok.1 h
      cases h
      have hle : c.now ≤ now := not_lt.1 (refuseIf_eq_ok.1 hnow)
      refine ⟨fun id l hget => ?_, fun worker w hw =>
        (hok.workers worker w hw).later hle le_rfl (List.Subset.refl _)⟩
      have hlok := hok.leases id l hget
      exact hlok.keep (.refl _ _) hle (claimsFrom_of_workers rfl) hlok.connected
  | written id l =>
      obtain ⟨_, hconnection, h⟩ := Except.bind_eq_ok.1 h
      have hconnected := Option.isSome_iff_ne_none.2 (refuseIf_eq_ok.1 hconnection)
      split at h
      · obtain ⟨_, hnew, h⟩ := Except.bind_eq_ok.1 h
        cases h
        obtain ⟨huntouched, hnobody⟩ := not_or.1 (refuseIf_eq_ok.1 hnew)
        refine put_controlOk hok (leaseOk_of_untouched (not_not.1 huntouched) hconnected
          fun worker w row hw hrow hid => hnobody ?_)
        exact Table.any_eq_true.2 ⟨worker, w, hw, List.any_eq_true.2
          ⟨row, hrow, decide_eq_true hid⟩⟩
      · rename_i old hold
        obtain ⟨_, hkeeps, h⟩ := Except.bind_eq_ok.1 h
        cases h
        exact put_controlOk hok ((hok.leases id old hold).keep
          (not_not.1 (refuseIf_eq_ok.1 hkeeps)).keeps le_rfl (claimsFrom_of_workers rfl) hconnected)
  | deleted id =>
      cases h
      refine ⟨fun id' l hget => ?_, fun worker w hw =>
        (hok.workers worker w hw).later le_rfl le_rfl (List.Subset.refl _)⟩
      dsimp only at hget
      rw [Table.get_filterRows_ne] at hget
      split at hget
      · cases hget
      · have hlok := hok.leases id' l hget
        exact hlok.keep (.refl _ _) le_rfl (claimsFrom_of_workers rfl) hlok.connected
  | authority connections integrations =>
      obtain ⟨_, hconnected, h⟩ := Except.bind_eq_ok.1 h
      cases h
      refine ⟨fun id l hget => ?_, fun worker w hw =>
        (hok.workers worker w hw).later le_rfl le_rfl (List.Subset.refl _)⟩
      refine (hok.leases id l hget).keep (.refl _ _) le_rfl (claimsFrom_of_workers rfl)
        (Option.isSome_iff_ne_none.2 fun hnone => refuseIf_eq_ok.1 hconnected ?_)
      exact Table.any_eq_true.2 ⟨id, l, hget, decide_eq_true hnone⟩
  | cleanupExpiredManagedLeases integrationId limit locked =>
      obtain ⟨_, -, h⟩ := Except.bind_eq_ok.1 h
      cases h
      exact claimExpiredManagedLeases_controlOk hok integrationId limit locked
  | revokeActiveLeases filter =>
      cases h
      exact revokeActiveLeases_controlOk hok filter
  | crash worker =>
      cases h
      exact stop_controlOk hok worker
  | selectIntegrations worker | examine worker | answer worker _ | mark worker _ _
  | schedule worker _ _ =>
      obtain ⟨w, row, rest, hturn⟩ := turn_of_apply hok rfl (fun _ heq => by cases heq) h
      exact hturn.controlOk hok

end

end Cloud
end AgentDb
