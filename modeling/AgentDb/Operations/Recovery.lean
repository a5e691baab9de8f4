import AgentDb.Operations.Approval

/-!
# Restart recovery

What `recover_previous_runtimes` does to a store: one loop over the interrupted rows of other
runtimes, each settled once. The loop is followed row by row (`recoverRows_settles`), which gives
what becomes of every row and where it is reported; a second call then finds nothing to move.
-/

namespace AgentDb
namespace Operations

open Json Relation

variable {x : Crates} {t t' u : Tables}

/-! ### One row -/

/-- The state a restart moves a row to, with the reason it records. -/
def restartTarget : RestartRecovery → Option (OperationState × String)
  | .expire => some (.expired, "runtime_restarted")
  | .markFailed => some (.failed, "runtime_interrupted_before_receipt")
  | .outcomeUnknown => some (.outcomeUnknown, "target_commit_status_unknown_after_restart")
  | .keepTerminal | .validateJobCheckpoint => none

/-- The list of the report for one treatment. -/
def RestartRecoveryReport.listed (report : RestartRecoveryReport) : RestartRecovery → List Uuid
  | .keepTerminal => []
  | .expire => report.expired
  | .markFailed => report.failed
  | .outcomeUnknown => report.outcomeUnknown
  | .validateJobCheckpoint => report.checkpointValidationRequired

/-- The report with one more operation. -/
def RestartRecoveryReport.add (report : RestartRecoveryReport) (id : Uuid) :
    RestartRecovery → RestartRecoveryReport
  | .keepTerminal => report
  | .expire => { report with expired := report.expired ++ [id] }
  | .markFailed => { report with failed := report.failed ++ [id] }
  | .outcomeUnknown => { report with outcomeUnknown := report.outcomeUnknown ++ [id] }
  | .validateJobCheckpoint =>
      { report with checkpointValidationRequired := report.checkpointValidationRequired ++ [id] }

theorem RestartRecoveryReport.listed_add (report : RestartRecoveryReport) (id : Uuid)
    {recovery treatment : RestartRecovery} (h : treatment ≠ .keepTerminal) :
    (report.add id recovery).listed treatment =
      report.listed treatment ++ if recovery = treatment then [id] else [] := by
  cases recovery <;> cases treatment <;> first | exact absurd rfl h | simp [add, listed]

/-- The treatment of a row. -/
abbrev OperationRow.recovery (row : OperationRow) : RestartRecovery :=
  restartRecovery row.kind row.state

/-- A row after its treatment. -/
def OperationRow.settled (row : OperationRow) (now : DateTime) : OperationRow :=
  match restartTarget row.recovery with
  | none => row
  | some (target, _) => row.moved target now

/-- The tables after the treatment of one row. -/
def Tables.settleRow (x : Crates) (t : Tables) (row : OperationRow) (now : DateTime)
    (eventId : Uuid) : Tables :=
  match restartTarget row.recovery with
  | none => t
  | some (target, reason) => t.moveRow x row target (reasonDetails reason) now eventId

@[simp] theorem OperationRow.fixed_settled (row : OperationRow) (now : DateTime) :
    (row.settled now).fixed = row.fixed := by
  unfold settled
  split <;> rfl

/-- A restart moves along the table. -/
theorem allowed_restartTarget {kind : OperationKind} {state target : OperationState}
    {reason : String} (h : restartTarget (restartRecovery kind state) = some (target, reason)) :
    allowed state target ∧ target ≠ .executing := by
  cases hcase : restartRecovery kind state with
  | keepTerminal => simp [hcase, restartTarget] at h
  | validateJobCheckpoint => simp [hcase, restartTarget] at h
  | expire =>
    obtain ⟨hopen, hne⟩ := restartRecovery_eq_expire.1 hcase
    simp only [hcase, restartTarget, Option.some.injEq, Prod.mk.injEq] at h
    obtain ⟨rfl, -⟩ := h
    cases state <;> simp_all [allowed, OperationState.isTerminal]
  | markFailed =>
    obtain ⟨rfl, -⟩ := restartRecovery_eq_markFailed.1 hcase
    simp only [hcase, restartTarget, Option.some.injEq, Prod.mk.injEq] at h
    obtain ⟨rfl, -⟩ := h
    exact ⟨rfl, by decide⟩
  | outcomeUnknown =>
    obtain ⟨rfl, -⟩ := restartRecovery_eq_outcomeUnknown.1 hcase
    simp only [hcase, restartTarget, Option.some.injEq, Prod.mk.injEq] at h
    obtain ⟨rfl, -⟩ := h
    exact ⟨rfl, by decide⟩

theorem recoverRows_cons_eq_ok {ids : ℕ → Uuid} {clock : ℕ → DateTime} {index : ℕ}
    {row : OperationRow} {rows : List OperationRow} {report out : RestartRecoveryReport}
    {stored : StoredPayload} (hstored : storedPayload x row = .ok stored) :
    recoverRows x ids clock index (row :: rows) report u = .ok (out, t') ↔
      ∃ u', (match restartTarget row.recovery with
        | none => u' = u
        | some (target, reason) => ∃ op, transitionTx x (row.toRecord stored) target
            (reasonDetails reason) (clock index) (ids index) u = .ok (op, u')) ∧
        recoverRows x ids clock (index + 1) rows (report.add row.id row.recovery) u' =
          .ok (out, t') := by
  have hrow : rowToOperation x row = .ok (row.toRecord stored) := by
    simp [rowToOperation, hstored, bind, Except.bind, pure, Except.pure]
  have hkind : restartRecovery (row.toRecord stored).kind (row.toRecord stored).state =
      row.recovery := rfl
  have hid : (row.toRecord stored).id = row.id := rfl
  rw [recoverRows, Tx.lift_bind_eq_ok, hrow]
  simp only [Except.ok.injEq, exists_eq_left', hkind, hid]
  cases row.recovery <;>
    simp only [restartTarget, RestartRecoveryReport.add, Tx.bind_eq_ok, exists_eq_left]
  all_goals
    constructor
    · rintro ⟨op, u', h, h'⟩
      exact ⟨u', ⟨op, h⟩, h'⟩
    · rintro ⟨u', ⟨op, h⟩, h'⟩
      exact ⟨op, u', h, h'⟩

section Row

variable {row : OperationRow} {now : DateTime} {eventId : Uuid}

theorem Sound.settleRow (h : Sound x (fun _ => True) u) (hrow : row ∈ u.operations)
    (now : DateTime) (eventId : Uuid) : Sound x (fun _ => True) (u.settleRow x row now eventId) := by
  unfold Tables.settleRow
  split
  · exact h
  · next target reason htarget =>
    exact h.moveRow hrow (allowed_restartTarget htarget).1 trivial now eventId

theorem approvals_settleRow : (u.settleRow x row now eventId).approvals = u.approvals := by
  unfold Tables.settleRow
  split <;> rfl

theorem settled_mem_settleRow (hrow : row ∈ u.operations) :
    row.settled now ∈ (u.settleRow x row now eventId).operations := by
  unfold Tables.settleRow OperationRow.settled
  split
  · exact hrow
  · exact mem_moveRow.2 ⟨row, hrow, if_pos rfl⟩

theorem mem_settleRow_of_ne {r : OperationRow} (hr : r ∈ u.operations) (hne : r.id ≠ row.id) :
    r ∈ (u.settleRow x row now eventId).operations := by
  unfold Tables.settleRow
  split
  · exact hr
  · exact mem_moveRow.2 ⟨r, hr, if_neg hne⟩

theorem fixed_settleRow :
    (u.settleRow x row now eventId).operations.map (·.fixed) = u.operations.map (·.fixed) := by
  unfold Tables.settleRow
  split
  · rfl
  · rw [Tables.moveRow, List.map_map]
    refine List.map_congr_left fun r _ => ?_
    by_cases hid : r.id = row.id <;> simp [hid]

end Row

/-! ### The loop -/

section Loop

variable {ids : ℕ → Uuid} {clock : ℕ → DateTime} {index : ℕ} {row : OperationRow}
  {rows : List OperationRow} {report out : RestartRecoveryReport}

/-- **One turn of the loop**, read backwards. -/
theorem recoverRows_cons (h : Sound x (fun _ => True) u) (hrow : row ∈ u.operations)
    (hok : recoverRows x ids clock index (row :: rows) report u = .ok (out, t')) :
    recoverRows x ids clock (index + 1) rows (report.add row.id row.recovery)
      (u.settleRow x row (clock index) (ids index)) = .ok (out, t') := by
  obtain ⟨stored, hstored⟩ := h.readable row hrow
  obtain ⟨u', hstep, hrest⟩ := (recoverRows_cons_eq_ok hstored).1 hok
  have hu' : u' = u.settleRow x row (clock index) (ids index) := by
    unfold Tables.settleRow
    cases htarget : restartTarget row.recovery with
    | none =>
      rw [htarget] at hstep
      exact hstep
    | some move =>
      rw [htarget] at hstep
      obtain ⟨op, htransition⟩ := hstep
      exact (transitionTx_of_row h.ids (row?_of_mem h.ids hrow) htransition).2.2
  rw [← hu']
  exact hrest

/-- The treatment of every row, by induction on the rows to come. -/
theorem recoverRows_settles (h : Sound x (fun _ => True) u)
    (hrows : ∀ row ∈ rows, row ∈ u.operations) (hnodup : (rows.map (·.id)).Nodup)
    (hok : recoverRows x ids clock index rows report u = .ok (out, t')) :
    t'.approvals = u.approvals ∧ t'.operations.map (·.fixed) = u.operations.map (·.fixed) ∧
      (∀ r ∈ u.operations, r.id ∉ rows.map (·.id) → r ∈ t'.operations) ∧
      (∀ r ∈ rows, ∃ now, r.settled now ∈ t'.operations) ∧
      out = rows.foldl (fun report row => report.add row.id row.recovery) report := by
  induction rows generalizing index report u with
  | nil =>
    obtain ⟨rfl, rfl⟩ := Tx.pure_eq_ok.1 hok
    exact ⟨rfl, rfl, fun r hr _ => hr, fun r hr => (List.not_mem_nil hr).elim, rfl⟩
  | cons row rows ih =>
    have hrow : row ∈ u.operations := hrows row List.mem_cons_self
    rw [List.map_cons, List.nodup_cons] at hnodup
    have hne : ∀ r ∈ rows, r.id ≠ row.id := fun r hr hid =>
      hnodup.1 (hid ▸ List.mem_map_of_mem hr)
    obtain ⟨happrovals, hfixed, hothers, hsettled, hout⟩ := ih (h.settleRow hrow _ _)
      (fun r hr => mem_settleRow_of_ne (hrows r (List.mem_cons_of_mem _ hr)) (hne r hr))
      hnodup.2 (recoverRows_cons h hrow hok)
    refine ⟨happrovals.trans approvals_settleRow, hfixed.trans fixed_settleRow, ?_, ?_, hout⟩
    · intro r hr hid
      rw [List.map_cons, List.mem_cons, not_or] at hid
      exact hothers r (mem_settleRow_of_ne hr hid.1) hid.2
    · intro r hr
      rcases List.mem_cons.1 hr with rfl | hr
      · refine ⟨clock index, hothers _ (settled_mem_settleRow hrow) ?_⟩
        rw [id_of_fixed (OperationRow.fixed_settled r _)]
        exact hnodup.1
      · exact hsettled r hr

/-- The lists of the report. -/
theorem listed_foldl {treatment : RestartRecovery} (h : treatment ≠ .keepTerminal)
    (rows : List OperationRow) (report : RestartRecoveryReport) :
    (rows.foldl (fun report row => report.add row.id row.recovery) report).listed treatment =
      report.listed treatment ++
        (rows.filter fun row => row.recovery = treatment).map (·.id) := by
  induction rows generalizing report with
  | nil => simp
  | cons row rows ih =>
    rw [List.foldl_cons, ih, RestartRecoveryReport.listed_add _ _ h, List.append_assoc]
    by_cases hrow : row.recovery = treatment <;> simp [hrow]

end Loop

/-! ### When the recovery goes through -/

/-- What the recovery needs to record its events: lawful third-party code, reasons that fit, a
sequence number left for every operation, and as many new identifiers as there are operations. -/
structure Recordable (x : Crates) (t : Tables) (ids : ℕ → Uuid) : Prop where
  lawful : x.Lawful
  sizes : ∀ recovery, ∀ move ∈ restartTarget recovery,
    (canonicalJson x (reasonDetails move.2)).utf8ByteSize ≤ maxResponseBytes
  room : ∀ row ∈ t.operations, (t.eventsOf row.id).length < maxSequence
  fresh : ∀ e ∈ t.events, ∀ i < t.operations.length, e.id ≠ ids i
  distinct : ∀ i j, i < j → j < t.operations.length → ids i ≠ ids j

section Succeeds

variable {ids : ℕ → Uuid} {clock : ℕ → DateTime} {row : OperationRow} {rows : List OperationRow}

theorem events_settleRow {now : DateTime} {eventId : Uuid} :
    ∀ e ∈ (u.settleRow x row now eventId).events, e ∈ u.events ∨ e.id = eventId := by
  unfold Tables.settleRow
  split
  · exact fun e he => .inl he
  · intro e he
    rcases List.mem_append.1 he with he | he
    · exact .inl he
    · obtain rfl := List.mem_singleton.1 he
      exact .inr rfl

theorem eventsOf_settleRow_ne {now : DateTime} {eventId id : Uuid} (h : row.id ≠ id) :
    (u.settleRow x row now eventId).eventsOf id = u.eventsOf id := by
  unfold Tables.settleRow
  split
  · rfl
  · exact eventsOf_nextEvent_ne (u := u) h

/-- The loop does not fail while its events can be appended. -/
theorem recoverRows_succeeds (hx : x.Lawful) (hsizes : ∀ recovery, ∀ move ∈ restartTarget recovery,
      (canonicalJson x (reasonDetails move.2)).utf8ByteSize ≤ maxResponseBytes)
    (index : ℕ) (hdistinct : ∀ i j, i < j → j < index + rows.length → ids i ≠ ids j)
    (report : RestartRecoveryReport) (h : Sound x (fun _ => True) u)
    (hrows : ∀ row ∈ rows, row ∈ u.operations) (hnodup : (rows.map (·.id)).Nodup)
    (hroom : ∀ row ∈ rows, (u.eventsOf row.id).length < maxSequence)
    (hfresh : ∀ e ∈ u.events, ∀ i, index ≤ i → i < index + rows.length → e.id ≠ ids i) :
    ∃ out t', recoverRows x ids clock index rows report u = .ok (out, t') := by
  induction rows generalizing index report u with
  | nil => exact ⟨report, u, rfl⟩
  | cons row rows ih =>
    have hrow : row ∈ u.operations := hrows row List.mem_cons_self
    rw [List.map_cons, List.nodup_cons] at hnodup
    have hne : ∀ r ∈ rows, r.id ≠ row.id := fun r hr hid =>
      hnodup.1 (hid ▸ List.mem_map_of_mem hr)
    rw [List.length_cons] at hdistinct hfresh
    obtain ⟨out, t', hrest⟩ := ih (index + 1) (fun i j hij hj => hdistinct i j hij (by omega))
      (report.add row.id row.recovery) (h.settleRow hrow (clock index) (ids index))
      (fun r hr => mem_settleRow_of_ne (hrows r (List.mem_cons_of_mem _ hr)) (hne r hr)) hnodup.2
      (fun r hr => by
        rw [eventsOf_settleRow_ne (hne r hr).symm]
        exact hroom r (List.mem_cons_of_mem _ hr))
      (fun e he i hi hlt => by
        rcases events_settleRow e he with he | he
        · exact hfresh e he i (by omega) (by omega)
        · rw [he]
          exact hdistinct index i (by omega) (by omega))
    obtain ⟨stored, hstored⟩ := h.readable row hrow
    refine ⟨out, t', (recoverRows_cons_eq_ok hstored).2 ⟨_, ?_, hrest⟩⟩
    unfold Tables.settleRow
    cases htarget : restartTarget row.recovery with
    | none => rfl
    | some move =>
      obtain ⟨hallowed, hexecuting⟩ := allowed_restartTarget htarget
      exact ⟨_, transitionTx_succeeds hx h hrow hstored hallowed (fun he => absurd he hexecuting)
        ⟨noFloat_of_textObject (textObject_reasonDetails _), hsizes _ move htarget,
          hroom row List.mem_cons_self, fun e he => hfresh e he index le_rfl (by omega)⟩⟩

end Succeeds

/-! ### The rows of a restart -/

section Rows

variable {r : Uuid} {row : OperationRow}

theorem mem_interrupted :
    row ∈ t.interrupted r ↔ row ∈ t.operations ∧ row.runtimeId ≠ r ∧ ¬ row.state.isTerminal := by
  simp [Tables.interrupted]

theorem length_interrupted_le : (t.interrupted r).length ≤ t.operations.length := by
  rw [Tables.interrupted, List.length_insertionSort]
  exact List.length_filter_le _ _

theorem nodup_interrupted (h : t.UniqueIds) : ((t.interrupted r).map (·.id)).Nodup := by
  have hperm := List.perm_insertionSort (fun a b : OperationRow => createdBefore a b)
    (t.operations.filter fun row => row.runtimeId ≠ r && !row.state.isTerminal)
  refine (hperm.map _).nodup_iff.2 ?_
  exact List.Nodup.sublist (List.Sublist.map _ List.filter_sublist) h

theorem restartTarget_eq_none {kind : OperationKind} {state : OperationState} :
    restartTarget (restartRecovery kind state) = none ↔
      state.isTerminal ∨ state = .executing ∧ kind.isResumableJob := by
  have hterminal : restartRecovery kind state = .keepTerminal ↔ state.isTerminal :=
    restartRecovery_eq_keepTerminal
  rw [← restartRecovery_eq_validateJobCheckpoint, ← hterminal]
  cases restartRecovery kind state <;> simp [restartTarget]

end Rows

/-! ### Every other runtime's call is refused -/

/-- No call of the runtime `r` goes through on an operation of another runtime. -/
structure Isolated (x : Crates) (t : Tables) (r : Uuid) (row : OperationRow) : Prop where
  claimExecution : ∀ now eventId, ∃ e,
    Operations.claimExecution x row.id r now eventId t = (.error e, t)
  transition : ∀ target details now eventId, ∃ e,
    Operations.transition x row.id r target details now eventId t = (.error e, t)
  decideApproval : ∀ command approvalId eventId, command.operationId = row.id →
    command.runtimeId = r → ∃ e,
      Operations.decideApproval x command approvalId eventId t = (.error e, t)
  appendProgress : ∀ details now eventId, ∃ e,
    Operations.appendProgress x row.id r details now eventId t = (.error e, t)

theorem isolated (hids : t.UniqueIds) {r : Uuid} {row : OperationRow} (hrow : row ∈ t.operations)
    (hother : row.runtimeId ≠ r) : Isolated x t r row := by
  have hno : ∀ row' ∈ t.operations, row'.id = row.id → row'.runtimeId ≠ r := by
    intro row' hrow' hid
    rw [hids.eq hrow' hrow hid]
    exact hother
  refine ⟨fun now eventId => ?_, fun target details now eventId => ?_,
    fun command approvalId eventId hid hr => ?_, fun details now eventId => ?_⟩
  · rcases claimExecution_cases (x := x) hids row.id r now eventId with
      h | ⟨row', hrow', hid, hr, -⟩
    · exact h
    · exact absurd hr (hno row' hrow' hid)
  · rcases transition_cases (x := x) hids row.id r target details now eventId with
      h | ⟨row', hrow', op, hid, hr, -⟩
    · exact h
    · exact absurd hr (hno row' hrow' hid)
  · rcases decideApproval_cases (x := x) hids command approvalId eventId with
      h | ⟨row', hrow', hid', hr', -⟩
    · exact h
    · exact absurd (hr'.trans hr) (hno row' hrow' (hid'.trans hid))
  · rcases appendProgress_cases (x := x) (t := t) row.id r details now eventId with
      h | ⟨row', hrow', ev, hid, hr, -⟩
    · exact h
    · exact absurd hr (hno row' hrow' hid)

/-! ### A terminal row stays -/

theorem terminal_mem_moveRow (hids : t.UniqueIds) {row moved : OperationRow}
    {target : OperationState} {details : Value} {now : DateTime} {eventId : Uuid}
    (hrow : row ∈ t.operations) (hterminal : row.state.isTerminal) (hmoved : moved ∈ t.operations)
    (hallowed : allowed moved.state target) :
    row ∈ (t.moveRow x moved target details now eventId).operations := by
  refine mem_moveRow.2 ⟨row, hrow, if_neg fun hid => ?_⟩
  rw [← hids.eq hrow hmoved hid, not_allowed_of_isTerminal hterminal] at hallowed
  cases hallowed

theorem Write.terminal_mem {D : Value → Prop} (hids : t.UniqueIds) (hw : Write x D t t')
    {row : OperationRow} (hrow : row ∈ t.operations) (hterminal : row.state.isTerminal) :
    row ∈ t'.operations := by
  cases hw with
  | plan => exact List.mem_append_left _ hrow
  | approve => exact hrow
  | progress => exact hrow
  | move hmoved hallowed => exact terminal_mem_moveRow hids hrow hterminal hmoved hallowed

theorem Claim.terminal_mem {D : Value → Prop} {id : Uuid} (hids : t.UniqueIds)
    (hc : Claim x D id t t') {row : OperationRow} (hrow : row ∈ t.operations)
    (hterminal : row.state.isTerminal) : row ∈ t'.operations := by
  cases hc with
  | claim hmoved _ hclaimable =>
    refine terminal_mem_moveRow hids hrow hterminal hmoved ?_
    rcases hclaimable with ⟨hs, -⟩ | ⟨hs, -⟩ <;> rw [hs] <;> rfl

/-- Whatever is called afterwards, a terminal row stays as it is. -/
theorem terminal_mem_run (calls more : List Call) {row : OperationRow}
    (hrow : row ∈ (run x calls).operations) (hterminal : row.state.isTerminal) :
    row ∈ (run x (calls ++ more)).operations := by
  induction more using List.reverseRecOn with
  | nil => rwa [List.append_nil]
  | append_singleton more call ih =>
    rw [← List.append_assoc, run_concat]
    have hids := (sound_run (x := x) (calls ++ more)).ids
    rcases Call.apply_cases (x := x) (D := fun _ => True) (fun _ _ => trivial) hids call
      call.detailsSatisfy_true with ⟨-, hchain⟩ | ⟨op, -, -, hclaim⟩
    · have hstays : ∀ u, ReflTransGen (Write x fun _ => True) (run x (calls ++ more)) u →
          u.UniqueIds ∧ row ∈ u.operations := by
        intro u hu
        induction hu with
        | refl => exact ⟨hids, ih⟩
        | tail _ hw ihw => exact ⟨hw.uniqueIds ihw.1, hw.terminal_mem ihw.1 ihw.2 hterminal⟩
      exact (hstays _ hchain).2
    · exact hclaim.terminal_mem hids ih hterminal

/-! ### The recovery -/

/-- What the recovery for the runtime `r` makes of the tables `t`. -/
structure Recovered (r : Uuid) (t t' : Tables) (report : RestartRecoveryReport) : Prop where
  approvals : t'.approvals = t.approvals
  fixed : t'.operations.map (·.fixed) = t.operations.map (·.fixed)
  untouched : ∀ row ∈ t.operations, row.runtimeId = r ∨ row.state.isTerminal ∨
    row.state = .executing ∧ row.kind.isResumableJob → row ∈ t'.operations
  expired : ∀ row ∈ t.operations, row.runtimeId ≠ r → ¬ row.state.isTerminal →
    row.state ≠ .executing → ∃ row' ∈ t'.operations, row'.fixed = row.fixed ∧ row'.state = .expired
  failed : ∀ row ∈ t.operations, row.runtimeId ≠ r → row.state = .executing →
    ¬ row.kind.isResumableJob → ¬ row.kind.mayMutateTarget →
    ∃ row' ∈ t'.operations, row'.fixed = row.fixed ∧ row'.state = .failed
  outcomeUnknown : ∀ row ∈ t.operations, row.runtimeId ≠ r → row.state = .executing →
    ¬ row.kind.isResumableJob → row.kind.mayMutateTarget →
    ∃ row' ∈ t'.operations, row'.fixed = row.fixed ∧ row'.state = .outcomeUnknown
  settled : ∀ row ∈ t'.operations, row.runtimeId ≠ r →
    row.state.isTerminal ∨ row.state = .executing ∧ row.kind.isResumableJob
  mem_expired : ∀ id, id ∈ report.expired ↔ ∃ row ∈ t.operations, row.id = id ∧
    row.runtimeId ≠ r ∧ ¬ row.state.isTerminal ∧ row.state ≠ .executing
  mem_failed : ∀ id, id ∈ report.failed ↔ ∃ row ∈ t.operations, row.id = id ∧
    row.runtimeId ≠ r ∧ row.state = .executing ∧ ¬ row.kind.isResumableJob ∧
    ¬ row.kind.mayMutateTarget
  mem_outcomeUnknown : ∀ id, id ∈ report.outcomeUnknown ↔ ∃ row ∈ t.operations, row.id = id ∧
    row.runtimeId ≠ r ∧ row.state = .executing ∧ ¬ row.kind.isResumableJob ∧
    row.kind.mayMutateTarget
  mem_checkpoint : ∀ id, id ∈ report.checkpointValidationRequired ↔ ∃ row ∈ t.operations,
    row.id = id ∧ row.runtimeId ≠ r ∧ row.state = .executing ∧ row.kind.isResumableJob
  disjoint : (report.expired ++ report.failed ++ report.outcomeUnknown ++
    report.checkpointValidationRequired).Nodup

/-- The lists of the report, all at once. -/
theorem mem_listed {r : Uuid} {report : RestartRecoveryReport}
    (hreport : report = (t.interrupted r).foldl
      (fun report row => report.add row.id row.recovery) {}) {treatment : RestartRecovery}
    (htreatment : treatment ≠ .keepTerminal) (id : Uuid) :
    id ∈ report.listed treatment ↔
      ∃ row ∈ t.operations, row.id = id ∧ row.runtimeId ≠ r ∧ row.recovery = treatment := by
  have hlist := listed_foldl htreatment (t.interrupted r) {}
  have hempty : ({} : RestartRecoveryReport).listed treatment = [] := by cases treatment <;> rfl
  rw [← hreport, hempty, List.nil_append] at hlist
  rw [hlist]
  simp only [List.mem_map, List.mem_filter, mem_interrupted, decide_eq_true_eq]
  constructor
  · rintro ⟨row, ⟨⟨hrow, hother, -⟩, hrecovery⟩, hid⟩
    exact ⟨row, hrow, hid, hother, hrecovery⟩
  · rintro ⟨row, hrow, hid, hother, hrecovery⟩
    refine ⟨row, ⟨⟨hrow, hother, fun hterminal => ?_⟩, hrecovery⟩, hid⟩
    exact htreatment (hrecovery.symm.trans (restartRecovery_of_isTerminal hterminal))

theorem nodup_listed (hids : t.UniqueIds) {r : Uuid} {report : RestartRecoveryReport}
    (hreport : report = (t.interrupted r).foldl
      (fun report row => report.add row.id row.recovery) {}) (treatment : RestartRecovery) :
    (report.listed treatment).Nodup := by
  by_cases htreatment : treatment = .keepTerminal
  · rw [htreatment]
    exact List.nodup_nil
  · have hlist := listed_foldl htreatment (t.interrupted r) {}
    have hempty : ({} : RestartRecoveryReport).listed treatment = [] := by
      cases treatment <;> rfl
    rw [← hreport, hempty, List.nil_append] at hlist
    rw [hlist]
    exact List.Nodup.sublist (List.Sublist.map _ List.filter_sublist) (nodup_interrupted hids)

theorem uniqueIds_of_fixed (h : t'.operations.map (·.fixed) = t.operations.map (·.fixed))
    (hids : t.UniqueIds) : t'.UniqueIds := by
  have hid : ∀ rows : List OperationRow,
      (rows.map (·.fixed)).map (·.id) = rows.map (·.id) := fun rows => by
    rw [List.map_map]
    rfl
  rw [Tables.UniqueIds, ← hid, h, hid]
  exact hids

theorem state_settled {row : OperationRow} (now : DateTime) (h : ¬ row.state.isTerminal) :
    (row.settled now).state.isTerminal ∨
      row.settled now = row ∧ row.state = .executing ∧ row.kind.isResumableJob := by
  unfold OperationRow.settled
  cases htarget : restartTarget row.recovery with
  | none => exact .inr ⟨rfl, (restartTarget_eq_none.1 htarget).resolve_left h⟩
  | some move =>
    left
    cases hcase : row.recovery <;> simp only [hcase, restartTarget, Option.some.injEq,
      reduceCtorEq] at htarget <;> subst htarget <;> rfl

theorem recovered {ids : ℕ → Uuid} {clock : ℕ → DateTime} {r : Uuid}
    {report : RestartRecoveryReport} (h : Sound x (fun _ => True) t)
    (hok : recoverRows x ids clock 0 (t.interrupted r) {} t = .ok (report, t')) :
    Recovered r t t' report := by
  obtain ⟨happrovals, hfixed, hothers, hsettled, hreport⟩ := recoverRows_settles h
    (fun row hrow => (mem_interrupted.1 hrow).1) (nodup_interrupted h.ids) hok
  have hids' := uniqueIds_of_fixed hfixed h.ids
  have huntouched : ∀ row ∈ t.operations, row.runtimeId = r ∨ row.state.isTerminal ∨
      row.state = .executing ∧ row.kind.isResumableJob → row ∈ t'.operations := by
    intro row hrow hcase
    by_cases hmem : row ∈ t.interrupted r
    · obtain ⟨now, hnow⟩ := hsettled row hmem
      obtain ⟨-, hother, hopen⟩ := mem_interrupted.1 hmem
      have hnone := restartTarget_eq_none.2 (hcase.resolve_left hother)
      rwa [OperationRow.settled, hnone] at hnow
    · refine hothers row hrow fun hid => ?_
      obtain ⟨row', hrow', hid'⟩ := List.mem_map.1 hid
      exact hmem (h.ids.eq (mem_interrupted.1 hrow').1 hrow hid' ▸ hrow')
  have hmoved : ∀ row ∈ t.operations, row.runtimeId ≠ r → ¬ row.state.isTerminal →
      ∀ target reason, restartTarget row.recovery = some (target, reason) →
      ∃ row' ∈ t'.operations, row'.fixed = row.fixed ∧ row'.state = target := by
    intro row hrow hother hopen target reason htarget
    obtain ⟨now, hnow⟩ := hsettled row (mem_interrupted.2 ⟨hrow, hother, hopen⟩)
    refine ⟨_, hnow, OperationRow.fixed_settled row now, ?_⟩
    rw [OperationRow.settled, htarget]
    rfl
  have hexecuting : ∀ row : OperationRow, row.state = .executing → ¬ row.state.isTerminal := by
    intro row hstate
    rw [hstate]
    decide
  refine ⟨happrovals, hfixed, huntouched, ?_, ?_, ?_, ?_, ?_, ?_, ?_, ?_, ?_⟩
  · intro row hrow hother hopen hne
    refine hmoved row hrow hother hopen .expired "runtime_restarted" ?_
    rw [OperationRow.recovery, restartRecovery_eq_expire.2 ⟨hopen, hne⟩]
    rfl
  · intro row hrow hother hstate hjob hmutates
    refine hmoved row hrow hother (hexecuting row hstate) .failed
      "runtime_interrupted_before_receipt" ?_
    rw [OperationRow.recovery, restartRecovery_eq_markFailed.2 ⟨hstate, hjob, hmutates⟩]
    rfl
  · intro row hrow hother hstate hjob hmutates
    refine hmoved row hrow hother (hexecuting row hstate) .outcomeUnknown
      "target_commit_status_unknown_after_restart" ?_
    rw [OperationRow.recovery, restartRecovery_eq_outcomeUnknown.2 ⟨hstate, hjob, hmutates⟩]
    rfl
  · intro row hrow hother
    have hmem : row.fixed ∈ t.operations.map (·.fixed) := by
      rw [← hfixed]
      exact List.mem_map_of_mem hrow
    obtain ⟨old, hold, holdfixed⟩ := List.mem_map.1 hmem
    have hruntime : old.runtimeId = row.runtimeId := by
      have := congrArg OperationRow.runtimeId holdfixed
      exact this
    by_cases hterminal : old.state.isTerminal
    · have hsame := hids'.eq (huntouched old hold (.inr (.inl hterminal))) hrow
        (id_of_fixed holdfixed)
      exact .inl (hsame ▸ hterminal)
    · obtain ⟨now, hnow⟩ := hsettled old
        (mem_interrupted.2 ⟨hold, hruntime ▸ hother, hterminal⟩)
      have hsame : old.settled now = row := hids'.eq hnow hrow
        ((id_of_fixed (OperationRow.fixed_settled old now)).trans (id_of_fixed holdfixed))
      rcases state_settled now hterminal with hdone | ⟨hstays, hjob⟩
      · exact .inl (hsame ▸ hdone)
      · rw [hstays] at hsame
        exact .inr (hsame ▸ hjob)
  · intro id
    rw [show report.expired = report.listed .expire from rfl, mem_listed hreport (by decide)]
    simp only [restartRecovery_eq_expire]
  · intro id
    rw [show report.failed = report.listed .markFailed from rfl, mem_listed hreport (by decide)]
    simp only [restartRecovery_eq_markFailed]
  · intro id
    rw [show report.outcomeUnknown = report.listed .outcomeUnknown from rfl,
      mem_listed hreport (by decide)]
    simp only [restartRecovery_eq_outcomeUnknown]
  · intro id
    rw [show report.checkpointValidationRequired = report.listed .validateJobCheckpoint from rfl,
      mem_listed hreport (by decide)]
    simp only [restartRecovery_eq_validateJobCheckpoint]
  · have hapart : ∀ a b : RestartRecovery, a ≠ .keepTerminal → b ≠ .keepTerminal → a ≠ b →
        ∀ id ∈ report.listed a, id ∉ report.listed b := by
      intro a b ha hb hne id hida hidb
      obtain ⟨row, hrow, hid, -, hrec⟩ := (mem_listed hreport ha id).1 hida
      obtain ⟨row', hrow', hid', -, hrec'⟩ := (mem_listed hreport hb id).1 hidb
      rw [h.ids.eq hrow hrow' (hid.trans hid'.symm)] at hrec
      exact hne (hrec.symm.trans hrec')
    have hnodup := nodup_listed h.ids hreport
    have hjoin : ∀ (l : List Uuid) (a : RestartRecovery), l.Nodup →
        (∀ id ∈ l, id ∉ report.listed a) → (l ++ report.listed a).Nodup := by
      intro l a hl hdisjoint
      refine List.nodup_append.2 ⟨hl, hnodup a, fun id hid id' hid' heq => ?_⟩
      exact hdisjoint id hid (heq ▸ hid')
    refine hjoin _ .validateJobCheckpoint (hjoin _ .outcomeUnknown (hjoin _ .markFailed
      (hnodup .expire) ?_) ?_) ?_
    · exact hapart .expire .markFailed (by decide) (by decide) (by decide)
    · intro id hid
      rcases List.mem_append.1 hid with hid | hid
      · exact hapart .expire .outcomeUnknown (by decide) (by decide) (by decide) id hid
      · exact hapart .markFailed .outcomeUnknown (by decide) (by decide) (by decide) id hid
    · intro id hid
      rcases List.mem_append.1 hid with hid | hid
      · rcases List.mem_append.1 hid with hid | hid
        · exact hapart .expire .validateJobCheckpoint (by decide) (by decide) (by decide) id hid
        · exact hapart .markFailed .validateJobCheckpoint (by decide) (by decide) (by decide) id hid
      · exact hapart .outcomeUnknown .validateJobCheckpoint (by decide) (by decide) (by decide)
          id hid

/-! ### A second call -/

/-- Rows that only wait for a checkpoint are left alone. -/
theorem recoverRows_of_settled (h : Sound x (fun _ => True) u) (ids : ℕ → Uuid)
    (clock : ℕ → DateTime) (index : ℕ) (rows : List OperationRow) (report : RestartRecoveryReport)
    (hrows : ∀ row ∈ rows, row ∈ u.operations ∧ restartTarget row.recovery = none) :
    ∃ out, recoverRows x ids clock index rows report u = .ok (out, u) := by
  induction rows generalizing index report with
  | nil => exact ⟨report, rfl⟩
  | cons row rows ih =>
    obtain ⟨hrow, hnone⟩ := hrows row List.mem_cons_self
    obtain ⟨stored, hstored⟩ := h.readable row hrow
    obtain ⟨out, hout⟩ := ih (index + 1) (report.add row.id row.recovery)
      fun r hr => hrows r (List.mem_cons_of_mem _ hr)
    refine ⟨out, (recoverRows_cons_eq_ok hstored).2 ⟨u, ?_, hout⟩⟩
    rw [hnone]

theorem recoverPreviousRuntimes_cases (h : Sound x (fun _ => True) t) (r : Uuid) (ids : ℕ → Uuid)
    (clock : ℕ → DateTime) :
    (∃ e, recoverPreviousRuntimes x r ids clock t = (.error e, t)) ∨
      ∃ report t', recoverPreviousRuntimes x r ids clock t = (.ok report, t') ∧
        Recovered r t t' report := by
  generalize hout : recoverPreviousRuntimes x r ids clock t = out
  rcases Tx.settle_cases hout with ⟨res, t', hm, rfl⟩ | ⟨e, rfl⟩
  · rw [Tx.get_bind_eq_ok] at hm
    obtain ⟨report, t₁, hrows, hm⟩ := Tx.bind_eq_ok.1 hm
    obtain ⟨rfl, rfl⟩ := Tx.pure_eq_ok.1 hm
    exact .inr ⟨report, t₁, rfl, recovered h hrows⟩
  · exact .inl ⟨e, rfl⟩

theorem recoverPreviousRuntimes_succeeds (h : Sound x (fun _ => True) t) {ids : ℕ → Uuid}
    (hrec : Recordable x t ids) (r : Uuid) (clock : ℕ → DateTime) :
    ∃ report t', recoverPreviousRuntimes x r ids clock t = (.ok report, t') := by
  have hlength := length_interrupted_le (t := t) (r := r)
  have hdistinct : ∀ i j, i < j → j < 0 + (t.interrupted r).length → ids i ≠ ids j :=
    fun i j hij hj => hrec.distinct i j hij (by omega)
  have hfresh : ∀ e ∈ t.events, ∀ i, 0 ≤ i → i < 0 + (t.interrupted r).length → e.id ≠ ids i :=
    fun e he i _ hi => hrec.fresh e he i (by omega)
  obtain ⟨report, t', hrows⟩ := recoverRows_succeeds hrec.lawful hrec.sizes 0
    hdistinct {} h (fun row hrow => (mem_interrupted.1 hrow).1) (nodup_interrupted h.ids)
    (fun row hrow => hrec.room row (mem_interrupted.1 hrow).1) hfresh
  refine ⟨report, t', Tx.settle_of_eq_ok ?_⟩
  rw [Tx.get_bind_eq_ok]
  exact Tx.bind_eq_ok.2 ⟨report, t', hrows, rfl⟩

/-- A second call moves nothing. -/
theorem recoverPreviousRuntimes_again (h : Sound x (fun _ => True) t) {r : Uuid}
    (hsettled : ∀ row ∈ t.operations, row.runtimeId ≠ r →
      row.state.isTerminal ∨ row.state = .executing ∧ row.kind.isResumableJob)
    (ids : ℕ → Uuid) (clock : ℕ → DateTime) :
    ∃ report, recoverPreviousRuntimes x r ids clock t = (.ok report, t) := by
  obtain ⟨report, hreport⟩ := recoverRows_of_settled h ids clock 0 (t.interrupted r) {}
    fun row hrow => by
      obtain ⟨hmem, hother, -⟩ := mem_interrupted.1 hrow
      exact ⟨hmem, restartTarget_eq_none.2 (hsettled row hmem hother)⟩
  refine ⟨report, Tx.settle_of_eq_ok ?_⟩
  rw [Tx.get_bind_eq_ok]
  exact Tx.bind_eq_ok.2 ⟨report, t, hreport, rfl⟩

/-- **Restart recovery.** Whatever the run before it, a recovery for the runtime `r` leaves the
store alone and says so, or settles every operation of another runtime. Then a second recovery
changes nothing, no call of `r` ever goes through on an operation of another runtime, and what is
terminal stays so. -/
theorem recovery (x : Crates) (calls : List Call) (r : Uuid) (ids : ℕ → Uuid)
    (clock : ℕ → DateTime) :
    (∃ e, recoverPreviousRuntimes x r ids clock (run x calls) = (.error e, run x calls) ∧
        ¬ Recordable x (run x calls) ids) ∨
      ∃ report t', recoverPreviousRuntimes x r ids clock (run x calls) = (.ok report, t') ∧
        Recovered r (run x calls) t' report ∧
        (∀ ids' clock', ∃ report',
          recoverPreviousRuntimes x r ids' clock' t' = (.ok report', t')) ∧
        (∀ more, ∀ row ∈ (runFrom x t' more).operations, row.runtimeId ≠ r →
          Isolated x (runFrom x t' more) r row) ∧
        ∀ more, ∀ row ∈ t'.operations, row.state.isTerminal →
          row ∈ (runFrom x t' more).operations := by
  have hsound := sound_run (x := x) calls
  rcases recoverPreviousRuntimes_cases hsound r ids clock with
    ⟨e, hout⟩ | ⟨report, t', hout, hrecovered⟩
  · refine .inl ⟨e, hout, fun hrec => ?_⟩
    obtain ⟨report, t', hok⟩ := recoverPreviousRuntimes_succeeds hsound hrec r clock
    rw [hok] at hout
    cases hout
  · have ht' : t' = run x (calls ++ [.recoverPreviousRuntimes r ids clock]) := by
      rw [run_concat, Call.apply, hout]
    have hmore : ∀ more, runFrom x t' more =
        run x (calls ++ [.recoverPreviousRuntimes r ids clock] ++ more) := by
      intro more
      rw [ht', run, ← runFrom_append, run]
    refine .inr ⟨report, t', hout, hrecovered, fun ids' clock' => ?_, fun more row hrow hother => ?_,
      fun more row hrow hterminal => ?_⟩
    · refine recoverPreviousRuntimes_again ?_ hrecovered.settled ids' clock'
      rw [ht']
      exact sound_run _
    · rw [hmore] at hrow ⊢
      exact isolated (sound_run _).ids hrow hother
    · rw [hmore]
      rw [ht'] at hrow
      exact terminal_mem_run _ more hrow hterminal

/-! ### An interrupted operation that neither reads nor mutates -/

theorem recordable_sampleRun (kind : OperationKind) :
    Recordable crates (run crates (sampleRun kind)) fun _ => .ofByte 30 := by
  obtain ⟨a, h⟩ := snapshot_run kind
  refine ⟨crates_lawful, ?_, ?_, ?_, ?_⟩
  · intro recovery move hmove
    cases recovery <;> cases hmove <;> decide +kernel
  · intro row _
    calc ((run crates (sampleRun kind)).eventsOf row.id).length
        ≤ (run crates (sampleRun kind)).events.length := List.length_filter_le _ _
      _ = 4 := by rw [← List.length_map, h.events]; rfl
      _ < maxSequence := by decide
  · intro e he i _ hid
    have hmem : e.id ∈ (run crates (sampleRun kind)).events.map (·.id) := List.mem_map_of_mem he
    rw [h.events, hid] at hmem
    exact absurd hmem (by decide)
  · intro i j hij hj
    rw [h.operations, List.length_singleton] at hj
    omega

/-- An interrupted `dashboardCreate` is no read and mutates no target; it fails, it does not
expire. -/
theorem recovery_fails_dashboardCreate :
    ¬ ∀ (x : Crates) (calls : List Call) (r : Uuid) (ids : ℕ → Uuid) (clock : ℕ → DateTime)
      (report : RestartRecoveryReport) (t' : Tables),
      recoverPreviousRuntimes x r ids clock (run x calls) = (.ok report, t') →
      ∀ row ∈ (run x calls).operations, row.runtimeId ≠ r → ¬ row.state.isTerminal →
        ¬ (row.state = .executing ∧
          (row.kind.isResumableJob ∨ row.kind.mayMutateTarget ∨ row.kind.isRead)) →
        ∃ row' ∈ t'.operations, row'.id = row.id ∧ row'.state = .expired := by
  intro hclaim
  obtain ⟨a, h⟩ := snapshot_run .dashboardCreate
  have hsound := sound_run (x := crates) (sampleRun .dashboardCreate)
  obtain ⟨report, t', hok⟩ := recoverPreviousRuntimes_succeeds hsound
    (recordable_sampleRun .dashboardCreate) (.ofByte 6) (fun _ => .ofDay 5)
  have hother : (executingRow .dashboardCreate).runtimeId ≠ .ofByte 6 :=
    show Uuid.ofByte 5 ≠ .ofByte 6 by decide
  obtain ⟨row', hrow', hid', hexpired⟩ := hclaim _ _ _ _ _ report t' hok _ h.mem hother
    (by decide) (by decide)
  rcases recoverPreviousRuntimes_cases hsound (.ofByte 6) (fun _ => .ofByte 30)
    (fun _ => .ofDay 5) with ⟨e, hout⟩ | ⟨report₂, t₂, hout, hrecovered⟩
  · rw [hok] at hout
    cases hout
  · rw [hok] at hout
    cases hout
    obtain ⟨row'', hrow'', hfixed, hfailed⟩ := hrecovered.failed _ h.mem hother rfl (by decide)
      (by decide)
    have hids := uniqueIds_of_fixed hrecovered.fixed hsound.ids
    rw [hids.eq hrow' hrow'' (hid'.trans (id_of_fixed hfixed).symm), hfailed] at hexpired
    cases hexpired

end Operations
end AgentDb
