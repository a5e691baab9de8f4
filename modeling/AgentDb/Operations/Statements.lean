import AgentDb.Lib.Session
import AgentDb.Operations.Writes

/-!
# The writes of the repository, statement by statement: `operations/repository.rs`

The same methods as calls on a connection: where the transaction begins, which statements it is
made of and on which paths it is committed. A path that returns early, with `?` or by a `return` of
its own, drops the transaction. Each call settles the transaction of the repository, so whatever
fails in it leaves the tables as they were, except where it commits an expiry first.
-/

namespace AgentDb
namespace Operations
namespace Statements

open Json SessionM

/-- A method of the repository. -/
abbrev RepositoryM := SessionM Tables AppError

section

variable (x : Crates)

/-- `fetch_operation_tx`. -/
def fetchOperationTx (operationId : Uuid) : RepositoryM OperationRecord :=
  statement (Operations.fetchOperationTx x operationId)

/-- `append_event_tx`: the tail of the ledger is read, and the event inserted. -/
def appendEventTx (operationId : Uuid) (kind : OperationEventKind) (state : OperationState)
    (details : Value) (createdAt : DateTime) (eventId : Uuid) :
    RepositoryM OperationEventRecord := do
  let detailsJson := canonicalJson x details
  refuseIf (detailsJson.utf8ByteSize > maxResponseBytes)
    (AppError.config "operation event details exceed the local control-message limit")
  let t ← statement get
  let tail := (t.ledger operationId).getLast?
  refuseIf ((tail.map (·.sequence)) = some maxSequence)
    (AppError.config "operation event sequence overflowed")
  let sequence := (tail.map (·.sequence)).getD 0 + 1
  let prevHash := tail.map (·.hash)
  let hash := eventHash x
    { eventId, operationId, sequence, kind, state, eventJson := detailsJson, createdAt, prevHash }
  statement (insertEvent x
    { id := eventId, operationId, sequence, kind, state, eventJson := detailsJson, createdAt,
      prevHash, hash })
  let details ← fromStr x detailsJson
  return { id := eventId, operationId, sequence, kind, state, details, createdAt, prevHash, hash }

/-- The `UPDATE` of `transition_tx`: the number of rows it changed. -/
def updateState (current : OperationRecord) (target : OperationState) (now : DateTime) :
    RepositoryTx ℕ := do
  let t ← get
  set (t.update current target now)
  return t.operations.countP (updates current target now)

/-- `transition_tx`. -/
def transitionTx (current : OperationRecord) (target : OperationState) (details : Value)
    (now : DateTime) (eventId : Uuid) : RepositoryM OperationRecord := do
  (ensureTransition current.state target).mapError fun e => operationConflict e.toText
  let rowsAffected ← statement (updateState current target now)
  refuseIf (rowsAffected ≠ 1)
    (operationConflict "the operation state changed before it could be updated")
  let _ ← appendEventTx x current.id (transitionEventKind target) target details now eventId
  fetchOperationTx x current.id

/-- `insert_planned`. -/
def insertPlanned (runtimeId : Uuid) (operation : NewOperation) (createdAt : DateTime)
    (eventId : Uuid) : RepositoryM OperationRecord := do
  let prepared ← PreparedOperation.new x runtimeId operation
  beginTx
  let row := prepared.row createdAt
  match (← statement get).operations.find? (sameIdempotencyKey row) with
  | some found =>
      let existing ← rowToOperation x found
      if prepared.matches existing then
        commit
        return existing
      else throw (operationConflict
        "the idempotency key is already bound to a different immutable operation")
  | none =>
      statement (insertOperation x row)
      let _ ← appendEventTx x row.id .planned .planned
        (.object [("payloadHash", .string prepared.payload.sha256),
          ("riskLevel", .string (riskLevelStr operation.riskLevel))])
        createdAt eventId
      let record ← fetchOperationTx x row.id
      commit
      return record

/-- `transition`. -/
def transition (operationId runtimeId : Uuid) (target : OperationState) (details : Value)
    (now : DateTime) (eventId : Uuid) : RepositoryM OperationRecord := do
  refuseIf (target = .executing)
    (AppError.config "execution must be entered through the atomic claim API")
  beginTx
  let current ← fetchOperationTx x operationId
  ensureRuntime current runtimeId
  let updated ← transitionTx x current target details now eventId
  commit
  return updated

/-- `claim_execution`. -/
def claimExecution (operationId runtimeId : Uuid) (now : DateTime) (eventId : Uuid) :
    RepositoryM OperationRecord := do
  beginTx
  let current ← fetchOperationTx x operationId
  ensureRuntime current runtimeId
  refuseIf (current.state ≠ .ready ∧ current.state ≠ .approved)
    (operationConflict "the operation is not in an executable state")
  refuseIf (current.state = .ready ∧ current.kind.mayMutateTarget)
    (operationConflict "a target-mutating operation cannot execute without exact approval")
  if current.expiresAt.any (· ≤ now) then
    let _ ← transitionTx x current .expired (reasonDetails "operation_expired") now eventId
    commit
    throw (operationConflict "the operation has expired")
  else
    if current.state = .approved then
      let exact ← statement (do return hasExactApproval (← get) current now)
      refuseIf (¬ exact) (operationConflict "the operation has no current exact approval")
    let updated ← transitionTx x current .executing
      (.object [("payloadHash", .string current.payloadHash)]) now eventId
    commit
    return updated

/-- `decide_approval`. -/
def decideApproval (command : OperationApprovalCommand) (approvalId eventId : Uuid) :
    RepositoryM OperationRecord := do
  refuseIf (¬ command.approver.identified)
    (operationConflict "only an identified local or workspace user can approve an operation")
  refuseIf (command.reason.any fun reason => reason.utf8ByteSize > maxRequestBytes)
    (AppError.config "operation approval reason exceeds the local control-message limit")
  beginTx
  let current ← fetchOperationTx x command.operationId
  ensureRuntime current command.runtimeId
  refuseIf (current.state ≠ .pendingApproval)
    (operationConflict "the operation is not awaiting an approval decision")
  refuseIf (current.payloadHash ≠ command.expectedPayloadHash)
    (operationConflict "the reviewed payload hash does not match the stored operation")
  refuseIf (current.policyRevision ≠ command.currentPolicyRevision)
    (operationConflict "the active safety policy changed after the operation was planned")
  if current.expiresAt.any (· ≤ command.now) then
    let _ ← transitionTx x current .expired (reasonDetails "approval_expired") command.now eventId
    commit
    throw (operationConflict "the operation has expired")
  else
    statement (insertApproval
      { id := approvalId
        operationId := current.id
        payloadHash := current.payloadHash
        approver := command.approver
        decision := command.decision
        reason := command.reason
        policyRevision := current.policyRevision
        createdAt := command.now
        expiresAt := current.expiresAt })
    let target := match command.decision with
      | .approved => OperationState.approved
      | .rejected => .rejected
    let updated ← transitionTx x current target
      (.object [("approvalId", .string approvalId.toText),
        ("approverId", .string command.approver.id),
        ("approverKind", .string (actorKindStr command.approver.kind)),
        ("payloadHash", .string current.payloadHash),
        ("policyRevision", .string current.policyRevision)]) command.now eventId
    commit
    return updated

/-- `append_progress`. -/
def appendProgress (operationId runtimeId : Uuid) (details : Value) (now : DateTime)
    (eventId : Uuid) : RepositoryM OperationEventRecord := do
  beginTx
  let current ← fetchOperationTx x operationId
  ensureRuntime current runtimeId
  refuseIf (current.state ≠ .executing)
    (operationConflict "progress can only be recorded for an executing operation")
  let event ← appendEventTx x operationId .progress current.state details now eventId
  commit
  return event

end

/-! ### They settle the transactions of the repository -/

variable {x : Crates}

theorem follows_appendEventTx (operationId eventId : Uuid) (kind : OperationEventKind)
    (state : OperationState) (details : Value) (createdAt : DateTime) :
    Follows (appendEventTx x operationId kind state details createdAt eventId)
      (Operations.appendEventTx x operationId kind state details createdAt eventId) := by
  unfold appendEventTx Operations.appendEventTx
  refine (follows_lift _).bind fun _ => (follows_statement _).bind fun t => ?_
  refine (follows_lift _).bind fun _ => (follows_statement _).bind fun _ => ?_
  exact (follows_lift _).bind fun _ => follows_pure _

/-- The `UPDATE` is checked by the rows it changed, not before it. -/
theorem transitionTx_eq (current : OperationRecord) (target : OperationState) (details : Value)
    (now : DateTime) (eventId : Uuid) :
    Operations.transitionTx x current target details now eventId = (do
      (ensureTransition current.state target).mapError fun e => operationConflict e.toText
      let rowsAffected ← updateState current target now
      refuseIf (rowsAffected ≠ 1)
        (operationConflict "the operation state changed before it could be updated")
      let _ ← Operations.appendEventTx x current.id (transitionEventKind target) target details now
        eventId
      Operations.fetchOperationTx x current.id : RepositoryTx OperationRecord) := by
  unfold Operations.transitionTx updateState
  refine bind_congr fun _ => ?_
  funext t
  simp only [bind_assoc, pure_bind, Tx.get_bind, Tx.set_bind, Tx.refuseIf_bind]

theorem follows_transitionTx (current : OperationRecord) (target : OperationState)
    (details : Value) (now : DateTime) (eventId : Uuid) :
    Follows (transitionTx x current target details now eventId)
      (Operations.transitionTx x current target details now eventId) := by
  rw [transitionTx_eq]
  unfold transitionTx
  refine (follows_lift _).bind fun _ => (follows_statement _).bind fun _ => ?_
  refine (follows_lift _).bind fun _ => (follows_appendEventTx ..).bind fun _ => ?_
  exact follows_statement _

/-- The call settles the transaction of a method. -/
def Refines {α : Type} (call : RepositoryM α) (method : Tables → AppResult α × Tables) : Prop :=
  ∃ body, Settles call body ∧ ∀ t, method t = transaction body t

/-- **A call does what the method does, or it fails and does nothing.** -/
theorem Refines.perform {α : Type} {call : RepositoryM α} {method : Tables → AppResult α × Tables}
    (h : Refines call method) (faults : List (Option AppError)) (t : Tables) :
    SessionM.perform call faults t = method t ∨
      ∃ e, SessionM.perform call faults t = (.error e, t) := by
  obtain ⟨body, hsettles, hmethod⟩ := h
  rcases hsettles.perform_cases faults t with ⟨r, t', hbody, hperform⟩ | herror
  · rw [hperform, hmethod]
    exact .inl (Tx.settle_of_eq_ok hbody).symm
  · exact .inr herror

/-- **If no statement fails by itself, the call is the method.** -/
theorem Refines.perform_nil {α : Type} {call : RepositoryM α}
    {method : Tables → AppResult α × Tables} (h : Refines call method) (t : Tables) :
    SessionM.perform call [] t = method t := by
  obtain ⟨body, hsettles, hmethod⟩ := h
  rw [hsettles.perform_nil, hmethod]

theorem follows_fetch (operationId : Uuid) :
    Follows (fetchOperationTx x operationId) (Operations.fetchOperationTx x operationId) :=
  follows_statement _

theorem refines_transition (operationId runtimeId : Uuid) (target : OperationState)
    (details : Value) (now : DateTime) (eventId : Uuid) :
    Refines (transition x operationId runtimeId target details now eventId)
      (Operations.transition x operationId runtimeId target details now eventId) := by
  refine ⟨_, ?_, fun _ => rfl⟩
  unfold transition
  refine Settles.bind (follows_lift _) fun _ => Settles.first (follows_statement _) ?_
  refine Settles.bind (follows_fetch _) fun _ => Settles.bind (follows_lift _) fun _ => ?_
  exact Settles.bind (follows_transitionTx ..) fun updated => settles_commit (.ok updated)

theorem refines_appendProgress (operationId runtimeId : Uuid) (details : Value) (now : DateTime)
    (eventId : Uuid) :
    Refines (appendProgress x operationId runtimeId details now eventId)
      (Operations.appendProgress x operationId runtimeId details now eventId) := by
  refine ⟨_, ?_, fun _ => rfl⟩
  unfold appendProgress
  refine Settles.first (follows_statement _) (Settles.bind (follows_fetch _) fun _ => ?_)
  refine Settles.bind (follows_lift _) fun _ => Settles.bind (follows_lift _) fun _ => ?_
  exact Settles.bind (follows_appendEventTx ..) fun event => settles_commit (.ok event)

theorem refines_insertPlanned (runtimeId : Uuid) (operation : NewOperation) (createdAt : DateTime)
    (eventId : Uuid) :
    Refines (insertPlanned x runtimeId operation createdAt eventId)
      (Operations.insertPlanned x runtimeId operation createdAt eventId) := by
  refine ⟨_, ?_, fun _ => rfl⟩
  unfold insertPlanned
  refine Settles.bind (follows_lift _) fun prepared => Settles.first (follows_statement _) ?_
  refine Settles.bind (follows_statement _) fun t => ?_
  cases t.operations.find? (sameIdempotencyKey (prepared.row createdAt)) with
  | some found =>
    refine Settles.bind (follows_lift _) fun existing => ?_
    split
    · exact settles_commit (.ok existing)
    · exact settles_throw _
  | none =>
    refine Settles.bind (follows_statement _) fun _ => ?_
    refine Settles.bind (follows_appendEventTx ..) fun _ => ?_
    exact Settles.bind (follows_fetch _) fun record => settles_commit (.ok record)

theorem refines_decideApproval (command : OperationApprovalCommand) (approvalId eventId : Uuid) :
    Refines (decideApproval x command approvalId eventId)
      (Operations.decideApproval x command approvalId eventId) := by
  refine ⟨_, ?_, fun _ => rfl⟩
  unfold decideApproval
  refine Settles.bind (follows_lift _) fun _ => Settles.bind (follows_lift _) fun _ => ?_
  refine Settles.first (follows_statement _) (Settles.bind (follows_fetch _) fun current => ?_)
  refine Settles.bind (follows_lift _) fun _ => Settles.bind (follows_lift _) fun _ => ?_
  refine Settles.bind (follows_lift _) fun _ => Settles.bind (follows_lift _) fun _ => ?_
  split
  · refine Settles.bind (follows_transitionTx ..) fun _ => ?_
    exact settles_commit (.error _)
  · refine Settles.bind (follows_statement _) fun _ => ?_
    exact Settles.bind (follows_transitionTx ..) fun updated => settles_commit (.ok updated)

theorem refines_claimExecution (operationId runtimeId : Uuid) (now : DateTime) (eventId : Uuid) :
    Refines (claimExecution x operationId runtimeId now eventId)
      (Operations.claimExecution x operationId runtimeId now eventId) := by
  refine ⟨_, ?_, fun _ => rfl⟩
  unfold claimExecution
  refine Settles.first (follows_statement _) (Settles.bind (follows_fetch _) fun current => ?_)
  refine Settles.bind (follows_lift _) fun _ => Settles.bind (follows_lift _) fun _ => ?_
  refine Settles.bind (follows_lift _) fun _ => ?_
  split
  · refine Settles.bind (follows_transitionTx ..) fun _ => ?_
    exact settles_commit (.error _)
  · by_cases happroved : current.state = .approved
    · simp only [happroved, if_true]
      refine Settles.congr (Settles.bind (follows_statement _) fun _ =>
        Settles.bind (follows_lift _) fun _ => Settles.bind (follows_transitionTx ..)
          fun updated => settles_commit (.ok updated)) fun t => ?_
      simp only [bind_assoc, pure_bind, Tx.get_bind, Tx.refuseIf_bind, true_and]
    · simp only [happroved, if_false]
      refine Settles.congr (Settles.bind (follows_transitionTx ..)
        fun updated => settles_commit (.ok updated)) fun t => ?_
      simp only [Tx.get_bind, Tx.refuseIf_bind, false_and, if_false]

/-! ### What a failed call leaves -/

/-- One operation expired, and nothing else happened: its row moved to `expired`, and one event
says so. -/
def Expires (id : Uuid) (states : List OperationState) (now : DateTime) (t t' : Tables) : Prop :=
  ∃ before row after event,
    t.operations = before ++ row :: after ∧ row.id = id ∧ row.state ∈ states ∧
    row.expiresAt.any (· ≤ now) ∧
    t'.operations = before ++
      { row with state := .expired, updatedAt := now, finishedAt := some now } :: after ∧
    t'.approvals = t.approvals ∧ t'.events = t.events ++ [event] ∧
    event.operationId = id ∧ event.kind = .expired ∧ event.state = .expired

/-- An update of the only row a condition selects. -/
theorem map_update_of_countP {α : Type} {p : α → Bool} {f : α → α} {rows : List α} {row : α}
    (hcount : rows.countP p = 1) (hrow : row ∈ rows) (hp : p row) :
    ∃ before after, rows = before ++ row :: after ∧
      (rows.map fun r => if p r then f r else r) = before ++ f row :: after := by
  obtain ⟨before, after, rfl⟩ := List.append_of_mem hrow
  rw [List.countP_append, List.countP_cons_of_pos hp] at hcount
  have hnone : ∀ l : List α, l.countP p = 0 → (l.map fun r => if p r then f r else r) = l := by
    intro l hl
    rw [List.countP_eq_zero] at hl
    exact (List.map_congr_left fun r hr => if_neg (hl r hr)).trans (List.map_id' l)
  have hbefore := hnone before (by omega)
  have hafter := hnone after (by omega)
  refine ⟨before, after, rfl, ?_⟩
  rw [List.map_append, List.map_cons, hbefore, hafter, if_pos hp]

/-- The inversion of `transition_tx` to `expired` for a row just fetched. -/
theorem expires_of_transitionTx {t t' : Tables} {id eventId : Uuid} {current op : OperationRecord}
    {details : Value} {now : DateTime} {states : List OperationState}
    (hfetch : Operations.fetchOperationTx x id t = .ok (current, t))
    (hstate : current.state ∈ states) (hexpired : current.expiresAt.any (· ≤ now))
    (h : Operations.transitionTx x current .expired details now eventId t = .ok (op, t')) :
    Expires id states now t t' := by
  obtain ⟨row, stored, hfound, -, rfl, -⟩ := fetchOperationTx_eq_ok.1 hfetch
  obtain ⟨hrow, hid⟩ := mem_of_row? hfound
  rw [Operations.transitionTx, Tx.lift_bind_eq_ok] at h
  obtain ⟨⟨⟩, -, h⟩ := h
  simp only [Tx.get_bind_eq_ok, Tx.refuseIf_bind_eq_ok, Tx.set_bind_eq_ok, not_not] at h
  obtain ⟨hcount, h⟩ := h
  obtain ⟨_, t₁, happend, h⟩ := Tx.bind_eq_ok.1 h
  obtain ⟨-, -, -, _, -, -, rfl⟩ := appendEventTx_eq_ok.1 happend
  obtain ⟨_, _, -, -, -, rfl⟩ := fetchOperationTx_eq_ok.1 h
  have hupdates : updates (row.toRecord stored) .expired now row := by
    simp [updates, OperationRow.toRecord]
  obtain ⟨before, after, hrows, hmoved⟩ :=
    map_update_of_countP (f := (·.moved .expired now)) hcount hrow hupdates
  exact ⟨before, row, after, _, hrows, hid, hstate, hexpired, hmoved, rfl, rfl, hid, rfl, rfl⟩

variable {t t' : Tables} {e : AppError}

theorem insertPlanned_error {runtimeId eventId : Uuid} {operation : NewOperation}
    {createdAt : DateTime}
    (h : Operations.insertPlanned x runtimeId operation createdAt eventId t = (.error e, t')) :
    t' = t := by
  rcases Tx.settle_cases h with ⟨r, t₁, hm, hout⟩ | ⟨e', hout⟩
  · obtain ⟨rfl, rfl⟩ := Prod.mk.inj hout
    obtain ⟨prepared, -, hm⟩ := Tx.lift_bind_eq_ok.1 hm
    rw [Tx.get_bind_eq_ok] at hm
    cases hfind : t.operations.find? (sameIdempotencyKey (prepared.row createdAt)) with
    | some found =>
      simp only [hfind] at hm
      obtain ⟨existing, -, hm⟩ := Tx.lift_bind_eq_ok.1 hm
      split_ifs at hm
      · exact nomatch (Tx.pure_eq_ok.1 hm).1
      · exact (Tx.throw_eq_ok.1 hm).elim
    | none =>
      simp only [hfind] at hm
      obtain ⟨_, _, -, hm⟩ := Tx.bind_eq_ok.1 hm
      obtain ⟨_, _, -, hm⟩ := Tx.bind_eq_ok.1 hm
      obtain ⟨_, _, -, hm⟩ := Tx.bind_eq_ok.1 hm
      cases (Tx.pure_eq_ok.1 hm).1
  · exact (Prod.mk.inj hout).2

theorem transition_error {operationId runtimeId eventId : Uuid} {target : OperationState}
    {details : Value} {now : DateTime}
    (h : Operations.transition x operationId runtimeId target details now eventId t =
      (.error e, t')) : t' = t := by
  rcases Tx.settle_cases h with ⟨r, t₁, hm, hout⟩ | ⟨e', hout⟩
  · obtain ⟨rfl, rfl⟩ := Prod.mk.inj hout
    obtain ⟨-, hm⟩ := Tx.refuseIf_bind_eq_ok.1 hm
    obtain ⟨_, _, -, hm⟩ := Tx.bind_eq_ok.1 hm
    obtain ⟨_, -, hm⟩ := Tx.lift_bind_eq_ok.1 hm
    obtain ⟨_, _, -, hm⟩ := Tx.bind_eq_ok.1 hm
    exact nomatch (Tx.pure_eq_ok.1 hm).1
  · exact (Prod.mk.inj hout).2

theorem appendProgress_error {operationId runtimeId eventId : Uuid} {details : Value}
    {now : DateTime}
    (h : Operations.appendProgress x operationId runtimeId details now eventId t =
      (.error e, t')) : t' = t := by
  rcases appendProgress_cases operationId runtimeId details now eventId with
    ⟨e', hout⟩ | ⟨_, -, _, -, -, -, hout⟩
  · exact (Prod.mk.inj (h.symm.trans hout)).2
  · exact nomatch (Prod.mk.inj (h.symm.trans hout)).1

theorem claimExecution_error {operationId runtimeId eventId : Uuid} {now : DateTime}
    (h : Operations.claimExecution x operationId runtimeId now eventId t = (.error e, t')) :
    t' = t ∨ Expires operationId [.ready, .approved] now t t' := by
  rcases Tx.settle_cases h with ⟨r, t₁, hm, hout⟩ | ⟨e', hout⟩
  · obtain ⟨rfl, rfl⟩ := Prod.mk.inj hout
    obtain ⟨current, _, hfetch, hm⟩ := Tx.bind_eq_ok.1 hm
    obtain ⟨-, -, -, -, -, rfl⟩ := fetchOperationTx_eq_ok.1 hfetch
    obtain ⟨⟨⟩, -, hm⟩ := Tx.lift_bind_eq_ok.1 hm
    simp only [Tx.refuseIf_bind_eq_ok] at hm
    obtain ⟨hstate, -, hm⟩ := hm
    split_ifs at hm with hexpired
    · obtain ⟨op, _, htransition, hm⟩ := Tx.bind_eq_ok.1 hm
      obtain ⟨-, rfl⟩ := Tx.pure_eq_ok.1 hm
      refine .inr (expires_of_transitionTx hfetch ?_ hexpired htransition)
      simp only [List.mem_cons, List.not_mem_nil, or_false]
      tauto
    · simp only [Tx.get_bind_eq_ok, Tx.refuseIf_bind_eq_ok] at hm
      obtain ⟨_, _, -, hm⟩ := Tx.bind_eq_ok.1 hm.2
      cases (Tx.pure_eq_ok.1 hm).1
  · exact .inl (Prod.mk.inj hout).2

theorem decideApproval_error {command : OperationApprovalCommand} {approvalId eventId : Uuid}
    (h : Operations.decideApproval x command approvalId eventId t = (.error e, t')) :
    t' = t ∨ Expires command.operationId [.pendingApproval] command.now t t' := by
  rcases Tx.settle_cases h with ⟨r, t₁, hm, hout⟩ | ⟨e', hout⟩
  · obtain ⟨rfl, rfl⟩ := Prod.mk.inj hout
    simp only [Tx.refuseIf_bind_eq_ok] at hm
    obtain ⟨-, -, hm⟩ := hm
    obtain ⟨current, _, hfetch, hm⟩ := Tx.bind_eq_ok.1 hm
    obtain ⟨-, -, -, -, -, rfl⟩ := fetchOperationTx_eq_ok.1 hfetch
    obtain ⟨⟨⟩, -, hm⟩ := Tx.lift_bind_eq_ok.1 hm
    simp only [Tx.refuseIf_bind_eq_ok, not_not] at hm
    obtain ⟨hstate, -, -, hm⟩ := hm
    split_ifs at hm with hexpired
    · obtain ⟨op, _, htransition, hm⟩ := Tx.bind_eq_ok.1 hm
      obtain ⟨-, rfl⟩ := Tx.pure_eq_ok.1 hm
      exact .inr (expires_of_transitionTx hfetch (List.mem_singleton.2 hstate) hexpired htransition)
    · obtain ⟨_, _, -, hm⟩ := Tx.bind_eq_ok.1 hm
      obtain ⟨_, _, -, hm⟩ := Tx.bind_eq_ok.1 hm
      cases (Tx.pure_eq_ok.1 hm).1
  · exact .inl (Prod.mk.inj hout).2

/-- The tables after a call that failed are as before, or as `Except` allows. -/
def OnError {α : Type} (call : RepositoryM α) (After : Tables → Tables → Prop) : Prop :=
  ∀ faults t e t', perform call faults t = (.error e, t') → t' = t ∨ After t t'

/-- What holds of a method that fails holds of its call, whichever statement fails. -/
theorem Refines.onError {α : Type} {call : RepositoryM α} {method : Tables → AppResult α × Tables}
    {After : Tables → Tables → Prop} (h : Refines call method)
    (herror : ∀ t e t', method t = (.error e, t') → t' = t ∨ After t t') : OnError call After := by
  intro faults t e t' hcall
  rcases h.perform faults t with hmethod | ⟨e', hfailed⟩
  · exact herror t e t' (hmethod.symm.trans hcall)
  · rw [hfailed] at hcall
    exact .inl (Prod.mk.inj hcall).2.symm

/-- **A failed call leaves no trace.** Whatever the tables hold and whichever statement of the call
fails: if `insert_planned`, `transition` or `append_progress` reports an error, the three tables are
as before. So they are after `claim_execution` and `decide_approval`, except that these may have
found the operation past its expiry; then its row has moved to `expired`, one event says so, and
there is no new approval. -/
theorem failed_call_leaves_no_trace (x : Crates) :
    (∀ runtimeId operation createdAt eventId,
      OnError (insertPlanned x runtimeId operation createdAt eventId) fun _ _ => False) ∧
    (∀ operationId runtimeId target details now eventId,
      OnError (transition x operationId runtimeId target details now eventId) fun _ _ => False) ∧
    (∀ operationId runtimeId details now eventId,
      OnError (appendProgress x operationId runtimeId details now eventId) fun _ _ => False) ∧
    (∀ operationId runtimeId now eventId,
      OnError (claimExecution x operationId runtimeId now eventId)
        (Expires operationId [.ready, .approved] now)) ∧
    (∀ command approvalId eventId,
      OnError (decideApproval x command approvalId eventId)
        (Expires command.operationId [.pendingApproval] command.now)) := by
  refine ⟨fun _ _ _ _ => ?_, fun _ _ _ _ _ _ => ?_, fun _ _ _ _ _ => ?_, fun _ _ _ _ => ?_,
    fun _ _ _ => ?_⟩
  · exact (refines_insertPlanned ..).onError fun _ _ _ h => .inl (insertPlanned_error h)
  · exact (refines_transition ..).onError fun _ _ _ h => .inl (transition_error h)
  · exact (refines_appendProgress ..).onError fun _ _ _ h => .inl (appendProgress_error h)
  · exact (refines_claimExecution ..).onError fun _ _ _ h => claimExecution_error h
  · exact (refines_decideApproval ..).onError fun _ _ _ h => decideApproval_error h

end Statements
end Operations
end AgentDb
