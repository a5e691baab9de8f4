import AgentDb.Operations.Repository

/-!
# What a committed call writes

Four elementary writes change the tables: a row is planned, an approval is recorded, a row moves
to another state, progress is noted; a fifth, the claim, moves a row to `executing`. The lemmas
of this file invert the methods of the repository: a call that commits is a chain of `Write`s or
one `Claim`, and a call that fails leaves the tables alone. Everything later is proved of these
five writes.
-/

namespace AgentDb
namespace Operations

open Json Relation

variable {x : Crates} {t t' : Tables}

/-! ### Rows and keys -/

/-- The key of `operations`. -/
def Tables.UniqueIds (t : Tables) : Prop := (t.operations.map (·.id)).Nodup

theorem Tables.UniqueIds.eq (h : t.UniqueIds) {a b : OperationRow} (ha : a ∈ t.operations)
    (hb : b ∈ t.operations) (hid : a.id = b.id) : a = b :=
  List.inj_on_of_nodup_map h ha hb hid

theorem mem_of_row? {id : Uuid} {row : OperationRow} (h : t.row? id = some row) :
    row ∈ t.operations ∧ row.id = id := by
  refine ⟨List.mem_of_find?_eq_some h, ?_⟩
  simpa using List.find?_some h

theorem row?_eq_none {id : Uuid} : t.row? id = none ↔ ∀ row ∈ t.operations, row.id ≠ id := by
  simp [Tables.row?]

theorem row?_of_mem (h : t.UniqueIds) {row : OperationRow} (hrow : row ∈ t.operations) :
    t.row? row.id = some row := by
  obtain ⟨r, hr⟩ : ∃ r, t.row? row.id = some r := by
    rw [← Option.isSome_iff_exists, Tables.row?, List.find?_isSome]
    exact ⟨row, hrow, by simp⟩
  obtain ⟨hmem, hid⟩ := mem_of_row? hr
  rw [hr, h.eq hmem hrow hid]

/-- The stored columns can be decoded. -/
def OperationRow.Readable (x : Crates) (row : OperationRow) : Prop :=
  ∃ stored, storedPayload x row = .ok stored

theorem rowToOperation_eq_ok {row : OperationRow} {op : OperationRecord} :
    rowToOperation x row = .ok op ↔ ∃ stored, storedPayload x row = .ok stored ∧
      row.toRecord stored = op := by
  simp only [rowToOperation, Except.bind_eq_ok, Except.pure_eq_ok]

theorem fetchOperationTx_eq_ok {id : Uuid} {op : OperationRecord} :
    fetchOperationTx x id t = .ok (op, t') ↔ ∃ row stored, t.row? id = some row ∧
      storedPayload x row = .ok stored ∧ row.toRecord stored = op ∧ t = t' := by
  rw [fetchOperationTx, Tx.get_bind_eq_ok]
  cases hrow : t.row? id with
  | none => simp [Tx.throw_eq_ok]
  | some row => simp [Tx.lift_eq_ok, rowToOperation_eq_ok, ← and_assoc, exists_and_right]

theorem parseCanonicalJson_canonicalJson (hx : x.RoundTrips) {v : Value} (hv : v.NoFloat) :
    parseCanonicalJson x (canonicalJson x v) = .ok (canonicalValue v) := by
  rw [parseCanonicalJson, fromStr_canonicalJson hx hv]
  simp [bind, Except.bind, pure, Except.pure, refuseIf, canonicalJson_canonicalValue]

theorem ensureRuntime_eq_ok {op : OperationRecord} {r : Uuid} {u : Unit} :
    ensureRuntime op r = .ok u ↔ op.runtimeId = r := by
  rw [ensureRuntime, refuseIf_eq_ok, not_ne_iff]

/-! ### The event a write appends -/

/-- The row `append_event_tx` inserts. -/
def nextEvent (x : Crates) (t : Tables) (operationId : Uuid) (kind : OperationEventKind)
    (state : OperationState) (details : Value) (createdAt : DateTime) (eventId : Uuid) :
    OperationEventRow :=
  let tail := (t.ledger operationId).getLast?
  let sequence := (tail.map (·.sequence)).getD 0 + 1
  let prevHash := tail.map (·.hash)
  let eventJson := canonicalJson x details
  { id := eventId, operationId, sequence, kind, state, eventJson, createdAt, prevHash
    hash := eventHash x
      { eventId, operationId, sequence, kind, state, eventJson, createdAt, prevHash } }

/-- The tables with one more event. -/
def Tables.addEvent (t : Tables) (e : OperationEventRow) : Tables :=
  { t with events := t.events ++ [e] }

/-- The constraints an event row has to meet. -/
structure EventFits (x : Crates) (t : Tables) (e : OperationEventRow) : Prop where
  id_new : ∀ e' ∈ t.events, e'.id ≠ e.id
  sequence_new : ∀ e' ∈ t.events, e'.operationId = e.operationId → e'.sequence ≠ e.sequence
  operation_exists : t.row? e.operationId ≠ none
  json_valid : x.jsonValid e.eventJson = true
  hash_valid : isLowerSha256 e.hash = true
  prevHash_valid : (e.prevHash.map isLowerSha256).getD true = true

theorem insertEvent_eq_ok {e : OperationEventRow} {u : Unit} :
    insertEvent x e t = .ok (u, t') ↔ EventFits x t e ∧ t.addEvent e = t' := by
  simp only [insertEvent, Tx.get_bind_eq_ok, Tx.refuseIf_bind_eq_ok, Tx.set_eq_ok, not_not,
    List.any_eq_true, decide_eq_true_eq, not_exists, not_and, not_or, Bool.not_eq_false]
  constructor
  · rintro ⟨h1, h2, h3, h4, ⟨h5, h6⟩, rfl⟩
    exact ⟨⟨h1, h2, h3, h4, h5, h6⟩, rfl⟩
  · rintro ⟨⟨h1, h2, h3, h4, h5, h6⟩, rfl⟩
    exact ⟨h1, h2, h3, h4, ⟨h5, h6⟩, rfl⟩

theorem appendEventTx_eq_ok {id eventId : Uuid} {kind : OperationEventKind}
    {state : OperationState} {details : Value} {now : DateTime} {ev : OperationEventRecord} :
    appendEventTx x id kind state details now eventId t = .ok (ev, t') ↔
      let e := nextEvent x t id kind state details now eventId
      (canonicalJson x details).utf8ByteSize ≤ maxResponseBytes ∧
      (t.ledger id).getLast?.map (·.sequence) ≠ some maxSequence ∧ EventFits x t e ∧
      ∃ d, fromStr x (canonicalJson x details) = .ok d ∧ e.toRecord d = ev ∧ t.addEvent e = t' := by
  simp only [appendEventTx, Tx.get_bind_eq_ok, Tx.refuseIf_bind_eq_ok, not_lt]
  constructor
  · rintro ⟨hsize, hseq, h⟩
    obtain ⟨_, t₁, hins, h⟩ := Tx.bind_eq_ok.1 h
    obtain ⟨hfits, rfl⟩ := insertEvent_eq_ok.1 hins
    obtain ⟨d, hd, h⟩ := Tx.lift_bind_eq_ok.1 h
    obtain ⟨rfl, rfl⟩ := Tx.pure_eq_ok.1 h
    exact ⟨hsize, hseq, hfits, d, hd, rfl, rfl⟩
  · rintro ⟨hsize, hseq, hfits, d, hd, rfl, rfl⟩
    refine ⟨hsize, hseq, Tx.bind_eq_ok.2 ⟨⟨⟩, _, insertEvent_eq_ok.2 ⟨hfits, rfl⟩, ?_⟩⟩
    exact Tx.lift_bind_eq_ok.2 ⟨d, hd, Tx.pure_eq_ok.2 ⟨rfl, rfl⟩⟩

/-! ### Moving a row -/

/-- The tables after a row moved: the row itself, and its event. -/
def Tables.moveRow (x : Crates) (t : Tables) (row : OperationRow) (target : OperationState)
    (details : Value) (now : DateTime) (eventId : Uuid) : Tables where
  operations := t.operations.map fun r => if r.id = row.id then r.moved target now else r
  approvals := t.approvals
  events := t.events ++
    [nextEvent x t row.id (transitionEventKind target) target details now eventId]

/-- A row the `WHERE` of the update selects. -/
theorem exists_of_updates {current : OperationRecord} {target : OperationState} {now : DateTime}
    (h : t.operations.countP (updates current target now) = 1) :
    ∃ row ∈ t.operations, updates current target now row := by
  by_contra hnone
  push Not at hnone
  rw [List.countP_eq_zero.2 hnone] at h
  exact absurd h (by decide)

theorem update_eq_moveRow (hids : t.UniqueIds) {current : OperationRecord}
    {target : OperationState} {now : DateTime} {row : OperationRow} (hrow : row ∈ t.operations)
    (hup : updates current target now row) :
    (t.update current target now).operations =
      t.operations.map fun r => if r.id = row.id then r.moved target now else r := by
  refine List.map_congr_left fun r hr => ?_
  by_cases hid : r.id = row.id
  · rw [hids.eq hr hrow hid, if_pos hup, if_pos rfl]
  · have hcur : row.id = current.id := by
      simp only [updates, Bool.and_eq_true, decide_eq_true_eq] at hup
      exact hup.1.1.1
    have hno : updates current target now r = false := by
      simp [updates, ← hcur, hid]
    simp [hno, hid]

theorem ledger_update {current : OperationRecord} {target : OperationState} {now : DateTime}
    (id : Uuid) : (t.update current target now).ledger id = t.ledger id := rfl

theorem id_of_updates {current : OperationRecord} {target : OperationState} {now : DateTime}
    {row : OperationRow} (h : updates current target now row) :
    row.id = current.id ∧ row.state = current.state := by
  simp only [updates, Bool.and_eq_true, decide_eq_true_eq] at h
  exact h.1.1

/-- The inversion of `transition_tx`: a row with the state read before moved along the table. -/
theorem transitionTx_eq_ok (hids : t.UniqueIds) {current op : OperationRecord}
    {target : OperationState} {details : Value} {now : DateTime} {eventId : Uuid}
    (h : transitionTx x current target details now eventId t = .ok (op, t')) :
    ∃ row ∈ t.operations, updates current target now row ∧ allowed row.state target ∧
      t' = t.moveRow x row target details now eventId ∧
      ∃ stored, storedPayload x row = .ok stored ∧ (row.moved target now).toRecord stored = op := by
  rw [transitionTx, Tx.lift_bind_eq_ok] at h
  obtain ⟨⟨⟩, hallowed, h⟩ := h
  simp only [Tx.get_bind_eq_ok, Tx.refuseIf_bind_eq_ok, Tx.set_bind_eq_ok, not_not] at h
  obtain ⟨hcount, h⟩ := h
  obtain ⟨_, t₁, happend, h⟩ := Tx.bind_eq_ok.1 h
  obtain ⟨row, hrow, hup⟩ := exists_of_updates hcount
  obtain ⟨hid, hstate⟩ := id_of_updates hup
  obtain ⟨-, -, -, _, -, -, rfl⟩ := appendEventTx_eq_ok.1 happend
  obtain ⟨row', stored, hfound, hstored, rfl, rfl⟩ := fetchOperationTx_eq_ok.1 h
  have hmoved : ∀ r ∈ t.operations.map fun r => if r.id = row.id then r.moved target now else r,
      r.id = row.id → r = row.moved target now := by
    intro r hr hrid
    obtain ⟨r', hr', rfl⟩ := List.mem_map.1 hr
    by_cases hr'id : r'.id = row.id
    · rw [if_pos hr'id, hids.eq hr' hrow hr'id]
    · rw [if_neg hr'id] at hrid
      exact absurd hrid hr'id
  have hrow' : row' = row.moved target now := by
    obtain ⟨hmem, hid'⟩ := mem_of_row? hfound
    refine hmoved row' ?_ (hid'.trans hid.symm)
    rw [← update_eq_moveRow hids hrow hup]
    exact hmem
  refine ⟨row, hrow, hup, ?_, ?_, stored, ?_, ?_⟩
  · rw [hstate]
    cases hcase : ensureTransition current.state target with
    | ok => exact ensureTransition_eq_ok.1 hcase
    | error e => simp [hcase, Except.mapError] at hallowed
  · rw [Tables.moveRow, Tables.addEvent, update_eq_moveRow hids hrow hup, hid]
    rfl
  · rw [hrow'] at hstored
    exact hstored
  · rw [hrow']

/-! ### The methods -/

/-- The approval a claim from `approved` rests on. -/
def ApprovedBy (t : Tables) (row : OperationRow) (a : OperationApprovalRecord) : Prop :=
  a ∈ t.approvals ∧ a.operationId = row.id ∧ a.payloadHash = row.payloadHash ∧
    a.decision = .approved ∧ a.policyRevision = row.policyRevision

/-- When a row may be claimed. -/
def Claimable (t : Tables) (row : OperationRow) : Prop :=
  row.state = .ready ∧ row.kind.mayMutateTarget = false ∨
    row.state = .approved ∧ ∃ a, ApprovedBy t row a

theorem exists_approvedBy {row : OperationRow} {stored : StoredPayload} {now : DateTime}
    (h : hasExactApproval t (row.toRecord stored) now) : ∃ a, ApprovedBy t row a := by
  simp only [hasExactApproval, List.any_eq_true, Bool.and_eq_true, decide_eq_true_eq] at h
  obtain ⟨a, ha, ⟨⟨⟨hid, hhash⟩, hdecision⟩, hpolicy⟩, -⟩ := h
  exact ⟨a, ha, hid, hhash, hdecision, hpolicy⟩

/-- The inversion of `transition_tx` for a row just fetched. -/
theorem transitionTx_of_row (hids : t.UniqueIds) {id : Uuid} {row : OperationRow}
    {stored : StoredPayload} (hfound : t.row? id = some row) {op : OperationRecord}
    {target : OperationState} {details : Value} {now : DateTime} {eventId : Uuid}
    (h : transitionTx x (row.toRecord stored) target details now eventId t = .ok (op, t')) :
    allowed row.state target ∧ (op.id = row.id ∧ op.state = target) ∧
      t' = t.moveRow x row target details now eventId := by
  obtain ⟨row', hrow', hup, hallowed, rfl, stored', -, rfl⟩ := transitionTx_eq_ok hids h
  obtain ⟨hrow, -⟩ := mem_of_row? hfound
  obtain rfl : row' = row := hids.eq hrow' hrow (id_of_updates hup).1
  exact ⟨hallowed, ⟨rfl, rfl⟩, rfl⟩

/-- `transition` moves a row of the caller's runtime, anywhere but to `executing`, or fails. -/
theorem transition_cases (hids : t.UniqueIds) (id r : Uuid) (target : OperationState)
    (details : Value) (now : DateTime) (eventId : Uuid) :
    (∃ e, transition x id r target details now eventId t = (.error e, t)) ∨
      ∃ row ∈ t.operations, ∃ op, row.id = id ∧ row.runtimeId = r ∧ target ≠ .executing ∧
        allowed row.state target ∧ (op.id = row.id ∧ op.state = target) ∧
        transition x id r target details now eventId t =
          (.ok op, t.moveRow x row target details now eventId) := by
  generalize hout : transition x id r target details now eventId t = out
  rcases Tx.settle_cases hout with ⟨res, t₁, hm, rfl⟩ | ⟨e, rfl⟩
  · right
    simp only [Tx.refuseIf_bind_eq_ok] at hm
    obtain ⟨hne, hm⟩ := hm
    obtain ⟨current, _, hfetch, hm⟩ := Tx.bind_eq_ok.1 hm
    obtain ⟨row, stored, hfound, -, rfl, rfl⟩ := fetchOperationTx_eq_ok.1 hfetch
    obtain ⟨⟨⟩, hruntime, hm⟩ := Tx.lift_bind_eq_ok.1 hm
    obtain ⟨op, _, htransition, hm⟩ := Tx.bind_eq_ok.1 hm
    obtain ⟨rfl, rfl⟩ := Tx.pure_eq_ok.1 hm
    obtain ⟨hallowed, hop, rfl⟩ := transitionTx_of_row hids hfound htransition
    obtain ⟨hrow, hid⟩ := mem_of_row? hfound
    exact ⟨row, hrow, op, hid, ensureRuntime_eq_ok.1 hruntime, hne, hallowed, hop, rfl⟩
  · exact .inl ⟨e, rfl⟩

/-- The details of an `execution_started` event. -/
def claimDetails (row : OperationRow) : Value := .object [("payloadHash", .string row.payloadHash)]

/-- The details of the event of a decision. -/
def decisionDetails (row : OperationRow) (approver : OperationApprover) (approvalId : Uuid) :
    Value :=
  .object [("approvalId", .string approvalId.toText), ("approverId", .string approver.id),
    ("approverKind", .string (actorKindStr approver.kind)),
    ("payloadHash", .string row.payloadHash), ("policyRevision", .string row.policyRevision)]

/-- `claim_execution` fails, expires the row and fails, or moves a claimable row to
`executing`. -/
theorem claimExecution_cases (hids : t.UniqueIds) (id r : Uuid) (now : DateTime) (eventId : Uuid) :
    (∃ e, claimExecution x id r now eventId t = (.error e, t)) ∨
      ∃ row ∈ t.operations, row.id = id ∧ row.runtimeId = r ∧
        (row.state = .ready ∨ row.state = .approved) ∧
        ((∃ e, claimExecution x id r now eventId t = (.error e,
            t.moveRow x row .expired (reasonDetails "operation_expired") now eventId)) ∨
          ∃ op, (op.id = row.id ∧ op.state = .executing) ∧ Claimable t row ∧
            claimExecution x id r now eventId t =
              (.ok op, t.moveRow x row .executing (claimDetails row) now eventId)) := by
  generalize hout : claimExecution x id r now eventId t = out
  rcases Tx.settle_cases hout with ⟨res, t₁, hm, rfl⟩ | ⟨e, rfl⟩
  · right
    obtain ⟨current, _, hfetch, hm⟩ := Tx.bind_eq_ok.1 hm
    obtain ⟨row, stored, hfound, -, rfl, rfl⟩ := fetchOperationTx_eq_ok.1 hfetch
    obtain ⟨hrow, hid⟩ := mem_of_row? hfound
    obtain ⟨⟨⟩, hruntime, hm⟩ := Tx.lift_bind_eq_ok.1 hm
    simp only [Tx.refuseIf_bind_eq_ok] at hm
    obtain ⟨hstate, hready, hm⟩ := hm
    have hexecutable : row.state = .ready ∨ row.state = .approved := by
      by_contra hno
      exact hstate (not_or.1 hno)
    refine ⟨row, hrow, hid, ensureRuntime_eq_ok.1 hruntime, hexecutable, ?_⟩
    split_ifs at hm with hexpired
    · left
      obtain ⟨op, _, htransition, hm⟩ := Tx.bind_eq_ok.1 hm
      obtain ⟨rfl, rfl⟩ := Tx.pure_eq_ok.1 hm
      obtain ⟨-, -, rfl⟩ := transitionTx_of_row hids hfound htransition
      exact ⟨_, rfl⟩
    · right
      simp only [Tx.get_bind_eq_ok, Tx.refuseIf_bind_eq_ok] at hm
      obtain ⟨happroved, hm⟩ := hm
      obtain ⟨op, _, htransition, hm⟩ := Tx.bind_eq_ok.1 hm
      obtain ⟨rfl, rfl⟩ := Tx.pure_eq_ok.1 hm
      obtain ⟨-, hop, rfl⟩ := transitionTx_of_row hids hfound htransition
      refine ⟨op, hop, ?_, rfl⟩
      rcases hexecutable with hs | hs
      · exact .inl ⟨hs, by simpa [OperationRow.toRecord, hs] using hready⟩
      · have hexact : hasExactApproval t (row.toRecord stored) now := by
          simpa [OperationRow.toRecord, hs] using happroved
        exact .inr ⟨hs, exists_approvedBy hexact⟩
  · exact .inl ⟨e, rfl⟩

theorem insertApproval_eq_ok {a : OperationApprovalRecord} {u : Unit}
    (h : insertApproval a t = .ok (u, t')) : t' = { t with approvals := t.approvals ++ [a] } := by
  simp only [insertApproval, Tx.get_bind_eq_ok, Tx.refuseIf_bind_eq_ok, Tx.set_eq_ok] at h
  exact h.2.2.2.symm

/-- `decide_approval` fails, expires the row and fails, or records the decision of an identified
user on exactly this payload and policy and moves the pending row accordingly. -/
theorem decideApproval_cases (hids : t.UniqueIds) (command : OperationApprovalCommand)
    (approvalId eventId : Uuid) :
    (∃ e, decideApproval x command approvalId eventId t = (.error e, t)) ∨
      ∃ row ∈ t.operations, row.id = command.operationId ∧ row.runtimeId = command.runtimeId ∧
        row.state = .pendingApproval ∧
        ((∃ e, decideApproval x command approvalId eventId t = (.error e,
            t.moveRow x row .expired (reasonDetails "approval_expired") command.now eventId)) ∨
          ∃ op a target, a.approver.identified ∧ a.operationId = row.id ∧
            a.payloadHash = row.payloadHash ∧ a.policyRevision = row.policyRevision ∧
            a.decision = command.decision ∧ a.approver = command.approver ∧
            target = (match command.decision with
              | .approved => OperationState.approved
              | .rejected => .rejected) ∧
            decideApproval x command approvalId eventId t = (.ok op,
              ({ t with approvals := t.approvals ++ [a] } : Tables).moveRow x row target
                (decisionDetails row command.approver approvalId) command.now eventId)) := by
  generalize hout : decideApproval x command approvalId eventId t = out
  rcases Tx.settle_cases hout with ⟨res, t₁, hm, rfl⟩ | ⟨e, rfl⟩
  · right
    simp only [Tx.refuseIf_bind_eq_ok, not_not] at hm
    obtain ⟨hidentified, -, hm⟩ := hm
    obtain ⟨current, _, hfetch, hm⟩ := Tx.bind_eq_ok.1 hm
    obtain ⟨row, stored, hfound, -, rfl, rfl⟩ := fetchOperationTx_eq_ok.1 hfetch
    obtain ⟨hrow, hid⟩ := mem_of_row? hfound
    obtain ⟨⟨⟩, hruntime, hm⟩ := Tx.lift_bind_eq_ok.1 hm
    simp only [Tx.refuseIf_bind_eq_ok, not_not] at hm
    obtain ⟨hstate, -, -, hm⟩ := hm
    refine ⟨row, hrow, hid, ensureRuntime_eq_ok.1 hruntime, hstate, ?_⟩
    split_ifs at hm with hexpired
    · left
      obtain ⟨op, _, htransition, hm⟩ := Tx.bind_eq_ok.1 hm
      obtain ⟨rfl, rfl⟩ := Tx.pure_eq_ok.1 hm
      obtain ⟨-, -, rfl⟩ := transitionTx_of_row hids hfound htransition
      exact ⟨_, rfl⟩
    · right
      obtain ⟨_, _, hinsert, hm⟩ := Tx.bind_eq_ok.1 hm
      obtain rfl := insertApproval_eq_ok hinsert
      obtain ⟨op, _, htransition, hm⟩ := Tx.bind_eq_ok.1 hm
      obtain ⟨rfl, rfl⟩ := Tx.pure_eq_ok.1 hm
      -- the decision row does not touch `operations`
      obtain ⟨-, -, rfl⟩ := transitionTx_of_row (t := { t with approvals := t.approvals ++ [_] })
        hids hfound htransition
      exact ⟨op, _, _, hidentified, rfl, rfl, rfl, rfl, rfl, rfl, rfl⟩
  · exact .inl ⟨e, rfl⟩

/-- `append_progress` fails or appends a progress event to an executing row of the caller. -/
theorem appendProgress_cases (id r : Uuid) (details : Value) (now : DateTime) (eventId : Uuid) :
    (∃ e, appendProgress x id r details now eventId t = (.error e, t)) ∨
      ∃ row ∈ t.operations, ∃ ev, row.id = id ∧ row.runtimeId = r ∧ row.state = .executing ∧
        appendProgress x id r details now eventId t = (.ok ev,
          t.addEvent (nextEvent x t row.id .progress .executing details now eventId)) := by
  generalize hout : appendProgress x id r details now eventId t = out
  rcases Tx.settle_cases hout with ⟨res, t₁, hm, rfl⟩ | ⟨e, rfl⟩
  · right
    obtain ⟨current, _, hfetch, hm⟩ := Tx.bind_eq_ok.1 hm
    obtain ⟨row, stored, hfound, -, rfl, rfl⟩ := fetchOperationTx_eq_ok.1 hfetch
    obtain ⟨hrow, rfl⟩ := mem_of_row? hfound
    obtain ⟨⟨⟩, hruntime, hm⟩ := Tx.lift_bind_eq_ok.1 hm
    simp only [Tx.refuseIf_bind_eq_ok, not_not] at hm
    obtain ⟨hstate, hm⟩ := hm
    obtain ⟨ev, _, happend, hm⟩ := Tx.bind_eq_ok.1 hm
    obtain ⟨rfl, rfl⟩ := Tx.pure_eq_ok.1 hm
    rw [hstate] at happend
    obtain ⟨-, -, -, _, -, -, rfl⟩ := appendEventTx_eq_ok.1 happend
    exact ⟨row, hrow, ev, rfl, ensureRuntime_eq_ok.1 hruntime, hstate, rfl⟩
  · exact .inl ⟨e, rfl⟩

theorem insertOperation_eq_ok {row : OperationRow} {u : Unit}
    (h : insertOperation x row t = .ok (u, t')) :
    t.row? row.id = none ∧ t' = { t with operations := t.operations ++ [row] } := by
  simp only [insertOperation, Tx.get_bind_eq_ok, Tx.refuseIf_bind_eq_ok, Tx.set_eq_ok,
    not_not] at h
  exact ⟨h.1, h.2.2.2.symm⟩

/-- The details of the first event of a row. -/
def plannedDetails (row : OperationRow) : Value :=
  .object [("payloadHash", .string row.payloadHash),
    ("riskLevel", .string (riskLevelStr row.riskLevel))]

theorem PreparedOperation.new_eq_ok {r : Uuid} {operation : NewOperation} {p : PreparedOperation}
    (h : PreparedOperation.new x r operation = .ok p) :
    p.runtimeId = r ∧ p.operation = operation := by
  simp only [PreparedOperation.new, Except.bind_eq_ok, Except.pure_eq_ok] at h
  obtain ⟨-, -, -, -, -, -, rfl⟩ := h
  exact ⟨rfl, rfl⟩

/-- `insert_planned` leaves the tables alone, with an operation of the same idempotency key or an
error, or adds a new planned row and its first event. -/
theorem insertPlanned_cases (r : Uuid) (operation : NewOperation) (createdAt : DateTime)
    (eventId : Uuid) :
    (∃ res, insertPlanned x r operation createdAt eventId t = (res, t) ∧ ∀ op, res = .ok op →
        ∃ found ∈ t.operations, found.idempotencyKey = operation.idempotencyKey) ∨
      ∃ prepared op, PreparedOperation.new x r operation = .ok prepared ∧
        let row := prepared.row createdAt
        (∀ r ∈ t.operations, r.id ≠ row.id) ∧ row.Readable x ∧
        insertPlanned x r operation createdAt eventId t = (.ok op,
          ({ t with operations := t.operations ++ [row] } : Tables).addEvent
            (nextEvent x t row.id .planned .planned (plannedDetails row) createdAt eventId)) := by
  generalize hout : insertPlanned x r operation createdAt eventId t = out
  rcases Tx.settle_cases hout with ⟨res, t₁, hm, rfl⟩ | ⟨e, rfl⟩
  · obtain ⟨prepared, hnew, hm⟩ := Tx.lift_bind_eq_ok.1 hm
    rw [Tx.get_bind_eq_ok] at hm
    cases hfind : t.operations.find? (sameIdempotencyKey (prepared.row createdAt)) with
    | some found =>
      simp only [hfind] at hm
      obtain ⟨existing, -, hm⟩ := Tx.lift_bind_eq_ok.1 hm
      split_ifs at hm
      · obtain ⟨rfl, rfl⟩ := Tx.pure_eq_ok.1 hm
        refine .inl ⟨_, rfl, fun _ _ => ⟨found, List.mem_of_find?_eq_some hfind, ?_⟩⟩
        have hkey := List.find?_some hfind
        simp only [sameIdempotencyKey, Bool.and_eq_true, decide_eq_true_eq] at hkey
        rw [← hkey.2, ← (PreparedOperation.new_eq_ok hnew).2]
        rfl
      · simp [Tx.throw_eq_ok] at hm
    | none =>
      right
      simp only [hfind] at hm
      obtain ⟨_, _, hinsert, hm⟩ := Tx.bind_eq_ok.1 hm
      obtain ⟨hfresh, rfl⟩ := insertOperation_eq_ok hinsert
      obtain ⟨_, _, happend, hm⟩ := Tx.bind_eq_ok.1 hm
      obtain ⟨-, -, -, _, -, -, rfl⟩ := appendEventTx_eq_ok.1 happend
      obtain ⟨op, _, hfetch, hm⟩ := Tx.bind_eq_ok.1 hm
      obtain ⟨rfl, rfl⟩ := Tx.pure_eq_ok.1 hm
      obtain ⟨row, stored, hfound, hstored, rfl, rfl⟩ := fetchOperationTx_eq_ok.1 hfetch
      obtain rfl : prepared.row createdAt = row := by
        have hnone := row?_eq_none.1 hfresh
        obtain ⟨hmem, hid⟩ := mem_of_row? hfound
        rcases List.mem_append.1 hmem with hold | hnewrow
        · exact absurd hid (hnone row hold)
        · exact (List.mem_singleton.1 hnewrow).symm
      refine ⟨prepared, (prepared.row createdAt).toRecord stored, hnew, row?_eq_none.1 hfresh,
        ⟨stored, hstored⟩, ?_⟩
      rw [plannedDetails, ← (PreparedOperation.new_eq_ok hnew).2]
      rfl
  · exact .inl ⟨_, rfl, fun _ h => by cases h⟩

/-! ### The writes -/

/-- An object whose values are texts, as the repository's own event details are. -/
def TextObject (v : Value) : Prop :=
  ∃ entries : List (String × String), v = .object (entries.map fun e => (e.1, .string e.2))

theorem noFloat_of_textObject {v : Value} (h : TextObject v) : v.NoFloat := by
  obtain ⟨entries, rfl⟩ := h
  refine .object fun e he => ?_
  obtain ⟨e', -, rfl⟩ := List.mem_map.1 he
  exact .string e'.2

/-- An elementary write. `D` holds of the details of its event. -/
inductive Write (x : Crates) (D : Value → Prop) : Tables → Tables → Prop
  | plan {t : Tables} {row : OperationRow} {details : Value} {now : DateTime} {eventId : Uuid}
      (fresh : ∀ r ∈ t.operations, r.id ≠ row.id) (readable : row.Readable x)
      (state : row.state = .planned) (notStarted : row.startedAt = none)
      (notFinished : row.finishedAt = none) (hdetails : D details) :
      Write x D t (({ t with operations := t.operations ++ [row] } : Tables).addEvent
        (nextEvent x t row.id .planned .planned details now eventId))
  | approve {t : Tables} {a : OperationApprovalRecord} (identified : a.approver.identified) :
      Write x D t { t with approvals := t.approvals ++ [a] }
  | move {t : Tables} {row : OperationRow} {target : OperationState} {details : Value}
      {now : DateTime} {eventId : Uuid} (mem : row ∈ t.operations)
      (step : allowed row.state target) (ne_executing : target ≠ .executing)
      (hdetails : D details) : Write x D t (t.moveRow x row target details now eventId)
  | progress {t : Tables} {row : OperationRow} {details : Value} {now : DateTime} {eventId : Uuid}
      (mem : row ∈ t.operations) (state : row.state = .executing) (hdetails : D details) :
      Write x D t (t.addEvent (nextEvent x t row.id .progress .executing details now eventId))

/-- The write of a claim: the operation `id` enters `executing`. -/
inductive Claim (x : Crates) (D : Value → Prop) (id : Uuid) : Tables → Tables → Prop
  | claim {t : Tables} {row : OperationRow} {details : Value} {now : DateTime} {eventId : Uuid}
      (mem : row ∈ t.operations) (hid : row.id = id) (claimable : Claimable t row)
      (hdetails : D details) : Claim x D id t (t.moveRow x row .executing details now eventId)

theorem textObject_reasonDetails (reason : String) : TextObject (reasonDetails reason) :=
  ⟨[("reason", reason)], rfl⟩

theorem textObject_plannedDetails (row : OperationRow) : TextObject (plannedDetails row) :=
  ⟨[("payloadHash", row.payloadHash), ("riskLevel", riskLevelStr row.riskLevel)], rfl⟩

theorem textObject_claimDetails (row : OperationRow) : TextObject (claimDetails row) :=
  ⟨[("payloadHash", row.payloadHash)], rfl⟩

theorem textObject_decisionDetails (row : OperationRow) (approver : OperationApprover)
    (approvalId : Uuid) : TextObject (decisionDetails row approver approvalId) :=
  ⟨[("approvalId", approvalId.toText), ("approverId", approver.id),
    ("approverKind", actorKindStr approver.kind), ("payloadHash", row.payloadHash),
    ("policyRevision", row.policyRevision)], rfl⟩

section Calls

variable {D : Value → Prop}

theorem map_id_moved (rows : List OperationRow) (id : Uuid) (target : OperationState)
    (now : DateTime) :
    (rows.map fun r => if r.id = id then r.moved target now else r).map (·.id) =
      rows.map (·.id) := by
  rw [List.map_map]
  refine List.map_congr_left fun r _ => ?_
  by_cases hid : r.id = id <;> simp [hid, OperationRow.moved]

theorem uniqueIds_moveRow {row : OperationRow} {target : OperationState} {details : Value}
    {now : DateTime} {eventId : Uuid} (h : t.UniqueIds) :
    (t.moveRow x row target details now eventId).UniqueIds := by
  rw [Tables.UniqueIds, Tables.moveRow, map_id_moved]
  exact h

/-- Keys stay unique under every write. -/
theorem Write.uniqueIds (h : Write x D t t') (hids : t.UniqueIds) : t'.UniqueIds := by
  cases h with
  | plan fresh =>
    simp only [Tables.UniqueIds, Tables.addEvent, List.map_append, List.map_cons, List.map_nil]
    refine List.nodup_append.2 ⟨hids, by simp, ?_⟩
    intro a ha b hb hab
    obtain ⟨r, hr, rfl⟩ := List.mem_map.1 ha
    exact fresh r hr (hab.trans (by simpa using hb))
  | approve => exact hids
  | move => exact uniqueIds_moveRow hids
  | progress => exact hids

theorem Claim.uniqueIds {id : Uuid} (h : Claim x D id t t') (hids : t.UniqueIds) :
    t'.UniqueIds := by
  cases h
  exact uniqueIds_moveRow hids

/-- The loop of the recovery is a chain of moves. -/
theorem recoverRows_chain (hD : ∀ v, TextObject v → D v) (ids : ℕ → Uuid) (clock : ℕ → DateTime)
    (index : ℕ) (rows : List OperationRow) (report out : RestartRecoveryReport)
    (hids : t.UniqueIds)
    (h : recoverRows x ids clock index rows report t = .ok (out, t')) :
    ReflTransGen (Write x D) t t' := by
  induction rows generalizing index report t with
  | nil =>
    obtain ⟨-, rfl⟩ := Tx.pure_eq_ok.1 h
    exact .refl
  | cons row rows ih =>
    obtain ⟨operation, -, h⟩ := Tx.lift_bind_eq_ok.1 h
    have move : ∀ (target : OperationState) (reason : String) (report : RestartRecoveryReport),
        target ≠ .executing →
        (transitionTx x operation target (reasonDetails reason) (clock index) (ids index) >>=
          fun _ => recoverRows x ids clock (index + 1) rows report) t = .ok (out, t') →
        ReflTransGen (Write x D) t t' := by
      intro target reason report hne h
      obtain ⟨op, _, htransition, h⟩ := Tx.bind_eq_ok.1 h
      obtain ⟨r, hr, -, hallowed, rfl, -⟩ := transitionTx_eq_ok hids htransition
      have hwrite : Write x D t
          (t.moveRow x r target (reasonDetails reason) (clock index) (ids index)) :=
        .move hr hallowed hne (hD _ (textObject_reasonDetails reason))
      exact .head hwrite (ih _ _ (hwrite.uniqueIds hids) h)
    cases hcase : restartRecovery operation.kind operation.state <;> rw [hcase] at h
    · exact ih _ _ hids h
    · exact move _ _ _ (by decide) h
    · exact move _ _ _ (by decide) h
    · exact move _ _ _ (by decide) h
    · exact ih _ _ hids h

end Calls

end Operations
end AgentDb
