import AgentDb.Operations.Invariants

/-!
# Calls that go through

The converse of `Writes`: in a sound store a call whose guards hold commits, provided its event
can be appended (`Appendable`: fresh identifier, details that fit, a sequence number left). The
third-party code has to be lawful: printed JSON reads back and is valid.
-/

namespace AgentDb
namespace Operations

open Json

/-- What a call that writes needs of the third-party code. -/
structure Crates.Lawful (x : Crates) : Prop where
  roundTrips : x.RoundTrips
  jsonValid : ∀ v : Value, v.NoFloat → x.jsonValid (canonicalJson x v) = true

variable {x : Crates} {t u : Tables}

theorem isLowerSha256_digest (text : String) : isLowerSha256 (digest x text) = true := by
  have key : ∀ d : Fin 16, (Nat.digitChar d).isDigit ||
      ('a' ≤ Nat.digitChar d && Nat.digitChar d ≤ 'f') := by decide
  rw [isLowerSha256, digest, lowerHex, String.toList_ofList, Bool.and_eq_true]
  refine ⟨by simp, List.all_eq_true.2 fun c hc => ?_⟩
  obtain ⟨d, hd, rfl⟩ := TextCode.digitChar_mem_hex hc
  exact key ⟨d, hd⟩

theorem isLowerSha256_canonicalHash (v : Value) : isLowerSha256 (canonicalHash x v) = true :=
  isLowerSha256_digest _

theorem validateNewOperation_ok {operation : NewOperation}
    (hscope : isBlank operation.accountScope = false) (hactor : isBlank operation.actor.id = false)
    (horigin : isBlank operation.actor.provenance.originSurface = false)
    (hpolicy : isBlank operation.policyRevision = false)
    (hkey : isBlank operation.idempotencyKey = false)
    (hrevision : ¬ operation.connectionRevision < 1) (hschema : operation.payloadSchemaVersion ≠ 0)
    (hfingerprint : operation.schemaFingerprint = none) :
    validateNewOperation operation = .ok () := by
  simp [validateNewOperation, hscope, hactor, horigin, hpolicy, hkey, hrevision, hschema,
    hfingerprint, refuseIf, bind, Except.bind, pure, Except.pure]

/-- An event with these details and this identifier can be appended. -/
structure Appendable (x : Crates) (t : Tables) (id : Uuid) (details : Value) (eventId : Uuid) :
    Prop where
  noFloat : details.NoFloat
  size : (canonicalJson x details).utf8ByteSize ≤ maxResponseBytes
  room : (t.eventsOf id).length < maxSequence
  fresh : ∀ e ∈ t.events, e.id ≠ eventId

section Append

variable {id eventId : Uuid} {kind : OperationEventKind} {state : OperationState}
  {details : Value} {now : DateTime}

/-- The next event of an operation meets the constraints of the table. -/
theorem eventFits_nextEvent (hx : x.Lawful) (hnumbered : Numbered (t.eventsOf id))
    (hhashed : ∀ e ∈ t.eventsOf id, e.hash = eventHash x e.hashInput)
    (hevents : u.events = t.events) (hexists : u.row? id ≠ none)
    (happ : Appendable x t id details eventId) :
    EventFits x u (nextEvent x t id kind state details now eventId) := by
  refine ⟨?_, ?_, hexists, hx.jsonValid _ happ.noFloat, isLowerSha256_digest _, ?_⟩
  · rw [hevents]
    exact happ.fresh
  · intro e he hid hsequence
    rw [hevents] at he
    have hmem : e.sequence ∈ List.range' 1 (t.eventsOf id).length := by
      rw [← hnumbered]
      exact List.mem_map.2 ⟨e, List.mem_filter.2 ⟨he, decide_eq_true hid⟩, rfl⟩
    rw [hsequence, hnumbered.nextEvent_sequence, List.mem_range'_1] at hmem
    omega
  · rw [nextEvent, hnumbered.ledger_eq]
    cases hlast : (t.eventsOf id).getLast? with
    | none => rfl
    | some e =>
      simp only [Option.map_some, Option.getD_some]
      rw [hhashed e (List.mem_of_getLast? hlast)]
      exact isLowerSha256_digest _

theorem appendEventTx_succeeds (kind : OperationEventKind) (state : OperationState) (now : DateTime)
    (hx : x.Lawful) (hnumbered : Numbered (t.eventsOf id))
    (hhashed : ∀ e ∈ t.eventsOf id, e.hash = eventHash x e.hashInput)
    (hevents : u.events = t.events) (hexists : u.row? id ≠ none)
    (happ : Appendable x t id details eventId) :
    ∃ ev, appendEventTx x id kind state details now eventId u =
      .ok (ev, u.addEvent (nextEvent x t id kind state details now eventId)) := by
  have hledger : u.ledger id = t.ledger id := by rw [Tables.ledger, Tables.ledger, hevents]
  have hnext : nextEvent x u id kind state details now eventId =
      nextEvent x t id kind state details now eventId := by rw [nextEvent, nextEvent, hledger]
  refine ⟨_, appendEventTx_eq_ok.2 ⟨happ.size, ?_, ?_, _, fromStr_canonicalJson hx.roundTrips
    happ.noFloat, rfl, by rw [hnext]⟩⟩
  · intro hmax
    have hlast := hnumbered.getLast?_sequence
    rw [← hnumbered.ledger_eq, ← hledger, hmax, Option.getD_some] at hlast
    have hroom := happ.room
    rw [← hnumbered.ledger_eq, ← hledger, ← hlast] at hroom
    exact lt_irrefl _ hroom
  · rw [hnext]
    exact eventFits_nextEvent hx hnumbered hhashed hevents hexists happ

end Append

/-! ### Moving a row -/

theorem row?_moved (hids : t.UniqueIds) {row : OperationRow} (hrow : row ∈ t.operations)
    {current : OperationRecord} {target : OperationState} {now : DateTime}
    (hup : updates current target now row) :
    (t.update current target now).row? row.id = some (row.moved target now) := by
  have hops := update_eq_moveRow hids hrow hup
  have hids' : (t.update current target now).UniqueIds := by
    rw [Tables.UniqueIds, hops, map_id_moved]
    exact hids
  have hmem : row.moved target now ∈ (t.update current target now).operations := by
    rw [hops]
    exact List.mem_map.2 ⟨row, hrow, if_pos rfl⟩
  exact row?_of_mem hids' hmem

theorem countP_updates (hids : t.UniqueIds) {row : OperationRow} (hrow : row ∈ t.operations)
    {current : OperationRecord} {target : OperationState} {now : DateTime}
    (hup : updates current target now row) :
    t.operations.countP (updates current target now) = 1 := by
  have hnodup : t.operations.Nodup := List.Nodup.of_map _ hids
  rw [← List.count_eq_one_of_mem hnodup hrow, List.count_eq_countP]
  refine List.countP_congr fun r hr => ?_
  rw [beq_iff_eq]
  constructor
  · intro h
    exact hids.eq hr hrow ((id_of_updates h).1.trans (id_of_updates hup).1.symm)
  · rintro rfl
    exact hup

section Calls

variable {row : OperationRow} {stored : StoredPayload} {target : OperationState}
  {details : Value} {now : DateTime} {eventId r : Uuid} {D : Value → Prop}

/-- `transition_tx` of a row just read goes through along the table. -/
theorem transitionTx_succeeds (hx : x.Lawful) (h : Sound x D t) (hrow : row ∈ t.operations)
    (hstored : storedPayload x row = .ok stored) (hallowed : allowed row.state target)
    (hexpiry : target = .executing → row.expiresAt.all fun e => now.timestamp < e.timestamp)
    (happ : Appendable x t row.id details eventId) :
    transitionTx x (row.toRecord stored) target details now eventId t =
      .ok ((row.moved target now).toRecord stored,
        t.moveRow x row target details now eventId) := by
  have hup : updates (row.toRecord stored) target now row := by
    by_cases htarget : target = .executing
    · simpa [updates, OperationRow.toRecord, htarget] using hexpiry htarget
    · simp [updates, OperationRow.toRecord, htarget]
  have hmoved := row?_moved h.ids hrow hup
  obtain ⟨ev, happend⟩ := appendEventTx_succeeds (u := t.update (row.toRecord stored) target now)
    (transitionEventKind target) target now hx (h.ledgers row hrow).numbered
    (h.ledgers row hrow).hashed rfl (by rw [hmoved]; exact Option.some_ne_none _) happ
  have hguard : (ensureTransition (row.toRecord stored).state target).mapError
      (fun e => operationConflict e.toText) = .ok () := by
    rw [OperationRow.toRecord, ensureTransition_eq_ok.2 hallowed]
    rfl
  rw [transitionTx, Tx.lift_bind_eq_ok]
  refine ⟨(), hguard, ?_⟩
  simp only [Tx.get_bind_eq_ok, Tx.refuseIf_bind_eq_ok, Tx.set_bind_eq_ok, not_not]
  refine ⟨countP_updates h.ids hrow hup, Tx.bind_eq_ok.2 ⟨ev, _, happend, ?_⟩⟩
  refine fetchOperationTx_eq_ok.2 ⟨row.moved target now, stored, hmoved, hstored, rfl, ?_⟩
  rw [Tables.moveRow, Tables.addEvent, update_eq_moveRow h.ids hrow hup]
  rfl

theorem fetchOperationTx_succeeds (h : Sound x D t) (hrow : row ∈ t.operations)
    (hstored : storedPayload x row = .ok stored) :
    fetchOperationTx x row.id t = .ok (row.toRecord stored, t) :=
  fetchOperationTx_eq_ok.2 ⟨row, stored, row?_of_mem h.ids hrow, hstored, rfl, rfl⟩

/-- `transition` goes through along the table, for the runtime that owns the operation. -/
theorem transition_succeeds (hx : x.Lawful) (h : Sound x D t) (hrow : row ∈ t.operations)
    (hne : target ≠ .executing) (hallowed : allowed row.state target) (now : DateTime)
    (happ : Appendable x t row.id details eventId) :
    ∃ op, transition x row.id row.runtimeId target details now eventId t =
      (.ok op, t.moveRow x row target details now eventId) := by
  obtain ⟨stored, hstored⟩ := h.readable row hrow
  refine ⟨(row.moved target now).toRecord stored, Tx.settle_of_eq_ok ?_⟩
  simp only [Tx.refuseIf_bind_eq_ok]
  refine ⟨hne, Tx.bind_eq_ok.2 ⟨_, t, fetchOperationTx_succeeds h hrow hstored, ?_⟩⟩
  refine Tx.lift_bind_eq_ok.2 ⟨(), ensureRuntime_eq_ok.2 rfl, ?_⟩
  refine Tx.bind_eq_ok.2 ⟨_, _, transitionTx_succeeds hx h hrow hstored hallowed
    (fun he => absurd he hne) happ, Tx.pure_eq_ok.2 ⟨rfl, rfl⟩⟩

/-- Not expired, as the two comparisons of a claim see it. -/
def Live (expiresAt : Option DateTime) (now : DateTime) : Prop :=
  ∀ e ∈ expiresAt, ¬ e ≤ now ∧ now.timestamp < e.timestamp

theorem Live.not_expired {expiresAt : Option DateTime} (h : Live expiresAt now) :
    ¬ expiresAt.any (· ≤ now) := by
  cases expiresAt with
  | none => exact Bool.false_ne_true
  | some e =>
    rw [Option.any_some, decide_eq_true_eq]
    exact (h e rfl).1

theorem Live.later {expiresAt : Option DateTime} (h : Live expiresAt now) :
    expiresAt.all (fun e => now.timestamp < e.timestamp) := by
  cases expiresAt with
  | none => rfl
  | some e =>
    rw [Option.all_some, decide_eq_true_eq]
    exact (h e rfl).2

/-- An approved operation with an exact, live approval can be claimed. -/
theorem claimExecution_succeeds (hx : x.Lawful) (h : Sound x D t) (hrow : row ∈ t.operations)
    (hstate : row.state = .approved) {a : OperationApprovalRecord} (ha : ApprovedBy t row a)
    (hlive : Live row.expiresAt now) (halive : Live a.expiresAt now)
    (happ : Appendable x t row.id (claimDetails row) eventId) :
    ∃ op, claimExecution x row.id row.runtimeId now eventId t =
      (.ok op, t.moveRow x row .executing (claimDetails row) now eventId) := by
  obtain ⟨stored, hstored⟩ := h.readable row hrow
  obtain ⟨hmem, hid, hhash, hdecision, hpolicy⟩ := ha
  have hexact : hasExactApproval t (row.toRecord stored) now := by
    refine List.any_eq_true.2 ⟨a, hmem, ?_⟩
    simpa [OperationRow.toRecord, hid, hhash, hdecision, hpolicy] using halive.later
  refine ⟨(row.moved .executing now).toRecord stored, Tx.settle_of_eq_ok ?_⟩
  refine Tx.bind_eq_ok.2 ⟨_, t, fetchOperationTx_succeeds h hrow hstored, ?_⟩
  refine Tx.lift_bind_eq_ok.2 ⟨(), ensureRuntime_eq_ok.2 rfl, ?_⟩
  have hnot : ¬ (row.toRecord stored).expiresAt.any (· ≤ now) := hlive.not_expired
  simp only [Tx.refuseIf_bind_eq_ok, if_neg hnot, Tx.get_bind_eq_ok]
  refine ⟨by simp [OperationRow.toRecord, hstate], by simp [OperationRow.toRecord, hstate],
    by simp [hexact], ?_⟩
  refine Tx.bind_eq_ok.2 ⟨_, _, transitionTx_succeeds hx h hrow hstored
    (by rw [hstate]; rfl) (fun _ => hlive.later) happ, Tx.pure_eq_ok.2 ⟨rfl, rfl⟩⟩

/-- An identified user can approve a pending operation as it was reviewed. -/
theorem decideApproval_succeeds (hx : x.Lawful) (h : Sound x D t) (hrow : row ∈ t.operations)
    (approver : OperationApprover) (approvalId : Uuid)
    (hstate : row.state = .pendingApproval) (hpolicy : row.policyRevision ≠ "")
    (hhash : isLowerSha256 row.payloadHash) (hidentified : approver.identified)
    (hid : approver.id ≠ "")
    (hnew : ∀ a ∈ t.approvals, a.id ≠ approvalId) (hlive : Live row.expiresAt now)
    (happ : Appendable x t row.id (decisionDetails row approver approvalId) eventId) :
    ∃ op a, a.operationId = row.id ∧ a.payloadHash = row.payloadHash ∧
      a.policyRevision = row.policyRevision ∧ a.decision = .approved ∧ a.id = approvalId ∧
      a.expiresAt = row.expiresAt ∧
      decideApproval x
        { operationId := row.id
          runtimeId := row.runtimeId
          expectedPayloadHash := row.payloadHash
          approver
          decision := .approved
          reason := none
          currentPolicyRevision := row.policyRevision
          now } approvalId eventId t =
        (.ok op, ({ t with approvals := t.approvals ++ [a] } : Tables).moveRow x row .approved
          (decisionDetails row approver approvalId) now eventId) := by
  obtain ⟨stored, hstored⟩ := h.readable row hrow
  let a : OperationApprovalRecord :=
    { id := approvalId
      operationId := row.id
      payloadHash := row.payloadHash
      approver
      decision := .approved
      reason := none
      policyRevision := row.policyRevision
      createdAt := now
      expiresAt := row.expiresAt }
  have hsound : Sound x D { t with approvals := t.approvals ++ [a] } :=
    h.write (.approve hidentified)
  have hinsert : insertApproval a t = .ok ((), { t with approvals := t.approvals ++ [a] }) := by
    have hkind : approver.kind = .localUser ∨ approver.kind = .workspaceUser := by
      simp only [OperationApprover.identified, Bool.and_eq_true, Bool.or_eq_true,
        decide_eq_true_eq] at hidentified
      exact hidentified.1
    simp only [insertApproval, Tx.get_bind_eq_ok, Tx.refuseIf_bind_eq_ok, Tx.set_eq_ok]
    refine ⟨?_, ?_, ?_, trivial⟩
    · simpa using hnew
    · rw [row?_of_mem h.ids hrow]
      exact Option.some_ne_none _
    · rintro (⟨h1, h2⟩ | h | h | h)
      · rcases hkind with hk | hk
        · exact h1 hk
        · exact h2 hk
      · exact hid h
      · exact hpolicy h
      · exact h hhash
  refine ⟨(row.moved .approved now).toRecord stored, a, rfl, rfl, rfl, rfl, rfl, rfl,
    Tx.settle_of_eq_ok ?_⟩
  simp only [Tx.refuseIf_bind_eq_ok, not_not]
  refine ⟨hidentified, by simp, Tx.bind_eq_ok.2
    ⟨_, t, fetchOperationTx_succeeds h hrow hstored, ?_⟩⟩
  refine Tx.lift_bind_eq_ok.2 ⟨(), ensureRuntime_eq_ok.2 rfl, ?_⟩
  have hnot : ¬ (row.toRecord stored).expiresAt.any (· ≤ now) := hlive.not_expired
  simp only [Tx.refuseIf_bind_eq_ok, not_not, if_neg hnot]
  refine ⟨hstate, rfl, rfl, Tx.bind_eq_ok.2 ⟨(), _, hinsert, ?_⟩⟩
  refine Tx.bind_eq_ok.2 ⟨_, _, transitionTx_succeeds hx hsound hrow hstored
    (by rw [hstate]; rfl) (fun he => by cases he) ?_, Tx.pure_eq_ok.2 ⟨rfl, rfl⟩⟩
  exact ⟨happ.noFloat, happ.size, happ.room, happ.fresh⟩

end Calls

/-! ### Planning -/

theorem noFloat_provenance (p : OperationActorProvenance) : p.toValue.NoFloat := by
  refine .object fun e he => ?_
  have hoptional : ∀ (key : String) (v : Option Value), (∀ w ∈ v, w.NoFloat) →
      e ∈ optionalEntry key v → e.2.NoFloat := by
    intro key v hv he
    cases v with
    | none => cases he
    | some w =>
      obtain rfl := List.mem_singleton.1 he
      exact hv w rfl
  have hstring : ∀ (o : Option String), ∀ w ∈ o.map Value.string, w.NoFloat := by
    intro o w hw
    obtain ⟨s, -, rfl⟩ := Option.mem_map.1 hw
    exact .string s
  simp only [List.append_assoc, List.mem_append, List.mem_singleton] at he
  rcases he with he | he | he | he | he | he | he | rfl
  iterate 6 exact hoptional _ _ (hstring _) he
  · refine hoptional _ _ (fun w hw => ?_) he
    obtain ⟨n, -, rfl⟩ := Option.mem_map.1 hw
    exact .int _
  · exact .string _

/-- A prepared row decodes to what was prepared. -/
theorem storedPayload_prepared (hx : x.RoundTrips) {r : Uuid} {operation : NewOperation}
    {prepared : PreparedOperation} (hnew : PreparedOperation.new x r operation = .ok prepared)
    (createdAt : DateTime) (hpayload : operation.payload.NoFloat)
    (hpreview : operation.preview.NoFloat) (hpolicy : operation.policySnapshot.NoFloat)
    (hprovenance : OperationActorProvenance.fromValue
      (canonicalValue operation.actor.provenance.toValue) = .ok operation.actor.provenance) :
    storedPayload x (prepared.row createdAt) = .ok
      { payload := canonicalValue operation.payload
        actorProvenance := operation.actor.provenance
        preview := canonicalValue operation.preview
        policySnapshot := canonicalValue operation.policySnapshot } := by
  simp only [PreparedOperation.new, Except.bind_eq_ok, Except.pure_eq_ok] at hnew
  obtain ⟨-, -, -, -, -, -, rfl⟩ := hnew
  have hstored : CanonicalJson.fromStored x (CanonicalJson.fromValue x operation.payload).json
      (CanonicalJson.fromValue x operation.payload).sha256 =
      .ok (CanonicalJson.fromValue x operation.payload) := by
    rw [CanonicalJson.fromStored]
    have hread : fromStr x (CanonicalJson.fromValue x operation.payload).json =
        .ok (canonicalValue operation.payload) := fromStr_canonicalJson hx hpayload
    have hsame : CanonicalJson.fromValue x (canonicalValue operation.payload) =
        CanonicalJson.fromValue x operation.payload := by
      simp only [CanonicalJson.fromValue, canonicalValue_idem]
    rw [hread]
    simp [bind, Except.bind, pure, Except.pure, hsame]
  have hread : fromStr x (CanonicalJson.fromValue x operation.payload).json =
      .ok (canonicalValue operation.payload) := fromStr_canonicalJson hx hpayload
  simp only [storedPayload, PreparedOperation.row, hstored, hread, hprovenance,
    parseCanonicalJson_canonicalJson hx (noFloat_provenance _),
    parseCanonicalJson_canonicalJson hx hpreview, parseCanonicalJson_canonicalJson hx hpolicy, bind,
    Except.bind, pure, Except.pure]

/-- A valid new operation is planned. -/
theorem insertPlanned_succeeds (hx : x.Lawful) {D : Value → Prop} (h : Sound x D t) {r : Uuid}
    {operation : NewOperation} {prepared : PreparedOperation}
    (hnew : PreparedOperation.new x r operation = .ok prepared) (createdAt : DateTime)
    {eventId : Uuid} (hpayload : operation.payload.NoFloat) (hpreview : operation.preview.NoFloat)
    (hpolicy : operation.policySnapshot.NoFloat)
    (hprovenance : OperationActorProvenance.fromValue
      (canonicalValue operation.actor.provenance.toValue) = .ok operation.actor.provenance)
    (hchecks : operation.actor.id ≠ "" ∧ operation.policyRevision ≠ "" ∧
      operation.idempotencyKey ≠ "" ∧ operation.payloadSchemaVersion ≠ 0 ∧
      operation.schemaFingerprint = none)
    (hfresh : ∀ r ∈ t.operations, r.id ≠ operation.id)
    (hkey : ∀ r ∈ t.operations, sameIdempotencyKey (prepared.row createdAt) r = false)
    (happ : Appendable x t operation.id (plannedDetails (prepared.row createdAt)) eventId) :
    ∃ op, insertPlanned x r operation createdAt eventId t = (.ok op,
      ({ t with operations := t.operations ++ [prepared.row createdAt] } : Tables).addEvent
        (nextEvent x t operation.id .planned .planned (plannedDetails (prepared.row createdAt))
          createdAt eventId)) := by
  have hop := (PreparedOperation.new_eq_ok hnew).2
  obtain ⟨stored, hstored⟩ : (prepared.row createdAt).Readable x :=
    ⟨_, storedPayload_prepared hx.roundTrips hnew createdAt hpayload hpreview hpolicy hprovenance⟩
  have hjson := hnew
  simp only [PreparedOperation.new, Except.bind_eq_ok, Except.pure_eq_ok] at hjson
  obtain ⟨-, -, -, -, -, -, hjson⟩ := hjson
  set row := prepared.row createdAt with hrow
  have hid : row.id = operation.id := by rw [hrow, ← hop]; rfl
  have hnone : t.row? row.id = none := row?_eq_none.2 fun r hr => by
    rw [hid]
    exact hfresh r hr
  have hinsert : insertOperation x row t =
      .ok ((), { t with operations := t.operations ++ [row] }) := by
    simp only [insertOperation, Tx.get_bind_eq_ok, Tx.refuseIf_bind_eq_ok, Tx.set_eq_ok, not_not]
    refine ⟨hnone, by simpa using hkey, ?_, trivial⟩
    obtain ⟨h1, h2, h3, h4, h5⟩ := hchecks
    subst hjson
    rintro (h | h | h | h | h | h | h | h | h | h)
    · exact h1 h
    · exact h2 h
    · exact h3 h
    · exact h4 h
    · exact h (isLowerSha256_digest _)
    · rw [show row.schemaFingerprint = none from h5] at h
      cases h
    · exact h (hx.jsonValid _ (noFloat_provenance _))
    · exact h (hx.jsonValid _ hpayload)
    · exact h (hx.jsonValid _ hpreview)
    · exact h (hx.jsonValid _ hpolicy)
  have hfound :
      ({ t with operations := t.operations ++ [row] } : Tables).row? row.id = some row := by
    rw [Tables.row?, List.find?_append, ← Tables.row?, hnone]
    simp
  have hempty : t.eventsOf row.id = [] := h.eventsOf_eq_nil (by rw [hid]; exact hfresh)
  rw [← hid] at happ ⊢
  obtain ⟨ev, happend⟩ := appendEventTx_succeeds (x := x) (t := t)
    (u := { t with operations := t.operations ++ [row] }) .planned .planned createdAt hx
    (by rw [hempty]; rfl) (by rw [hempty]; simp) rfl (by rw [hfound]; exact Option.some_ne_none _)
    happ
  refine ⟨row.toRecord stored, Tx.settle_of_eq_ok (Tx.lift_bind_eq_ok.2 ⟨prepared, hnew, ?_⟩)⟩
  have hnokey : t.operations.find? (sameIdempotencyKey row) = none := by
    simpa using hkey
  rw [Tx.get_bind_eq_ok]
  simp only [← hrow, hnokey]
  have hdetails : plannedDetails row = .object [("payloadHash", .string prepared.payload.sha256),
      ("riskLevel", .string (riskLevelStr operation.riskLevel))] := by
    rw [plannedDetails, hrow, ← hop]
    rfl
  rw [hdetails] at happend ⊢
  refine Tx.bind_eq_ok.2 ⟨(), _, hinsert, Tx.bind_eq_ok.2 ⟨ev, _, happend, Tx.bind_eq_ok.2
    ⟨row.toRecord stored, _, ?_, Tx.pure_eq_ok.2 ⟨rfl, rfl⟩⟩⟩⟩
  exact fetchOperationTx_eq_ok.2 ⟨row, stored, hfound, hstored, rfl, rfl⟩

end Operations
end AgentDb
