import AgentDb.Operations.Sample

/-!
# Between a claim and its receipt

The services call `claim`, work on the target, and end with a `finish`. What the two calls leave
of the operation's state is said once here; the services are proved against these lemmas alone.
-/

namespace AgentDb
namespace Operations

open Json

variable {x : Crates} {t t' : Tables}

/-! ### The state of one operation -/

/-- The operation is in the state, if it is there at all. -/
def Tables.InState (t : Tables) (id : Uuid) (s : OperationState) : Prop :=
  ∀ row ∈ t.operations, row.id = id → row.state = s

theorem inState_moveRow {row : OperationRow} {target : OperationState} {details : Value}
    {now : DateTime} {eventId : Uuid} :
    (t.moveRow x row target details now eventId).InState row.id target := by
  intro r hr hid
  obtain ⟨r₀, hr₀, rfl⟩ := mem_moveRow.1 hr
  by_cases hid₀ : r₀.id = row.id
  · rw [if_pos hid₀]
    rfl
  · rw [if_neg hid₀] at hid
    exact absurd hid hid₀

/-- A call that moves one row leaves every other operation in its state. -/
theorem InState.moveRow {id : Uuid} {s : OperationState} (h : t.InState id s) {row : OperationRow}
    (hne : row.id ≠ id) {target : OperationState} {details : Value} {now : DateTime}
    {eventId : Uuid} : (t.moveRow x row target details now eventId).InState id s := by
  intro r hr hid
  obtain ⟨r₀, hr₀, rfl⟩ := mem_moveRow.1 hr
  by_cases hid₀ : r₀.id = row.id
  · rw [if_pos hid₀] at hid
    exact absurd (hid₀.symm.trans hid) hne
  · rw [if_neg hid₀] at hid ⊢
    exact h r₀ hr₀ hid

/-- A successful claim: the operation waited, and is now executing under a grant of its own. -/
theorem claim_eq_ok (hids : t.UniqueIds) {id r : Uuid} {now : DateTime} {eventId : Uuid}
    {claimed : ClaimedOperation} (h : claim x r id now eventId t = (.ok claimed, t')) :
    claimed.grant.operationId = id ∧ t'.UniqueIds ∧ t'.InState id .executing ∧
      ∃ row ∈ t.operations, row.id = id ∧ (row.state = .ready ∨ row.state = .approved) := by
  rcases claimExecution_cases (x := x) hids id r now eventId with
    ⟨e, hclaim⟩ | ⟨row, hrow, hid, -, hstate, ⟨e, hclaim⟩ | ⟨op, ⟨hopid, hopstate⟩, -, hclaim⟩⟩
  · simp [claim, hclaim, bind, Except.bind] at h
  · simp [claim, hclaim, bind, Except.bind] at h
  · rw [claim, hclaim] at h
    simp only [issue, hopstate, not_true_eq_false, if_false, bind, Except.bind, pure, Except.pure,
      ne_eq, Prod.mk.injEq, Except.ok.injEq] at h
    obtain ⟨rfl, rfl⟩ := h
    refine ⟨hopid.trans hid, uniqueIds_moveRow hids, ?_, row, hrow, hid, hstate⟩
    rw [← hid]
    exact inState_moveRow

theorem claim_of_executing {id r : Uuid} {now : DateTime} {eventId : Uuid} {op : OperationRecord}
    (h : claimExecution x id r now eventId t = (.ok op, t')) (hstate : op.state = .executing) :
    claim x r id now eventId t =
      (.ok ⟨op, ⟨op.id, op.payloadHash, op.connectionId⟩⟩, t') := by
  rw [claim, h]
  simp [issue, hstate, bind, Except.bind, pure, Except.pure]

/-- A receipt fails and changes nothing, or puts the operation in the state it is for. -/
theorem finish_cases (hids : t.UniqueIds) (r id : Uuid) (target : OperationState) (details : Value)
    (now : DateTime) (eventId : Uuid) :
    (∃ e, finish x r id target details now eventId t = (.error e, t)) ∨
      ∃ op t', finish x r id target details now eventId t = (.ok op, t') ∧
        t'.InState id target := by
  rcases transition_cases (x := x) hids id r target details now eventId with
    herror | ⟨row, hrow, op, hid, -, -, -, -, hok⟩
  · exact .inl herror
  · refine .inr ⟨op, _, hok, ?_⟩
    rw [← hid]
    exact inState_moveRow

/-- After a receipt the operation is executing as before, or in the state the receipt is for. -/
theorem state_finish (hids : t.UniqueIds) {r id : Uuid} (hexecuting : t.InState id .executing)
    {target : OperationState} {details : Value} {now : DateTime} {eventId : Uuid}
    {row : OperationRow} (hrow : row ∈ (finish x r id target details now eventId t).2.operations)
    (hid : row.id = id) : row.state = .executing ∨ row.state = target := by
  rcases finish_cases (x := x) hids r id target details now eventId with
    ⟨e, hfinish⟩ | ⟨op, t', hfinish, htarget⟩
  · rw [hfinish] at hrow
    exact .inl (hexecuting row hrow hid)
  · rw [hfinish] at hrow
    exact .inr (htarget row hrow hid)

/-! ### The sample operation -/

section Sample

variable (kind : OperationKind)

/-- The clock and the identifiers of an execution of the sample operation. -/
def sampleClock (n : ℕ) : DateTime := if n = 0 then .ofDay 4 else .ofDay 5

def sampleIds (n : ℕ) : Uuid := if n = 0 then .ofByte 14 else .ofByte 15

theorem uniqueIds_sample : (run crates (sampleApproved kind)).UniqueIds := by
  obtain ⟨a, h, -, -⟩ := snapshot_approved kind
  exact h.sound.ids

theorem get_sample : ∃ record, (run crates (sampleApproved kind)).get crates (.ofByte 1) =
    .ok record := by
  obtain ⟨a, h, -, -⟩ := snapshot_approved kind
  obtain ⟨stored, hstored⟩ := h.sound.readable _ h.mem
  have hfound : (run crates (sampleApproved kind)).row? (.ofByte 1) = some (approvedRow kind) :=
    row?_of_mem h.sound.ids h.mem
  refine ⟨(approvedRow kind).toRecord stored, ?_⟩
  rw [Tables.get, hfound]
  exact rowToOperation_eq_ok.2 ⟨stored, hstored, rfl⟩

/-- The approved operation can be claimed. -/
theorem claim_sample : ∃ claimed, claim crates (.ofByte 5) (.ofByte 1) (sampleClock 0) (sampleIds 0)
    (run crates (sampleApproved kind)) = (.ok claimed, run crates (sampleRun kind)) := by
  rw [show sampleClock 0 = .ofDay 4 from rfl, show sampleIds 0 = .ofByte 14 from rfl]
  obtain ⟨a, h, hby, hexpires⟩ := snapshot_approved kind
  have hlive : Live (approvedRow kind).expiresAt (.ofDay 4) := live_sample 4
  have happ : Appendable crates (run crates (sampleApproved kind)) (approvedRow kind).id
      (claimDetails (approvedRow kind)) (.ofByte 14) :=
    h.appendable rfl (noFloat_of_textObject (textObject_claimDetails _)) (size_claimDetails kind)
      (by decide) (by decide)
  obtain ⟨op, hop⟩ := claimExecution_succeeds crates_lawful h.sound h.mem rfl hby hlive
    (by rw [hexpires]; exact hlive) happ
  have hrun : run crates (sampleRun kind) = (claimExecution crates (approvedRow kind).id
      (approvedRow kind).runtimeId (.ofDay 4) (.ofByte 14)
        (run crates (sampleApproved kind))).2 := by
    rw [sampleRun, run_concat, Call.apply]
  have hid : (approvedRow kind).id = .ofByte 1 := rfl
  have hruntime : (approvedRow kind).runtimeId = .ofByte 5 := rfl
  have hstate : op.state = .executing := by
    rcases claimExecution_cases (x := crates) h.sound.ids (approvedRow kind).id
        (approvedRow kind).runtimeId (.ofDay 4) (.ofByte 14) with
      ⟨e, hcase⟩ | ⟨row, -, -, -, -, ⟨e, hcase⟩ | ⟨op', ⟨-, hstate⟩, -, hcase⟩⟩
    · rw [hop] at hcase
      cases congrArg Prod.fst hcase
    · rw [hop] at hcase
      cases congrArg Prod.fst hcase
    · rw [hop] at hcase
      have hfst := congrArg Prod.fst hcase
      simp only [Except.ok.injEq] at hfst
      rw [hfst]
      exact hstate
  rw [hop] at hrun
  dsimp only at hrun
  rw [hid, hruntime, ← hrun] at hop
  refine ⟨⟨op, ⟨op.id, op.payloadHash, op.connectionId⟩⟩, ?_⟩
  exact claim_of_executing hop hstate

/-- The claimed operation can be ended in any state the table allows. -/
theorem finish_sample (target : OperationState) (hallowed : allowed .executing target)
    (details : Value) (hd : details.NoFloat)
    (hsize : (canonicalJson crates details).utf8ByteSize ≤ maxResponseBytes) :
    ∃ op t', finish crates (.ofByte 5) (.ofByte 1) target details (sampleClock 1) (sampleIds 1)
      (run crates (sampleRun kind)) = (.ok op, t') ∧
        (executingRow kind).moved target (.ofDay 5) ∈ t'.operations := by
  rw [show sampleClock 1 = .ofDay 5 from rfl, show sampleIds 1 = .ofByte 15 from rfl]
  obtain ⟨a, h⟩ := snapshot_run kind
  have hne : target ≠ .executing := by
    rintro rfl
    cases hallowed
  have happ : Appendable crates (run crates (sampleRun kind)) (executingRow kind).id details
      (.ofByte 15) := h.appendable rfl hd hsize (by decide) (by decide)
  obtain ⟨op, hop⟩ := transition_succeeds crates_lawful h.sound h.mem hne hallowed (.ofDay 5) happ
  exact ⟨op, _, hop, mem_moveRow.2 ⟨executingRow kind, h.mem, if_pos rfl⟩⟩

end Sample

end Operations
end AgentDb
