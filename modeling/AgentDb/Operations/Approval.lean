import AgentDb.Operations.Sample

/-!
# No mutation without an exact approval

A target-mutating operation whose execution has started was approved: by an identified user, for
exactly its payload and its policy, and before the claim that started it. The generic `transition`
can put an operation in `approved` without a decision; the claim still asks for the decision row,
and that is what the proof rests on.
-/

namespace AgentDb
namespace Operations

open Json Relation

variable {x : Crates} {D : Value → Prop} {t t' : Tables}

/-- The columns of a row that no update touches. -/
def OperationRow.fixed (row : OperationRow) : OperationRow :=
  { row with state := .planned, startedAt := none, finishedAt := none, updatedAt := row.createdAt }

@[simp] theorem OperationRow.fixed_moved (row : OperationRow) (target : OperationState)
    (now : DateTime) : (row.moved target now).fixed = row.fixed := rfl

theorem id_of_fixed {a b : OperationRow} (h : a.fixed = b.fixed) : a.id = b.id := by
  have := congrArg OperationRow.id h
  exact this

theorem kind_of_fixed {a b : OperationRow} (h : a.fixed = b.fixed) : a.kind = b.kind := by
  have := congrArg OperationRow.kind h
  exact this

/-- The execution of the operation has started: its state says so, or its ledger does. -/
def HasStarted (t : Tables) (row : OperationRow) : Prop :=
  started row.state ∨ ∃ e ∈ t.events, e.operationId = row.id ∧ e.kind = .executionStarted

/-- An approval of exactly this operation by an identified user. -/
structure ExactApproval (row : OperationRow) (a : OperationApprovalRecord) : Prop where
  operationId : a.operationId = row.id
  decision : a.decision = .approved
  approverKind : a.approver.kind = .localUser ∨ a.approver.kind = .workspaceUser
  approverId : isBlank a.approver.id = false
  payloadHash : a.payloadHash = row.payloadHash
  policyRevision : a.policyRevision = row.policyRevision

theorem ExactApproval.of_fixed {a b : OperationRow} (h : a.fixed = b.fixed)
    {approval : OperationApprovalRecord} (ha : ExactApproval a approval) :
    ExactApproval b approval := by
  have hhash := congrArg OperationRow.payloadHash h
  have hpolicy := congrArg OperationRow.policyRevision h
  exact ⟨ha.operationId.trans (id_of_fixed h), ha.decision, ha.approverKind, ha.approverId,
    ha.payloadHash.trans hhash, ha.policyRevision.trans hpolicy⟩

/-- The decision a claim from `approved` found is an exact approval. -/
theorem exactApproval_of_approvedBy (h : Sound x D t) {row : OperationRow}
    {a : OperationApprovalRecord} (ha : ApprovedBy t row a) : ExactApproval row a := by
  obtain ⟨hmem, hid, hhash, hdecision, hpolicy⟩ := ha
  have hidentified := h.approvers a hmem
  simp only [OperationApprover.identified, Bool.and_eq_true, Bool.or_eq_true, decide_eq_true_eq,
    Bool.not_eq_true'] at hidentified
  exact ⟨hid, hdecision, hidentified.1, hidentified.2, hhash, hpolicy⟩

/-! ### Approvals and rows through a write -/

theorem Write.approvals_subset (h : Write x D t t') : t.approvals ⊆ t'.approvals := by
  cases h with
  | approve => exact List.subset_append_left _ _
  | _ => exact List.Subset.refl _

theorem Claim.approvals_eq {id : Uuid} (h : Claim x D id t t') : t'.approvals = t.approvals := by
  cases h
  rfl

/-- A row of the moved table and the row it was. -/
theorem exists_of_mem_moveRow {row r : OperationRow} {target : OperationState} {details : Value}
    {now : DateTime} {eventId : Uuid}
    (hr : r ∈ (t.moveRow x row target details now eventId).operations) :
    ∃ r₀ ∈ t.operations, r₀.fixed = r.fixed ∧
      (r₀.id = row.id ∧ r.state = target ∨ r₀.id ≠ row.id ∧ r = r₀) := by
  obtain ⟨r₀, hr₀, rfl⟩ := mem_moveRow.1 hr
  refine ⟨r₀, hr₀, ?_, ?_⟩
  · by_cases hid : r₀.id = row.id
    · rw [if_pos hid, OperationRow.fixed_moved]
    · rw [if_neg hid]
  · by_cases hid : r₀.id = row.id
    · rw [if_pos hid]
      exact .inl ⟨hid, rfl⟩
    · rw [if_neg hid]
      exact .inr ⟨hid, rfl⟩

/-- **What a write says about the past**: a row that has started had started before it. -/
theorem Write.hasStarted (h : Sound x D t) (hw : Write x D t t') {row : OperationRow}
    (hrow : row ∈ t'.operations) (hs : HasStarted t' row) :
    ∃ r ∈ t.operations, r.fixed = row.fixed ∧ HasStarted t r := by
  cases hw with
  | approve => exact ⟨row, hrow, rfl, hs⟩
  | progress =>
    refine ⟨row, hrow, rfl, hs.imp_right ?_⟩
    rintro ⟨e, he, hid, hk⟩
    rcases List.mem_append.1 he with he | he
    · exact ⟨e, he, hid, hk⟩
    · obtain rfl := List.mem_singleton.1 he
      cases hk
  | @plan new details now eventId hfresh _ hstate =>
    have hevents : ∀ e ∈ t.events ++ [nextEvent x t new.id .planned .planned details now eventId],
        e.kind = .executionStarted → e ∈ t.events := by
      intro e he hk
      rcases List.mem_append.1 he with he | he
      · exact he
      · obtain rfl := List.mem_singleton.1 he
        cases hk
    rcases List.mem_append.1 hrow with hold | hnew
    · refine ⟨row, hold, rfl, hs.imp_right ?_⟩
      rintro ⟨e, he, hid, hk⟩
      exact ⟨e, hevents e he hk, hid, hk⟩
    · obtain rfl := List.mem_singleton.1 hnew
      rcases hs with hs | ⟨e, he, hid, hk⟩
      · rw [hstate] at hs
        cases hs
      · obtain ⟨r, hr, hrid⟩ := h.owned e (hevents e he hk)
        exact absurd (hrid.trans hid) (hfresh r hr)
  | @move moved target details now eventId hmoved hallowed hne =>
    obtain ⟨r, hr, hfixed, hcase⟩ := exists_of_mem_moveRow hrow
    refine ⟨r, hr, hfixed, ?_⟩
    rcases hs with hs | ⟨e, he, hid, hk⟩
    · left
      rcases hcase with ⟨hid, htarget⟩ | ⟨-, rfl⟩
      · rw [htarget] at hs
        rw [h.ids.eq hr hmoved hid, started_of_allowed hallowed hs hne]
        rfl
      · exact hs
    · right
      rcases List.mem_append.1 he with he | he
      · exact ⟨e, he, hid.trans (id_of_fixed hfixed).symm, hk⟩
      · obtain rfl := List.mem_singleton.1 he
        exact absurd (transitionEventKind_eq_executionStarted.1 hk) hne

/-- **What a claim says about the past**: a row that has started had started before it, or it is
the row the claim has just moved. -/
theorem Claim.hasStarted (h : Sound x D t) {id : Uuid} (hc : Claim x D id t t')
    {row : OperationRow} (hrow : row ∈ t'.operations) (hs : HasStarted t' row) :
    ∃ r ∈ t.operations, r.fixed = row.fixed ∧
      (HasStarted t r ∨ row.state = .executing ∧ Claimable t r) := by
  cases hc with
  | @claim moved details now eventId hmoved hid hclaimable =>
    obtain ⟨r, hr, hfixed, hcase⟩ := exists_of_mem_moveRow hrow
    refine ⟨r, hr, hfixed, ?_⟩
    rcases hcase with ⟨hrid, htarget⟩ | ⟨hrid, rfl⟩
    · exact .inr ⟨htarget, h.ids.eq hr hmoved hrid ▸ hclaimable⟩
    · left
      refine hs.imp_right ?_
      rintro ⟨e, he, heid, hk⟩
      rcases List.mem_append.1 he with he | he
      · exact ⟨e, he, heid, hk⟩
      · obtain rfl := List.mem_singleton.1 he
        exact absurd heid.symm hrid

/-! ### Runs -/

/-- The row had started already, or the call has just claimed it. -/
theorem hasStarted_of_call (calls : List Call) (call : Call) {row : OperationRow}
    (hrow : row ∈ (call.apply x (run x calls)).operations)
    (hs : HasStarted (call.apply x (run x calls)) row) :
    ∃ r ∈ (run x calls).operations, r.fixed = row.fixed ∧
      (HasStarted (run x calls) r ∨ row.state = .executing ∧ Claimable (run x calls) r) := by
  have hsound := sound_run (x := x) calls
  rcases Call.apply_cases (x := x) (fun _ _ => trivial) hsound.ids call call.detailsSatisfy_true
    with ⟨-, hchain⟩ | ⟨op, -, -, hclaim⟩
  · have hback : ∀ u, ReflTransGen (Write x fun _ => True) (run x calls) u →
        Sound x (fun _ => True) u ∧ ∀ row ∈ u.operations, HasStarted u row →
          ∃ r ∈ (run x calls).operations, r.fixed = row.fixed ∧ HasStarted (run x calls) r := by
      intro u hu
      induction hu with
      | refl => exact ⟨hsound, fun row hrow hs => ⟨row, hrow, rfl, hs⟩⟩
      | tail _ hw ih =>
        refine ⟨ih.1.write hw, fun row hrow hs => ?_⟩
        obtain ⟨r, hr, hfixed, hrs⟩ := hw.hasStarted ih.1 hrow hs
        obtain ⟨r', hr', hfixed', hrs'⟩ := ih.2 r hr hrs
        exact ⟨r', hr', hfixed'.trans hfixed, hrs'⟩
    obtain ⟨r, hr, hfixed, hrs⟩ := (hback _ hchain).2 row hrow hs
    exact ⟨r, hr, hfixed, .inl hrs⟩
  · exact hclaim.hasStarted hsound hrow hs

theorem approvals_subset_call (calls : List Call) (call : Call) :
    (run x calls).approvals ⊆ (call.apply x (run x calls)).approvals := by
  rcases Call.apply_cases (x := x) (D := fun _ => True) (fun _ _ => trivial)
    (sound_run calls).ids call call.detailsSatisfy_true with ⟨-, hchain⟩ | ⟨op, -, -, hclaim⟩
  · have hgrow : ∀ u, ReflTransGen (Write x fun _ => True) (run x calls) u →
        (run x calls).approvals ⊆ u.approvals := by
      intro u hu
      induction hu with
      | refl => exact List.Subset.refl _
      | tail _ hw ih => exact List.Subset.trans ih hw.approvals_subset
    exact hgrow _ hchain
  · rw [hclaim.approvals_eq]
    exact List.Subset.refl _

/-- `call`, made after the run `pre`, puts the approved operation in `executing`. -/
structure EntersExecuting (x : Crates) (id : Uuid) (pre : List Call) (call : Call) : Prop where
  before : ∃ r ∈ (run x pre).operations, r.id = id ∧ r.state = .approved ∧
    ¬ HasStarted (run x pre) r
  after : ∃ r ∈ (run x (pre ++ [call])).operations, r.id = id ∧ r.state = .executing

/-- **No mutation without an exact approval.** Whatever the run, a target-mutating operation whose
execution has started has an exact approval, and it was there before the call that put the
operation in `executing`. -/
theorem mutation_exactly_approved (x : Crates) (calls : List Call) (row : OperationRow)
    (hrow : row ∈ (run x calls).operations) (hmutates : row.kind.mayMutateTarget)
    (hs : HasStarted (run x calls) row) :
    ∃ a ∈ (run x calls).approvals, ExactApproval row a ∧
      ∃ pre call post, calls = pre ++ call :: post ∧ a ∈ (run x pre).approvals ∧
        EntersExecuting x row.id pre call := by
  induction calls using List.reverseRecOn generalizing row with
  | nil => cases hrow
  | append_singleton calls call ih =>
    have hrow' := hrow
    have hs' := hs
    rw [run_concat] at hrow' hs'
    obtain ⟨r, hr, hfixed, hcase⟩ := hasStarted_of_call calls call hrow' hs'
    have hrmutates : r.kind.mayMutateTarget := by
      rw [kind_of_fixed hfixed]
      exact hmutates
    by_cases hbefore : HasStarted (run x calls) r
    · obtain ⟨a, ha, hexact, pre, c, post, rfl, hpre, henters⟩ := ih r hr hrmutates hbefore
      rw [run_concat]
      refine ⟨a, approvals_subset_call _ call ha, hexact.of_fixed hfixed, pre, c, post ++ [call],
        by simp, hpre, ?_⟩
      rw [← id_of_fixed hfixed]
      exact henters
    · obtain ⟨hexecuting, hclaimable⟩ := hcase.resolve_left hbefore
      -- a mutating operation is never claimed from `ready`
      rcases hclaimable with ⟨-, hnot⟩ | ⟨happroved, a, hby⟩
      · rw [hnot] at hrmutates
        cases hrmutates
      · have hexact := exactApproval_of_approvedBy (sound_run calls) hby
        refine ⟨a, ?_, hexact.of_fixed hfixed, calls, call, [], by simp, hby.1, ?_, ?_⟩
        · rw [run_concat]
          exact approvals_subset_call calls call hby.1
        · exact ⟨r, hr, id_of_fixed hfixed, happroved, hbefore⟩
        · exact ⟨row, hrow, rfl, hexecuting⟩

theorem mutation_exactly_approved_sampleRun :
    ∃ a ∈ (run crates (sampleRun .writeSql)).approvals, ExactApproval (executingRow .writeSql) a ∧
      ∃ pre call post, (sampleRun .writeSql) = pre ++ call :: post ∧ a ∈ (run crates pre).approvals ∧
        EntersExecuting crates (executingRow .writeSql).id pre call := by
  obtain ⟨_, h⟩ := snapshot_run .writeSql
  exact mutation_exactly_approved crates (sampleRun .writeSql) (executingRow .writeSql) h.mem rfl
    (.inl rfl)

end Operations
end AgentDb
