import AgentDb.Lib.Ownership
import AgentDb.Operations.Payload
import AgentDb.Runs.DesktopSqlTrail
import AgentDb.Runs.ScriptTrail
import AgentDb.Runs.SingleTrail

/-!
# The ledger of operations, while others write to it

A run reads its operation, claims it and reports its end, and any other call may come between.
What the ledger keeps in the meantime is said once (`Grows`), and so are the states a call may put
an operation in (`Puts`).
-/

namespace AgentDb
namespace Runs

open Connection Executor Json Operations Ownership Relation Safety Services Store

/-! ### The order of ledgers -/

/-- An operation that was executing is executing or at its end, and an end is for good. -/
def Past (s s' : OperationState) : Prop :=
  (s = .executing → s' = .executing ∨ s'.isTerminal = true) ∧ (s.isTerminal = true → s' = s)

theorem Past.refl (s : OperationState) : Past s s := ⟨fun h => .inl h, fun _ => rfl⟩

theorem Past.trans {s s' s'' : OperationState} (h : Past s s') (h' : Past s' s'') : Past s s'' := by
  refine ⟨fun hs => ?_, fun hs => ?_⟩
  · rcases h.1 hs with hs' | hs'
    · exact h'.1 hs'
    · exact .inr ((h'.2 hs').symm ▸ hs')
  · have hs' := h.2 hs
    exact (h'.2 (hs'.symm ▸ hs)).trans hs'

theorem past_of_allowed {s s' : OperationState} (h : allowed s s') : Past s s' := by
  refine ⟨fun hs => .inr ?_, fun hs => ?_⟩
  · subst hs
    exact isTerminal_of_allowed_executing h
  · rw [not_allowed_of_isTerminal hs] at h
    cases h

/-- What a ledger keeps while it goes on. -/
structure Grows (t t' : Tables) : Prop where
  rows : ∀ row ∈ t.operations, ∃ row' ∈ t'.operations, row'.fixed = row.fixed ∧
    Past row.state row'.state
  approvals : ∀ a ∈ t.approvals, a ∈ t'.approvals
  ids : t.UniqueIds → t'.UniqueIds

section Ledger

variable {x : Crates} {t t' t'' : Tables}

theorem Grows.refl (t : Tables) : Grows t t :=
  ⟨fun row hrow => ⟨row, hrow, rfl, .refl _⟩, fun _ ha => ha, id⟩

theorem Grows.trans (h : Grows t t') (h' : Grows t' t'') : Grows t t'' := by
  refine ⟨fun row hrow => ?_, fun a ha => h'.approvals a (h.approvals a ha), h'.ids ∘ h.ids⟩
  obtain ⟨row', hrow', hfixed, hpast⟩ := h.rows row hrow
  obtain ⟨row'', hrow'', hfixed', hpast'⟩ := h'.rows row' hrow'
  exact ⟨row'', hrow'', hfixed'.trans hfixed, hpast.trans hpast'⟩

theorem grows_moveRow {row : OperationRow} (hids : t.UniqueIds) (hrow : row ∈ t.operations)
    {target : OperationState} (hallowed : allowed row.state target) {details : Value}
    {now : DateTime} {eventId : Uuid} : Grows t (t.moveRow x row target details now eventId) := by
  refine ⟨fun r hr => ⟨_, mem_moveRow.2 ⟨r, hr, rfl⟩, ?_⟩, fun _ ha => ha, uniqueIds_moveRow⟩
  split
  · rename_i hid
    obtain rfl := hids.eq hr hrow hid
    exact ⟨OperationRow.fixed_moved r target now, past_of_allowed hallowed⟩
  · exact ⟨rfl, .refl _⟩

theorem grows_write {D : Value → Prop} (hids : t.UniqueIds) (h : Write x D t t') : Grows t t' := by
  have hids' := h.uniqueIds
  cases h with
  | plan =>
    exact ⟨fun row hrow => ⟨row, List.mem_append_left _ hrow, rfl, .refl _⟩, fun _ ha => ha, hids'⟩
  | approve =>
    exact ⟨fun row hrow => ⟨row, hrow, rfl, .refl _⟩, fun _ ha => List.mem_append_left _ ha, hids'⟩
  | move hrow hallowed => exact grows_moveRow hids hrow hallowed
  | progress => exact ⟨fun row hrow => ⟨row, hrow, rfl, .refl _⟩, fun _ ha => ha, hids'⟩

theorem grows_claim {D : Value → Prop} {id : Uuid} (hids : t.UniqueIds) (h : Claim x D id t t') :
    Grows t t' := by
  cases h with
  | claim hrow _ hclaimable =>
    refine grows_moveRow hids hrow ?_
    rcases hclaimable with ⟨hs, -⟩ | ⟨hs, -⟩ <;> rw [hs] <;> rfl

/-- Every call of the ledger lets it grow. -/
theorem grows_apply (hids : t.UniqueIds) (call : Operations.Call) :
    Grows t (call.apply x t) := by
  have hdetails : call.DetailsSatisfy fun _ => True := by cases call <;> trivial
  rcases Call.apply_cases (x := x) (fun _ _ => trivial) hids call hdetails with
    ⟨-, hchain⟩ | ⟨op, -, -, hclaim⟩
  · generalize call.apply x t = t' at hchain ⊢
    induction hchain with
    | refl => exact .refl t
    | tail _ hwrite ih => exact ih.trans (grows_write (ih.ids hids) hwrite)
  · exact grows_claim hids hclaim

/-- The operation was claimed once, and cannot be claimed again. -/
def Taken (t : Tables) (id : Uuid) : Prop :=
  ∃ row ∈ t.operations, row.id = id ∧ (row.state = .executing ∨ row.state.isTerminal = true)

theorem Grows.taken (h : Grows t t') {id : Uuid} (htaken : Taken t id) : Taken t' id := by
  obtain ⟨row, hrow, hid, hstate⟩ := htaken
  obtain ⟨row', hrow', hfixed, hpast⟩ := h.rows row hrow
  refine ⟨row', hrow', (id_of_fixed hfixed).trans hid, ?_⟩
  rcases hstate with hs | hs
  · exact hpast.1 hs
  · exact .inr ((hpast.2 hs).symm ▸ hs)

/-- The record is one of the row, but for its state and its times. -/
def Records (x : Crates) (record : OperationRecord) (row : OperationRow) : Prop :=
  ∃ row₀ stored, row₀.fixed = row.fixed ∧ storedPayload x row₀ = .ok stored ∧
    record = row₀.toRecord stored

/-- A row of the ledger that the record is of. -/
def Recorded (x : Crates) (t : Tables) (id : Uuid) (record : OperationRecord) : Prop :=
  ∃ row ∈ t.operations, row.id = id ∧ Records x record row

theorem Grows.recorded (h : Grows t t') {id : Uuid} {record : OperationRecord}
    (hrecorded : Recorded x t id record) : Recorded x t' id record := by
  obtain ⟨row, hrow, hid, row₀, stored, hfixed, hstored, hrecord⟩ := hrecorded
  obtain ⟨row', hrow', hfixed', -⟩ := h.rows row hrow
  exact ⟨row', hrow', (id_of_fixed hfixed').trans hid, row₀, stored,
    hfixed.trans hfixed'.symm, hstored, hrecord⟩

theorem recorded_of_get {id : Uuid} {record : OperationRecord} (h : t.get x id = .ok record) :
    Recorded x t id record := by
  unfold Tables.get at h
  split at h
  · cases h
  · rename_i row hrow
    obtain ⟨stored, hstored, rfl⟩ := rowToOperation_eq_ok.1 h
    obtain ⟨hmem, hid⟩ := mem_of_row? hrow
    exact ⟨row, hmem, hid, row, stored, rfl, hstored, rfl⟩

/-- An operation that may change its target is approved exactly as it is. -/
def Covered (t : Tables) (id : Uuid) : Prop :=
  ∃ row ∈ t.operations, row.id = id ∧ (row.kind.mayMutateTarget = true → ∃ a, ApprovedBy t row a)

theorem Grows.covered (h : Grows t t') {id : Uuid} (hcovered : Covered t id) : Covered t' id := by
  obtain ⟨row, hrow, hid, happroved⟩ := hcovered
  obtain ⟨row', hrow', hfixed, -⟩ := h.rows row hrow
  refine ⟨row', hrow', (id_of_fixed hfixed).trans hid, fun hkind => ?_⟩
  obtain ⟨a, ha, hid, hhash, hdecision, hpolicy⟩ := happroved (kind_of_fixed hfixed ▸ hkind)
  have hhash' := congrArg OperationRow.payloadHash hfixed
  have hpolicy' := congrArg OperationRow.policyRevision hfixed
  exact ⟨a, h.approvals a ha, hid.trans (id_of_fixed hfixed).symm, hhash.trans hhash'.symm,
    hdecision, hpolicy.trans hpolicy'.symm⟩

/-- A claim that succeeds takes an operation nobody had taken. -/
theorem claim_takes (hids : t.UniqueIds) {runtimeId id : Uuid} {now : DateTime} {eventId : Uuid}
    {claimed : ClaimedOperation} (h : claim x runtimeId id now eventId t = (.ok claimed, t')) :
    ¬ Taken t id ∧ Taken t' id ∧ Covered t' id := by
  rcases claimExecution_cases (x := x) hids id runtimeId now eventId with
    ⟨e, hclaim⟩ | ⟨row, hrow, hid, -, hstate, ⟨e, hclaim⟩ | ⟨op, ⟨hopid, hop⟩, hclaimable, hclaim⟩⟩
  · simp [claim, hclaim, Bind.bind, Except.bind] at h
  · simp [claim, hclaim, Bind.bind, Except.bind] at h
  · rw [claim_of_executing hclaim hop] at h
    obtain ⟨-, rfl⟩ := Prod.mk.inj h
    have hmoved : row.moved .executing now ∈
        (t.moveRow x row .executing (claimDetails row) now eventId).operations :=
      mem_moveRow.2 ⟨row, hrow, by rw [if_pos rfl]⟩
    refine ⟨?_, ⟨_, hmoved, hid, .inl rfl⟩, ⟨_, hmoved, hid, fun hkind => ?_⟩⟩
    · rintro ⟨row', hrow', hid', htaken⟩
      obtain rfl := hids.eq hrow' hrow (hid'.trans hid.symm)
      rcases hstate with hs | hs <;> rw [hs] at htaken <;> revert htaken <;> decide
    · rcases hclaimable with ⟨-, hk⟩ | ⟨-, a, ha⟩
      · exact absurd (hk.symm.trans hkind) Bool.false_ne_true
      · exact ⟨a, ha⟩

/-! ### The states a call puts an operation in -/

/-- The states a call may put an operation in. -/
def Puts : Operations.Call → Uuid → OperationState → Prop
  | .insertPlanned _ _ _ _, _, state => state = .planned
  | .transition id _ target _ _ _, id', state => id' = id ∧ state = target
  | .decideApproval command _ _, id', state =>
      id' = command.operationId ∧ state ∈ [OperationState.approved, .rejected, .expired]
  | .claimExecution id _ _ _, id', state =>
      id' = id ∧ state ∈ [OperationState.executing, .expired]
  | .appendProgress _ _ _ _ _, _, _ => False
  | .recoverPreviousRuntimes _ _ _, _, _ => True

theorem put_of_moveRow {row : OperationRow} {target : OperationState} {details : Value}
    {now : DateTime} {eventId : Uuid} {row' : OperationRow}
    (hrow' : row' ∈ (t.moveRow x row target details now eventId).operations) :
    (∃ r ∈ t.operations, r.id = row'.id ∧ r.state = row'.state) ∨
      row'.id = row.id ∧ row'.state = target := by
  obtain ⟨r, hr, rfl⟩ := mem_moveRow.1 hrow'
  split
  · rename_i hid
    exact .inr ⟨hid, rfl⟩
  · exact .inl ⟨r, hr, rfl, rfl⟩

/-- **A row is in the state it was in, or in one the call puts it in.** -/
theorem put_of_apply (hids : t.UniqueIds) (call : Operations.Call) {row' : OperationRow}
    (hrow' : row' ∈ (call.apply x t).operations) :
    (∃ row ∈ t.operations, row.id = row'.id ∧ row.state = row'.state) ∨
      Puts call row'.id row'.state := by
  have hsame : row' ∈ t.operations → (∃ row ∈ t.operations, row.id = row'.id ∧
      row.state = row'.state) ∨ Puts call row'.id row'.state := fun h => .inl ⟨row', h, rfl, rfl⟩
  cases call with
  | insertPlanned r operation createdAt eventId =>
    rw [Call.apply] at hrow'
    rcases insertPlanned_cases (x := x) (t := t) r operation createdAt eventId with
      ⟨res, hout, -⟩ | ⟨prepared, op, -, -, -, hout⟩ <;> rw [hout] at hrow'
    · exact hsame hrow'
    · rcases List.mem_append.1 hrow' with hold | hnew
      · exact hsame hold
      · exact .inr (List.mem_singleton.1 hnew ▸ rfl)
  | transition id r target details now eventId =>
    rw [Call.apply] at hrow'
    rcases transition_cases (x := x) hids id r target details now eventId with
      ⟨e, hout⟩ | ⟨row, -, op, hid, -, -, -, -, hout⟩ <;> rw [hout] at hrow'
    · exact hsame hrow'
    · exact (put_of_moveRow hrow').imp_right fun h => ⟨h.1.trans hid, h.2⟩
  | decideApproval command approvalId eventId =>
    rw [Call.apply] at hrow'
    rcases decideApproval_cases (x := x) hids command approvalId eventId with
      ⟨e, hout⟩ | ⟨row, -, hid, -, -, ⟨e, hout⟩ | ⟨op, a, target, -, -, -, -, -, -, htarget,
        hout⟩⟩ <;> rw [hout] at hrow'
    · exact hsame hrow'
    · exact (put_of_moveRow hrow').imp_right fun h => ⟨h.1.trans hid, by simp [h.2]⟩
    · refine (put_of_moveRow hrow').imp_right fun h => ⟨h.1.trans hid, ?_⟩
      rw [h.2, htarget]
      cases command.decision <;> simp
  | appendProgress id r details now eventId =>
    rw [Call.apply] at hrow'
    rcases appendProgress_cases (x := x) (t := t) id r details now eventId with
      ⟨e, hout⟩ | ⟨row, -, ev, -, -, -, hout⟩ <;> rw [hout] at hrow'
    · exact hsame hrow'
    · exact hsame hrow'
  | claimExecution id r now eventId =>
    rw [Call.apply] at hrow'
    rcases claimExecution_cases (x := x) hids id r now eventId with
      ⟨e, hout⟩ | ⟨row, -, hid, -, -, ⟨e, hout⟩ | ⟨op, -, -, hout⟩⟩ <;> rw [hout] at hrow'
    · exact hsame hrow'
    all_goals exact (put_of_moveRow hrow').imp_right fun h => ⟨h.1.trans hid, by simp [h.2]⟩
  | recoverPreviousRuntimes r ids clock => exact .inr trivial

end Ledger

end Runs
end AgentDb
