import AgentDb.Operations.Approval

/-!
# The payload of an operation

The row that a plan inserts keeps its payload for good, so whoever reads the operation later reads
the canonical form of what was planned.
-/

namespace AgentDb
namespace Operations

open Json Relation

variable {x : Crates} {D : Value → Prop} {t t' : Tables}

/-- What is read is what was printed, whenever the reader takes it; it may refuse a text that is
nested too deeply. -/
def Crates.ReadsTrue (x : Crates) : Prop :=
  ∀ v w : Value, v.NoFloat → x.fromStr (x.toString (canonicalValue v)) = some w →
    w = canonicalValue v

/-- A row is kept but for its state and its times. -/
def Keeps (t t' : Tables) : Prop :=
  ∀ row ∈ t.operations, ∃ row' ∈ t'.operations, row'.fixed = row.fixed

theorem keeps_refl (t : Tables) : Keeps t t := fun row hrow => ⟨row, hrow, rfl⟩

theorem Keeps.trans {t'' : Tables} (h : Keeps t t') (h' : Keeps t' t'') : Keeps t t'' := by
  intro row hrow
  obtain ⟨row', hrow', hfixed⟩ := h row hrow
  obtain ⟨row'', hrow'', hfixed'⟩ := h' row' hrow'
  exact ⟨row'', hrow'', hfixed'.trans hfixed⟩

theorem keeps_moveRow {row : OperationRow} {target : OperationState} {details : Value}
    {now : DateTime} {eventId : Uuid} : Keeps t (t.moveRow x row target details now eventId) := by
  intro r hr
  refine ⟨_, mem_moveRow.2 ⟨r, hr, rfl⟩, ?_⟩
  split
  · exact OperationRow.fixed_moved r target now
  · rfl

theorem Write.keeps (h : Write x D t t') : Keeps t t' := by
  cases h with
  | plan => exact fun row hrow => ⟨row, List.mem_append_left _ hrow, rfl⟩
  | approve => exact keeps_refl t
  | move => exact keeps_moveRow
  | progress => exact keeps_refl t

theorem Claim.keeps {id : Uuid} (h : Claim x D id t t') : Keeps t t' := by
  cases h with
  | claim => exact keeps_moveRow

theorem keeps_of_writes (hids : t.UniqueIds) (h : ReflTransGen (Write x D) t t') :
    Keeps t t' ∧ t'.UniqueIds := by
  induction h with
  | refl => exact ⟨keeps_refl t, hids⟩
  | tail _ hwrite ih => exact ⟨ih.1.trans hwrite.keeps, hwrite.uniqueIds ih.2⟩

theorem keeps_apply (hids : t.UniqueIds) (call : Call) :
    Keeps t (call.apply x t) ∧ (call.apply x t).UniqueIds := by
  have hdetails : call.DetailsSatisfy fun _ => True := by cases call <;> trivial
  rcases Call.apply_cases (x := x) (fun _ _ => trivial) hids call hdetails with
    ⟨-, hchain⟩ | ⟨op, -, -, hclaim⟩
  · exact keeps_of_writes hids hchain
  · exact ⟨hclaim.keeps, hclaim.uniqueIds hids⟩

/-- A run keeps the rows it starts from, and the uniqueness of their ids. -/
theorem keeps_runFrom (hids : t.UniqueIds) (calls : List Call) :
    Keeps t (runFrom x t calls) ∧ (runFrom x t calls).UniqueIds := by
  induction calls generalizing t with
  | nil => exact ⟨keeps_refl t, hids⟩
  | cons call calls ih =>
    obtain ⟨hkeeps, hids⟩ := keeps_apply (x := x) hids call
    obtain ⟨hkeeps', hids'⟩ := ih hids
    exact ⟨hkeeps.trans hkeeps', hids'⟩

/-- The payload in a stored record is what its column reads as. -/
theorem payload_of_storedPayload {row : OperationRow} {stored : StoredPayload}
    (h : storedPayload x row = .ok stored) : x.fromStr row.payloadJson = some stored.payload := by
  simp only [storedPayload, Except.bind_eq_ok, Except.pure_eq_ok] at h
  obtain ⟨canonical, hcanonical, payload, hpayload, -, -, -, -, -, -, -, -, rfl⟩ := h
  have hjson : canonical.json = row.payloadJson := by
    simp only [CanonicalJson.fromStored, Except.bind_eq_ok] at hcanonical
    obtain ⟨value, -, hcanonical⟩ := hcanonical
    split at hcanonical
    · cases hcanonical
    · rename_i hsame
      rw [← Except.pure_eq_ok.1 hcanonical]
      exact not_not.1 (not_or.1 hsame).1
  unfold fromStr at hpayload
  rw [hjson] at hpayload
  split at hpayload
  · rename_i hread
    rw [hread, Except.ok.inj hpayload]
  · cases hpayload

/-- **What was planned is what is read**, at any time after the plan. -/
theorem payload_of_get (hx : x.ReadsTrue) (hids : t.UniqueIds) {runtimeId eventId : Uuid}
    {operation : NewOperation} {createdAt : DateTime} {op record : OperationRecord}
    (hfloat : operation.payload.NoFloat)
    (hfresh : ∀ row ∈ t.operations, row.id ≠ operation.id ∧
      row.idempotencyKey ≠ operation.idempotencyKey)
    (hplan : (insertPlanned x runtimeId operation createdAt eventId t).1 = .ok op)
    (calls : List Call)
    (hget : (runFrom x (insertPlanned x runtimeId operation createdAt eventId t).2 calls).get x
      operation.id = .ok record) :
    record.payload = canonicalValue operation.payload := by
  rcases insertPlanned_cases (x := x) (t := t) runtimeId operation createdAt eventId with
    ⟨res, hout, hsame⟩ | ⟨prepared, op', hnew, hfree, hread, hout⟩
  · rw [hout] at hplan
    obtain ⟨found, hfound, hkey⟩ := hsame op hplan
    exact absurd hkey (hfresh found hfound).2
  · set row := prepared.row createdAt with hrow
    rw [hout] at hget
    have hplanned : Write x (fun _ => True) t
        (({ t with operations := t.operations ++ [row] } : Tables).addEvent
          (nextEvent x t row.id .planned .planned (plannedDetails row) createdAt eventId)) :=
      .plan hfree hread rfl rfl rfl trivial
    obtain ⟨hkeeps, hids'⟩ := keeps_runFrom (x := x) (hplanned.uniqueIds hids) calls
    obtain ⟨row', hrow', hfixed⟩ :=
      hkeeps row (List.mem_append_right _ (List.mem_singleton_self row))
    have hid : row'.id = operation.id := by
      rw [id_of_fixed hfixed, hrow, ← (PreparedOperation.new_eq_ok hnew).2]
      rfl
    have hjson : row'.payloadJson = x.toString (canonicalValue operation.payload) := by
      have hpayload := congrArg OperationRow.payloadJson hfixed
      have hprepared := hnew
      simp only [PreparedOperation.new, Except.bind_eq_ok, Except.pure_eq_ok] at hprepared
      obtain ⟨-, -, -, -, -, -, rfl⟩ := hprepared
      exact hpayload
    unfold Tables.get at hget
    rw [← hid, row?_of_mem hids' hrow'] at hget
    obtain ⟨stored, hstored, rfl⟩ := rowToOperation_eq_ok.1 hget
    have hread := payload_of_storedPayload hstored
    rw [hjson] at hread
    exact hx _ _ hfloat hread

end Operations
end AgentDb
