import AgentDb.Lib.TwoRuns
import AgentDb.Operations.Runtime
import AgentDb.Operations.Writes

/-!
# What a new operation learns of the others

Planning an operation and reading it back depends on the rows with its id, on those with its
idempotency key and on the ids of its events. Two stores that agree on these, whatever other
operations they hold, plan it alike.
-/

namespace AgentDb
namespace Operations

open Json

/-- The two stores agree on the operation `id`, on the idempotency key and on which of the event
ids are taken. -/
structure SameFor (id : Uuid) (key : String) (events : List Uuid) (t u : Tables) : Prop where
  rows : t.operations.filter (·.id = id) = u.operations.filter (·.id = id)
  keyed : t.operations.filter (·.idempotencyKey = key) =
    u.operations.filter (·.idempotencyKey = key)
  ledger : t.events.filter (·.operationId = id) = u.events.filter (·.operationId = id)
  taken : ∀ e ∈ events, t.events.any (fun r => r.id = e) = u.events.any fun r => r.id = e

namespace SameFor

variable {x : Crates} {id : Uuid} {key : String} {events : List Uuid} {t u : Tables}

/-- Stores in which neither the id, nor the key, nor the event ids occur agree on them. -/
theorem of_fresh (hid : ∀ row ∈ t.operations ++ u.operations, row.id ≠ id)
    (hkey : ∀ row ∈ t.operations ++ u.operations, row.idempotencyKey ≠ key)
    (hledger : ∀ e ∈ t.events ++ u.events, e.operationId ≠ id)
    (htaken : ∀ e ∈ t.events ++ u.events, e.id ∉ events) : SameFor id key events t u := by
  simp only [List.mem_append, or_imp, forall_and] at hid hkey hledger htaken
  have hnone : ∀ {α : Type} {l : List α} {p : α → Prop} [DecidablePred p], (∀ a ∈ l, ¬ p a) →
      l.filter (fun a => p a) = [] := by
    intro α l p _ h
    simpa using h
  refine ⟨?_, ?_, ?_, fun e he => ?_⟩
  · rw [hnone hid.1, hnone hid.2]
  · rw [hnone hkey.1, hnone hkey.2]
  · rw [hnone hledger.1, hnone hledger.2]
  · have hfree : ∀ {l : List OperationEventRow}, (∀ r ∈ l, r.id ∉ events) →
        l.any (fun r => r.id = e) = false := by
      intro l h
      simp only [List.any_eq_false, decide_eq_true_eq]
      exact fun r hr hre => h r hr (hre ▸ he)
    rw [hfree htaken.1, hfree htaken.2]

theorem row? (h : SameFor id key events t u) : t.row? id = u.row? id := by
  rw [Tables.row?, Tables.row?, ← List.head?_filter, ← List.head?_filter, h.rows]

theorem get (h : SameFor id key events t u) : t.get x id = u.get x id := by
  rw [Tables.get, Tables.get, h.row?]

theorem ledger_eq (h : SameFor id key events t u) : t.ledger id = u.ledger id := by
  rw [Tables.ledger, Tables.ledger, h.ledger]

theorem find?_sameIdempotencyKey (h : SameFor id key events t u) {row : OperationRow}
    (hrow : row.idempotencyKey = key) :
    t.operations.find? (sameIdempotencyKey row) = u.operations.find? (sameIdempotencyKey row) := by
  have hkeyed : ∀ l : List OperationRow, l.find? (sameIdempotencyKey row) =
      (l.filter (·.idempotencyKey = key)).find? (sameIdempotencyKey row) := by
    intro l
    rw [List.find?_filter]
    congr 1
    funext r
    by_cases hr : r.idempotencyKey = key
    · simp [hr]
    · simp [sameIdempotencyKey, hrow, hr, Ne.symm hr]
  rw [hkeyed, hkeyed u.operations, h.keyed]

theorem append_operation (h : SameFor id key events t u) (row : OperationRow) :
    SameFor id key events { t with operations := t.operations ++ [row] }
      { u with operations := u.operations ++ [row] } where
  rows := by simp only [List.filter_append, h.rows]
  keyed := by simp only [List.filter_append, h.keyed]
  ledger := h.ledger
  taken := h.taken

theorem append_event (h : SameFor id key events t u) (e : OperationEventRow) :
    SameFor id key events { t with events := t.events ++ [e] }
      { u with events := u.events ++ [e] } where
  rows := h.rows
  keyed := h.keyed
  ledger := by simp only [List.filter_append, h.ledger]
  taken := fun i hi => by simp only [List.any_append, h.taken i hi]

theorem countP_updates (h : SameFor id key events t u) {current : OperationRecord}
    (hid : current.id = id) (target : OperationState) (now : DateTime) :
    t.operations.countP (updates current target now) =
      u.operations.countP (updates current target now) := by
  have hcount : ∀ l : List OperationRow, l.countP (updates current target now) =
      (l.filter (·.id = id)).countP (updates current target now) := by
    intro l
    rw [List.countP_filter]
    refine List.countP_congr fun r _ => ?_
    by_cases hr : r.id = id
    · simp [hr]
    · simp [updates, hid, hr]
  rw [hcount, hcount u.operations, h.rows]

theorem update (h : SameFor id key events t u) (current : OperationRecord)
    (target : OperationState) (now : DateTime) :
    SameFor id key events (t.update current target now) (u.update current target now) := by
  have hmap : ∀ (p : OperationRow → Bool) (l : List OperationRow),
      (∀ r : OperationRow, p (r.moved target now) = p r) →
      (l.map fun r =>
        if updates current target now r then r.moved target now else r).filter p =
        (l.filter p).map fun r => if updates current target now r then r.moved target now else r := by
    intro p l hp
    rw [List.filter_map]
    congr 1
    refine List.filter_congr fun r _ => ?_
    by_cases hr : updates current target now r
    · simp [hr, hp]
    · simp [hr]
  refine ⟨?_, ?_, h.ledger, h.taken⟩
  · rw [Tables.update, Tables.update, hmap _ _ fun _ => rfl, hmap _ _ fun _ => rfl, h.rows]
  · rw [Tables.update, Tables.update, hmap _ _ fun _ => rfl, hmap _ _ fun _ => rfl, h.keyed]

end SameFor

section

open Tx

variable {x : Crates} {id : Uuid} {key : String} {events : List Uuid}

theorem alike_insertEvent {e : OperationEventRow} (hid : e.operationId = id) (he : e.id ∈ events) :
    Alike (SameFor id key events) (insertEvent x e) (insertEvent x e) := by
  refine alike_get_bind fun t u h => ?_
  have htaken : t.events.any (fun r => r.id = e.id) = true ↔
      u.events.any (fun r => r.id = e.id) = true := by rw [h.taken e.id he]
  have hsequence : t.events.any (fun r => r.operationId = e.operationId ∧ r.sequence = e.sequence) =
      true ↔ u.events.any (fun r => r.operationId = e.operationId ∧ r.sequence = e.sequence) =
      true := by
    have hledger : ∀ l : List OperationEventRow,
        l.any (fun r => r.operationId = e.operationId ∧ r.sequence = e.sequence) =
          (l.filter (·.operationId = id)).any fun r => r.sequence = e.sequence := by
      intro l
      rw [List.any_filter, hid]
      simp
    rw [hledger, hledger u.events, h.ledger]
  refine agree_refuseIf_bind htaken (agree_refuseIf_bind hsequence (agree_refuseIf_bind ?_ ?_))
  · rw [hid, h.row?]
  · exact agree_refuseIf_bind Iff.rfl (agree_refuseIf_bind Iff.rfl (.ok _ (h.append_event e)))

theorem alike_appendEventTx (kind : OperationEventKind) (state : OperationState) (details : Value)
    (createdAt : DateTime) {eventId : Uuid} (he : eventId ∈ events) :
    Alike (SameFor id key events) (appendEventTx x id kind state details createdAt eventId)
      (appendEventTx x id kind state details createdAt eventId) := by
  have hinsert : ∀ e : OperationEventRow, e.operationId = id → e.id ∈ events →
      Alike (SameFor id key events) (insertEvent x e) (insertEvent x e) :=
    fun _ => alike_insertEvent
  refine (alike_lift _).bind fun _ => alike_get_bind fun t u h => ?_
  dsimp only
  rw [h.ledger_eq]
  refine agree_refuseIf_bind Iff.rfl (agree_bind (hinsert _ rfl he t u h) fun _ => ?_)
  exact (alike_lift _).bind fun _ => alike_pure _

theorem alike_insertOperation {row : OperationRow} (hid : row.id = id)
    (hkey : row.idempotencyKey = key) :
    Alike (SameFor id key events) (insertOperation x row) (insertOperation x row) := by
  refine alike_get_bind fun t u h => agree_refuseIf_bind ?_ (agree_refuseIf_bind ?_
    (agree_refuseIf_bind Iff.rfl (.ok _ (h.append_operation row))))
  · rw [hid, h.row?]
  · rw [List.any_eq_true, ← List.find?_isSome, h.find?_sameIdempotencyKey hkey, List.find?_isSome,
      List.any_eq_true]

theorem alike_fetchOperationTx : Alike (SameFor id key events) (fetchOperationTx x id)
    (fetchOperationTx x id) := by
  refine alike_get_bind fun t u h => ?_
  rw [h.row?]
  cases u.row? id with
  | none => exact .error _
  | some row => exact alike_lift (rowToOperation x row) t u h

theorem alike_transitionTx {current : OperationRecord} (hid : current.id = id)
    (target : OperationState) (details : Value) (now : DateTime) {eventId : Uuid}
    (he : eventId ∈ events) :
    Alike (SameFor id key events) (transitionTx x current target details now eventId)
      (transitionTx x current target details now eventId) := by
  subst hid
  refine (alike_lift _).bind fun _ => alike_get_bind fun t u h => ?_
  have hcount := h.countP_updates rfl target now
  refine agree_refuseIf_bind (by rw [hcount]) ?_
  have hrest : Alike (SameFor current.id key events)
      (appendEventTx x current.id (transitionEventKind target) target details now eventId >>=
        fun _ => fetchOperationTx x current.id)
      (appendEventTx x current.id (transitionEventKind target) target details now eventId >>=
        fun _ => fetchOperationTx x current.id) :=
    (alike_appendEventTx _ _ _ _ he).bind fun _ => alike_fetchOperationTx
  exact hrest _ _ (h.update current target now)

/-- Two stores that agree on an operation insert it alike. -/
theorem insertPlanned_alike {runtimeId : Uuid} {operation : NewOperation} (hid : operation.id = id)
    (hkey : operation.idempotencyKey = key) (createdAt : DateTime) {eventId : Uuid}
    (he : eventId ∈ events) {t u : Tables} (h : SameFor id key events t u) :
    (insertPlanned x runtimeId operation createdAt eventId t).1 =
        (insertPlanned x runtimeId operation createdAt eventId u).1 ∧
      SameFor id key events (insertPlanned x runtimeId operation createdAt eventId t).2
        (insertPlanned x runtimeId operation createdAt eventId u).2 := by
  refine Alike.settle ?_ h
  intro s w hsw
  refine agree_lift_bind fun prepared hnew => ?_
  have hop := (PreparedOperation.new_eq_ok hnew).2
  have hrow : (prepared.row createdAt).id = id ∧
      (prepared.row createdAt).idempotencyKey = key := by
    rw [← hid, ← hkey, ← hop]
    exact ⟨rfl, rfl⟩
  refine alike_get_bind (fun t u h => ?_) s w hsw
  rw [h.find?_sameIdempotencyKey hrow.2]
  cases u.operations.find? (sameIdempotencyKey (prepared.row createdAt)) with
  | some found =>
    refine agree_lift_bind fun existing _ => ?_
    by_cases hsame : prepared.matches existing
    · rw [if_pos hsame]
      exact .ok _ h
    · rw [if_neg hsame]
      exact .error _
  | none =>
    obtain ⟨hid, hkey⟩ := hrow
    rw [hid]
    refine (alike_insertOperation hid hkey).bind (fun _ => ?_) t u h
    exact (alike_appendEventTx _ _ _ _ he).bind fun _ => alike_fetchOperationTx.bind fun _ =>
      alike_pure _

/-- Two stores that agree on an operation move it alike. -/
theorem transition_alike {runtimeId : Uuid} (target : OperationState) (details : Value)
    (now : DateTime) {eventId : Uuid} (he : eventId ∈ events) {t u : Tables}
    (h : SameFor id key events t u) :
    (transition x id runtimeId target details now eventId t).1 =
        (transition x id runtimeId target details now eventId u).1 ∧
      SameFor id key events (transition x id runtimeId target details now eventId t).2
        (transition x id runtimeId target details now eventId u).2 := by
  refine Alike.settle ?_ h
  intro s w hsw
  refine agree_refuseIf_bind Iff.rfl (agree_bind_of (alike_fetchOperationTx s w hsw) ?_)
  intro current s' w' hcurrent hsw'
  obtain ⟨row, stored, hrow, -, rfl, -⟩ := fetchOperationTx_eq_ok.1 hcurrent
  have hid : (row.toRecord stored).id = id := (mem_of_row? hrow).2
  refine agree_lift_bind fun _ _ => ?_
  exact ((alike_transitionTx hid target details now he).bind fun _ => alike_pure _) s' w' hsw'

theorem id_of_fetchOperationTx {op : OperationRecord} {t t' : Tables}
    (h : fetchOperationTx x id t = .ok (op, t')) : op.id = id := by
  obtain ⟨row, stored, hrow, -, rfl, -⟩ := fetchOperationTx_eq_ok.1 h
  exact (mem_of_row? hrow).2

/-- An operation under a new idempotency key is planned under its own id. -/
theorem id_of_insertPlanned {runtimeId : Uuid} {operation : NewOperation}
    {createdAt : DateTime} {eventId : Uuid} {t t' : Tables} {op : OperationRecord}
    (hnew : ∀ row ∈ t.operations, row.idempotencyKey ≠ operation.idempotencyKey)
    (h : insertPlanned x runtimeId operation createdAt eventId t = (.ok op, t')) :
    op.id = operation.id := by
  rcases Tx.settle_cases h with ⟨res, s', hm, hout⟩ | ⟨e, hout⟩
  · obtain ⟨prepared, hprepared, hm⟩ := Tx.lift_bind_eq_ok.1 hm
    have hop := (PreparedOperation.new_eq_ok hprepared).2
    rw [Tx.get_bind_eq_ok] at hm
    cases hfind : t.operations.find? (sameIdempotencyKey (prepared.row createdAt)) with
    | some found =>
      have hkey := List.find?_some hfind
      simp only [sameIdempotencyKey, Bool.and_eq_true, decide_eq_true_eq] at hkey
      refine absurd ?_ (hnew found (List.mem_of_find?_eq_some hfind))
      rw [← hkey.2, ← hop]
      rfl
    | none =>
      simp only [hfind] at hm
      obtain ⟨_, _, -, hm⟩ := Tx.bind_eq_ok.1 hm
      obtain ⟨_, _, -, hm⟩ := Tx.bind_eq_ok.1 hm
      obtain ⟨fetched, _, hfetch, hm⟩ := Tx.bind_eq_ok.1 hm
      obtain ⟨rfl, -⟩ := Tx.pure_eq_ok.1 hm
      obtain rfl := Except.ok.inj (Prod.mk.inj hout).1
      rw [← hop]
      exact id_of_fetchOperationTx hfetch
  · cases (Prod.mk.inj hout).1

theorem id_of_transition {runtimeId : Uuid} {target : OperationState} {details : Value}
    {now : DateTime} {eventId : Uuid} {t t' : Tables} {op : OperationRecord}
    (h : transition x id runtimeId target details now eventId t = (.ok op, t')) : op.id = id := by
  rcases Tx.settle_cases h with ⟨res, s', hm, hout⟩ | ⟨e, hout⟩
  · rw [Tx.refuseIf_bind_eq_ok] at hm
    obtain ⟨-, hm⟩ := hm
    obtain ⟨current, _, hfetch, hm⟩ := Tx.bind_eq_ok.1 hm
    have hid := id_of_fetchOperationTx hfetch
    obtain ⟨_, _, -, hm⟩ := Tx.bind_eq_ok.1 hm
    obtain ⟨moved, _, hmoved, hm⟩ := Tx.bind_eq_ok.1 hm
    obtain ⟨rfl, -⟩ := Tx.pure_eq_ok.1 hm
    obtain rfl := Except.ok.inj (Prod.mk.inj hout).1
    rw [transitionTx, Tx.lift_bind_eq_ok] at hmoved
    obtain ⟨-, -, hmoved⟩ := hmoved
    simp only [Tx.get_bind_eq_ok, Tx.refuseIf_bind_eq_ok, Tx.set_bind_eq_ok] at hmoved
    obtain ⟨-, hmoved⟩ := hmoved
    obtain ⟨_, _, -, hmoved⟩ := Tx.bind_eq_ok.1 hmoved
    rw [← hid]
    exact id_of_fetchOperationTx hmoved
  · cases (Prod.mk.inj hout).1

/-- An operation under a new idempotency key keeps its id when it is planned. -/
theorem id_of_plan {runtimeId : Uuid} {operation : NewOperation}
    {disposition : OperationPlanDisposition} {clock : ℕ → DateTime} {eventIds : ℕ → Uuid}
    {t t' : Tables} {op : OperationRecord}
    (hnew : ∀ row ∈ t.operations, row.idempotencyKey ≠ operation.idempotencyKey)
    (h : plan x runtimeId operation disposition clock eventIds t = (.ok op, t')) :
    op.id = operation.id := by
  unfold plan at h
  split at h
  · cases (Prod.mk.inj h).1
  · generalize hout : insertPlanned x runtimeId operation (clock 0) (eventIds 0) t = out at h
    obtain ⟨result, t₁⟩ := out
    cases result with
    | error e => cases (Prod.mk.inj h).1
    | ok planned =>
      have hid := id_of_insertPlanned hnew hout
      dsimp only at h
      split at h
      · obtain rfl := Except.ok.inj (Prod.mk.inj h).1
        exact hid
      · rw [id_of_transition h, hid]

/-- **Two stores that agree on a new operation plan it alike.** -/
theorem plan_alike {runtimeId : Uuid} {operation : NewOperation}
    (disposition : OperationPlanDisposition) (clock : ℕ → DateTime) {eventIds : ℕ → Uuid}
    {t u : Tables} (hnew : ∀ row ∈ t.operations, row.idempotencyKey ≠ operation.idempotencyKey)
    (h : SameFor operation.id operation.idempotencyKey [eventIds 0, eventIds 1] t u) :
    (plan x runtimeId operation disposition clock eventIds t).1 =
        (plan x runtimeId operation disposition clock eventIds u).1 ∧
      SameFor operation.id operation.idempotencyKey [eventIds 0, eventIds 1]
        (plan x runtimeId operation disposition clock eventIds t).2
        (plan x runtimeId operation disposition clock eventIds u).2 := by
  unfold plan
  split
  · exact ⟨rfl, h⟩
  · have hinsert : (insertPlanned x runtimeId operation (clock 0) (eventIds 0) t).1 =
          (insertPlanned x runtimeId operation (clock 0) (eventIds 0) u).1 ∧
        SameFor operation.id operation.idempotencyKey [eventIds 0, eventIds 1]
          (insertPlanned x runtimeId operation (clock 0) (eventIds 0) t).2
          (insertPlanned x runtimeId operation (clock 0) (eventIds 0) u).2 :=
      insertPlanned_alike rfl rfl (clock 0) List.mem_cons_self h
    obtain ⟨hvalue, hstore⟩ := hinsert
    generalize hout : insertPlanned x runtimeId operation (clock 0) (eventIds 0) t = out
      at hvalue hstore
    generalize insertPlanned x runtimeId operation (clock 0) (eventIds 0) u = out' at hvalue hstore
    obtain ⟨result, t'⟩ := out
    obtain ⟨result', u'⟩ := out'
    obtain rfl : result = result' := hvalue
    cases result with
    | error e => exact ⟨rfl, hstore⟩
    | ok planned =>
      dsimp only
      split
      · exact ⟨rfl, hstore⟩
      · rw [id_of_insertPlanned hnew hout]
        exact transition_alike _ _ _ (List.mem_cons_of_mem _ List.mem_cons_self) hstore

end

end Operations
end AgentDb
