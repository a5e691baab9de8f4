import AgentDb.Operations.CanonicalForm
import AgentDb.Operations.Invariants

/-!
# Idempotency keys: `insert_planned` of `operations/repository.rs`

An operation is bound to its workspace, its actor and the key the caller chose. A second call with
the same key is compared with what is stored, column by column, after the JSON columns have gone
through their canonical texts. The columns that are compared never change after the row was planned,
so the comparison is with the call that planned it, however far the operation has got since.
-/

namespace AgentDb
namespace Operations

open Json

variable {x : Crates} {t t' : Tables}

/-! ### Reading the provenance back -/

theorem lookup_optionalEntry_append (key k : String) (o : Option Value)
    (entries : List (String × Value)) :
    (optionalEntry key o ++ entries).lookup k =
      (if k = key then o else none).or (entries.lookup k) := by
  cases o with
  | none => simp [optionalEntry]
  | some v =>
    by_cases hk : k = key
    · simp [optionalEntry, hk]
    · simp [optionalEntry, List.lookup_cons, beq_false_of_ne hk, hk]

/-- A text field reads back, and so does its absence. -/
theorem readOptionalString_of_lookup {entries : List (String × Value)} {key : String}
    {o : Option String} (h : entries.lookup key = o.map .string) :
    readOptionalString entries key = .ok o := by
  rw [readOptionalString, h]
  cases o <;> rfl

theorem readOptionalString_canonical {entries : List (String × Value)}
    (hkeys : (entries.map Prod.fst).Nodup) (key : String) :
    readOptionalString ((canonicalEntries entries).insertionSort fun a b => a.1 ≤ b.1) key =
      readOptionalString entries key := by
  rw [readOptionalString, readOptionalString, lookup_canonical hkeys]
  cases entries.lookup key with
  | none => rfl
  | some v => cases v <;> rfl

theorem any_canonicalEntries (entries : List (String × Value)) (p : String → Bool) :
    ((canonicalEntries entries).insertionSort fun a b => a.1 ≤ b.1).any (fun e => p e.1) =
      entries.any fun e => p e.1 := by
  rw [Bool.eq_iff_iff, List.any_eq_true, List.any_eq_true]
  constructor
  · rintro ⟨e, he, hp⟩
    obtain ⟨e', he', rfl⟩ := mem_canonicalEntries.1 he
    exact ⟨e', he', hp⟩
  · rintro ⟨e, he, hp⟩
    exact ⟨_, mem_canonicalEntries.2 ⟨e, he, rfl⟩, hp⟩

/-- The provenance is read from the fields, in whatever order they stand. -/
theorem OperationActorProvenance.fromValue_canonicalValue {v : Value} (hv : v.Held) :
    fromValue (canonicalValue v) = fromValue v := by
  cases hv with
  | @object entries hkeys hentries =>
    have hclient := lookup_canonical hkeys "clientProtocolVersion"
    have horigin := lookup_canonical hkeys "originSurface"
    have hknown := any_canonicalEntries entries fun k => decide (k ∉
      ["localAccountId", "workspaceAccountId", "agentProvider", "agentModel", "pluginId",
        "pluginVersion", "clientProtocolVersion", "originSurface"])
    rw [canonicalValue, fromValue, fromValue]
    simp only [readOptionalString_canonical hkeys, hclient, horigin, hknown]
    generalize entries.lookup "clientProtocolVersion" = client
    generalize entries.lookup "originSurface" = origin
    -- a value and its canonical form are of one kind, and the leaves are the same
    rcases client with _ | (_ | _ | _ | _ | _ | _) <;>
      rcases origin with _ | (_ | _ | _ | _ | _ | _) <;> rfl
  | _ => rfl

theorem any_optionalEntry {key : String} {o : Option Value} {p : String × Value → Bool}
    (h : ∀ v, p (key, v) = false) : (optionalEntry key o).any p = false := by
  cases o with
  | none => rfl
  | some v => simp [optionalEntry, h v]

theorem OperationActorProvenance.fromValue_toValue (p : OperationActorProvenance) :
    fromValue p.toValue = .ok p := by
  obtain ⟨entries, hentries⟩ : ∃ entries, p.toValue = .object entries := ⟨_, rfl⟩
  have hlist := Value.object.inj hentries
  have hknown : (entries.any fun e => decide (e.1 ∉ ["localAccountId", "workspaceAccountId",
      "agentProvider", "agentModel", "pluginId", "pluginVersion", "clientProtocolVersion",
      "originSurface"])) = false := by
    simp only [← hlist, List.any_append, Bool.or_eq_false_iff]
    refine ⟨⟨⟨⟨⟨⟨⟨?_, ?_⟩, ?_⟩, ?_⟩, ?_⟩, ?_⟩, ?_⟩, rfl⟩ <;>
      exact any_optionalEntry fun v => by simp
  have hlookup : ∀ key, entries.lookup key =
      (if key = "localAccountId" then p.localAccountId.map Value.string else none).or
      ((if key = "workspaceAccountId" then p.workspaceAccountId.map Value.string else none).or
      ((if key = "agentProvider" then p.agentProvider.map Value.string else none).or
      ((if key = "agentModel" then p.agentModel.map Value.string else none).or
      ((if key = "pluginId" then p.pluginId.map Value.string else none).or
      ((if key = "pluginVersion" then p.pluginVersion.map Value.string else none).or
      ((if key = "clientProtocolVersion" then
        p.clientProtocolVersion.map fun n => Value.number (.int n.toNat) else none).or
      ([("originSurface", Value.string p.originSurface)].lookup key))))))) := fun key => by
    simp only [← hlist, List.append_assoc, lookup_optionalEntry_append]
  have hlast : ∀ key, key ≠ "originSurface" →
      [("originSurface", Value.string p.originSurface)].lookup key = none := fun key hne => by
    rw [List.lookup_cons, beq_false_of_ne hne]
    rfl
  have hread : ∀ key (o : Option String), entries.lookup key = o.map .string →
      readOptionalString entries key = .ok o := fun _ _ => readOptionalString_of_lookup
  have hclient : entries.lookup "clientProtocolVersion" =
      p.clientProtocolVersion.map fun n => Value.number (.int n.toNat) := by simp [hlookup, hlast]
  have horigin : entries.lookup "originSurface" = some (.string p.originSurface) := by
    simp [hlookup]
  rw [hentries, fromValue]
  simp only [hknown, Bool.false_eq_true, if_false, hclient, horigin,
    hread "localAccountId" p.localAccountId (by simp [hlookup, hlast]),
    hread "workspaceAccountId" p.workspaceAccountId (by simp [hlookup, hlast]),
    hread "agentProvider" p.agentProvider (by simp [hlookup, hlast]),
    hread "agentModel" p.agentModel (by simp [hlookup, hlast]),
    hread "pluginId" p.pluginId (by simp [hlookup, hlast]),
    hread "pluginVersion" p.pluginVersion (by simp [hlookup, hlast])]
  cases hversion : p.clientProtocolVersion with
  | none =>
    cases p
    cases hversion
    rfl
  | some n =>
    have hrange : (0 : ℤ) ≤ n.toNat ∧ (n.toNat : ℤ) < 65536 := by
      have := n.toNat_lt
      omega
    have hback : UInt16.ofNat (n.toNat : ℤ).toNat = n := by simp
    simp only [Option.map_some, if_pos hrange, hback]
    cases p
    cases hversion
    rfl

theorem map_fst_optionalEntry_sublist (key : String) (o : Option Value) :
    ((optionalEntry key o).map Prod.fst).Sublist [key] := by
  cases o with
  | none => exact List.nil_sublist _
  | some v => exact List.Sublist.refl _

theorem held_optionalEntry {key : String} {o : Option Value} (h : ∀ v ∈ o, v.Held) :
    ∀ e ∈ optionalEntry key o, e.2.Held := by
  cases o with
  | none => exact fun _ he => nomatch he
  | some v => exact List.forall_mem_singleton.2 (h v rfl)

theorem OperationActorProvenance.held_toValue (p : OperationActorProvenance) : p.toValue.Held := by
  have hstring : ∀ {key : String} {o : Option String},
      ∀ e ∈ optionalEntry key (o.map .string), e.2.Held := by
    intro key o
    refine held_optionalEntry fun v hv => ?_
    obtain ⟨s, -, rfl⟩ := Option.mem_map.1 hv
    exact .string s
  refine .object ?_ ?_
  · have hsublist := fun key o => map_fst_optionalEntry_sublist key o
    have hdistinct : (["localAccountId"] ++ ["workspaceAccountId"] ++ ["agentProvider"] ++
      ["agentModel"] ++ ["pluginId"] ++ ["pluginVersion"] ++ ["clientProtocolVersion"] ++
      ["originSurface"]).Nodup := by decide
    refine List.Nodup.sublist ?_ hdistinct
    simp only [List.map_append]
    iterate 7 refine List.Sublist.append ?_ (by first | exact hsublist _ _ | exact .refl _)
    exact hsublist _ _
  · simp only [List.forall_mem_append, List.forall_mem_singleton]
    refine ⟨⟨⟨⟨⟨⟨⟨hstring, hstring⟩, hstring⟩, hstring⟩, hstring⟩, hstring⟩, ?_⟩, .string _⟩
    refine held_optionalEntry fun v hv => ?_
    obtain ⟨n, -, rfl⟩ := Option.mem_map.1 hv
    have := n.toNat_lt
    exact .int (by omega)

/-- **The provenance survives the store.** -/
theorem provenance_of_stored {v : Value} (hv : v.Held) {p q : OperationActorProvenance}
    (hsame : canonicalValue v = canonicalValue p.toValue)
    (hread : OperationActorProvenance.fromValue v = .ok q) : q = p := by
  rw [← OperationActorProvenance.fromValue_canonicalValue hv, hsame,
    OperationActorProvenance.fromValue_canonicalValue p.held_toValue,
    OperationActorProvenance.fromValue_toValue] at hread
  exact (Except.ok.inj hread).symm

/-! ### The comparison with what is stored -/

/-- What the comparison needs of `serde_json`: from what it has printed it parses a value, and
values it prints alike have one canonical form. -/
structure Crates.TellsApart (x : Crates) : Prop where
  held : ∀ {a v : Value}, a.Held → x.fromStr (canonicalJson x a) = some v → v.Held
  apart : ∀ {a b : Value}, a.Held → b.Held → canonicalJson x a = canonicalJson x b →
    canonicalValue a = canonicalValue b

theorem parseCanonicalJson_eq_ok {json : String} {v : Value} :
    parseCanonicalJson x json = .ok v ↔ x.fromStr json = some v ∧ canonicalJson x v = json := by
  unfold parseCanonicalJson fromStr
  cases x.fromStr json with
  | none => simp [bind, Except.bind]
  | some w =>
    simp only [Except.bind_eq_ok, refuseIf_eq_ok, Except.pure_eq_ok, not_ne_iff, Except.ok.injEq,
      exists_eq_left', Option.some.injEq]
    constructor
    · rintro ⟨_, hjson, rfl⟩
      exact ⟨rfl, hjson⟩
    · rintro ⟨rfl, hjson⟩
      exact ⟨⟨⟩, hjson, rfl⟩

/-- A column that was written as canonical JSON reads back with the canonical form it had. -/
theorem canonicalValue_of_stored (hx : x.TellsApart) {v w : Value} (hv : v.Held)
    (h : parseCanonicalJson x (canonicalJson x v) = .ok w) :
    w.Held ∧ canonicalValue w = canonicalValue v := by
  obtain ⟨hread, hjson⟩ := parseCanonicalJson_eq_ok.1 h
  have hw := hx.held hv hread
  exact ⟨hw, hx.apart hw hv hjson⟩

/-- The two calls plan the same operation: every field is the same but the id, where of the payload
only the canonical hash counts and of the other JSON values only what they say. -/
structure SameContent (x : Crates) (runtimeId : Uuid) (operation : NewOperation) (runtimeId' : Uuid)
    (operation' : NewOperation) : Prop where
  runtime : runtimeId = runtimeId'
  fields : { operation with
    id := operation'.id
    payload := operation'.payload
    preview := operation'.preview
    policySnapshot := operation'.policySnapshot } = operation'
  payload : canonicalHash x operation.payload = canonicalHash x operation'.payload
  preview : operation.preview.extension = operation'.preview.extension
  policySnapshot : operation.policySnapshot.extension = operation'.policySnapshot.extension

/-- The columns of a row that tell what its operation is. -/
def OperationRow.plan (row : OperationRow) : OperationRow :=
  { row with
    state := .planned
    startedAt := none
    finishedAt := none
    updatedAt := row.createdAt }

@[simp] theorem plan_moved (row : OperationRow) (target : OperationState) (now : DateTime) :
    (row.moved target now).plan = row.plan := rfl

@[simp] theorem PreparedOperation.plan_row (p : PreparedOperation) (createdAt : DateTime) :
    (p.row createdAt).plan = p.row createdAt := rfl

theorem sameIdempotencyKey_plan (a b : OperationRow) :
    sameIdempotencyKey a.plan b.plan = sameIdempotencyKey a b := rfl

/-- A row is its plan and the four columns of its lifecycle. -/
theorem exists_of_plan {row planned : OperationRow} (h : row.plan = planned) :
    ∃ state startedAt finishedAt updatedAt,
      row = { planned with state, startedAt, finishedAt, updatedAt } := by
  subst h
  exact ⟨row.state, row.startedAt, row.finishedAt, row.updatedAt, rfl⟩

theorem PreparedOperation.new_eq {r : Uuid} {operation : NewOperation} {p : PreparedOperation}
    (h : PreparedOperation.new x r operation = .ok p) :
    p = { runtimeId := r
          operation
          payload := CanonicalJson.fromValue x operation.payload
          actorProvenanceJson := canonicalJson x operation.actor.provenance.toValue
          previewJson := canonicalJson x operation.preview
          policySnapshotJson := canonicalJson x operation.policySnapshot } := by
  simp only [PreparedOperation.new, Except.bind_eq_ok, Except.pure_eq_ok] at h
  obtain ⟨-, -, -, -, -, -, rfl⟩ := h
  rfl

/-- The JSON values of an operation are values. -/
def NewOperation.Held (operation : NewOperation) : Prop :=
  operation.preview.Held ∧ operation.policySnapshot.Held

/-- **The comparison is with the call that planned the row**, whatever has become of it since. -/
theorem matches_iff (hx : x.TellsApart) {r r' : Uuid} {operation operation' : NewOperation}
    {p p' : PreparedOperation} {createdAt : DateTime} {row : OperationRow}
    {existing : OperationRecord} (hnew : PreparedOperation.new x r operation = .ok p)
    (hnew' : PreparedOperation.new x r' operation' = .ok p') (hheld : operation.Held)
    (hheld' : operation'.Held) (hplan : row.plan = p'.row createdAt)
    (hread : rowToOperation x row = .ok existing) :
    p.matches existing = true ↔ SameContent x r operation r' operation' := by
  obtain rfl := PreparedOperation.new_eq hnew
  obtain rfl := PreparedOperation.new_eq hnew'
  obtain ⟨state, startedAt, finishedAt, updatedAt, rfl⟩ := exists_of_plan hplan
  obtain ⟨stored, hstored, rfl⟩ := rowToOperation_eq_ok.1 hread
  simp only [storedPayload, Except.bind_eq_ok, Except.pure_eq_ok] at hstored
  obtain ⟨_, -, _, -, v, hprovenance, provenance, hactor, preview, hpreview, policy, hpolicy,
    rfl⟩ := hstored
  obtain ⟨hv, hsame⟩ :=
    canonicalValue_of_stored hx operation'.actor.provenance.held_toValue hprovenance
  obtain rfl := provenance_of_stored hv hsame hactor
  obtain ⟨hpreviewHeld, hpreviewSame⟩ := canonicalValue_of_stored hx hheld'.1 hpreview
  obtain ⟨hpolicyHeld, hpolicySame⟩ := canonicalValue_of_stored hx hheld'.2 hpolicy
  simp only [PreparedOperation.matches, Bool.and_eq_true, decide_eq_true_eq, and_assoc]
  simp only [OperationRow.toRecord, PreparedOperation.row, hpreviewSame, hpolicySame,
    beq_canonicalValue_iff hheld'.1 hheld.1, beq_canonicalValue_iff hheld'.2 hheld.2]
  constructor
  · rintro ⟨rfl, hworkspace, hscope, hconnection, hrevision, hterminal, hactor, hkind, hversion,
      hpayload, hfingerprint, hrisk, hpreviews, hpolicies, hpolicyRevision, hsingle, hkey, hexpires⟩
    refine ⟨rfl, ?_, hpayload.symm, hpreviews.symm, hpolicies.symm⟩
    cases operation
    cases operation'
    simp only [NewOperation.mk.injEq, true_and] at *
    exact ⟨hworkspace.symm, hscope.symm, hconnection.symm, hrevision.symm, hterminal.symm,
      hactor.symm, hkind.symm, hversion.symm, hfingerprint.symm, hrisk.symm, hpolicyRevision.symm,
      hsingle.symm, hkey.symm, hexpires.symm⟩
  · rintro ⟨rfl, hfields, hpayload, hpreviews, hpolicies⟩
    have hfield : ∀ {β : Type} (f : NewOperation → β),
        f operation' = f { operation with
          id := operation'.id
          payload := operation'.payload
          preview := operation'.preview
          policySnapshot := operation'.policySnapshot } := fun f => congrArg f hfields.symm
    exact ⟨rfl, hfield (·.workspaceId), hfield (·.accountScope), hfield (·.connectionId),
      hfield (·.connectionRevision), hfield (·.terminalSessionId), hfield (·.actor),
      hfield (·.kind), hfield (·.payloadSchemaVersion), hpayload.symm,
      hfield (·.schemaFingerprint), hfield (·.riskLevel), hpreviews.symm, hpolicies.symm,
      hfield (·.policyRevision), hfield (·.singleUse), hfield (·.idempotencyKey),
      hfield (·.expiresAt)⟩

/-! ### The plans of a run -/

/-- The plans of all rows, in the order they were stored. -/
def Tables.plans (t : Tables) : List OperationRow := t.operations.map OperationRow.plan

theorem plans_map_of_moves {rows : List OperationRow} {p : OperationRow → Prop}
    [DecidablePred p] {target : OperationState} {now : DateTime} :
    (rows.map fun r => if p r then r.moved target now else r).map OperationRow.plan =
      rows.map OperationRow.plan := by
  rw [List.map_map]
  refine List.map_congr_left fun r _ => ?_
  by_cases hp : p r
  · simp [hp]
  · simp [hp]

theorem plans_moveRow (t : Tables) (row : OperationRow) (target : OperationState) (details : Value)
    (now : DateTime) (eventId : Uuid) :
    (t.moveRow x row target details now eventId).plans = t.plans :=
  plans_map_of_moves

theorem plans_recoverRows {ids : ℕ → Uuid} {clock : ℕ → DateTime} {index : ℕ}
    {rows : List OperationRow} {report out : RestartRecoveryReport} (hids : t.UniqueIds)
    (h : recoverRows x ids clock index rows report t = .ok (out, t')) : t'.plans = t.plans := by
  induction rows generalizing index report t with
  | nil =>
    obtain ⟨-, rfl⟩ := Tx.pure_eq_ok.1 h
    rfl
  | cons row rows ih =>
    obtain ⟨operation, -, h⟩ := Tx.lift_bind_eq_ok.1 h
    have move : ∀ (target : OperationState) (details : Value) (report : RestartRecoveryReport),
        (transitionTx x operation target details (clock index) (ids index) >>=
          fun _ => recoverRows x ids clock (index + 1) rows report) t = .ok (out, t') →
        t'.plans = t.plans := by
      intro target details report h
      obtain ⟨op, _, htransition, h⟩ := Tx.bind_eq_ok.1 h
      obtain ⟨r, -, -, -, rfl, -⟩ := transitionTx_eq_ok hids htransition
      exact (ih (uniqueIds_moveRow hids) h).trans (plans_moveRow ..)
    cases hcase : restartRecovery operation.kind operation.state <;> rw [hcase] at h
    · exact ih hids h
    · exact move _ _ _ h
    · exact move _ _ _ h
    · exact move _ _ _ h
    · exact ih hids h

/-- The row that a call plans: its key is new. -/
structure Plans (x : Crates) (t : Tables) (call : Call) (row : OperationRow) : Prop where
  planned : ∃ runtimeId operation createdAt eventId p,
    call = .insertPlanned runtimeId operation createdAt eventId ∧
      PreparedOperation.new x runtimeId operation = .ok p ∧ row = p.row createdAt
  new_key : ∀ r ∈ t.operations, sameIdempotencyKey row r = false

/-- `insert_planned` leaves the rows alone or adds the one it plans. -/
theorem insertPlanned_plans (r : Uuid) (operation : NewOperation) (createdAt : DateTime)
    (eventId : Uuid) :
    (insertPlanned x r operation createdAt eventId t).2 = t ∨
      ∃ row, Plans x t (.insertPlanned r operation createdAt eventId) row ∧
        (insertPlanned x r operation createdAt eventId t).2.operations = t.operations ++ [row] := by
  generalize hout : insertPlanned x r operation createdAt eventId t = out
  rcases Tx.settle_cases hout with ⟨res, t₁, hm, rfl⟩ | ⟨e, rfl⟩
  · obtain ⟨prepared, hnew, hm⟩ := Tx.lift_bind_eq_ok.1 hm
    rw [Tx.get_bind_eq_ok] at hm
    cases hfind : t.operations.find? (sameIdempotencyKey (prepared.row createdAt)) with
    | some found =>
      simp only [hfind] at hm
      obtain ⟨existing, -, hm⟩ := Tx.lift_bind_eq_ok.1 hm
      split_ifs at hm
      · obtain ⟨rfl, rfl⟩ := Tx.pure_eq_ok.1 hm
        exact .inl rfl
      · exact (Tx.throw_eq_ok.1 hm).elim
    | none =>
      simp only [hfind] at hm
      obtain ⟨_, _, hinsert, hm⟩ := Tx.bind_eq_ok.1 hm
      obtain ⟨-, rfl⟩ := insertOperation_eq_ok hinsert
      obtain ⟨_, _, happend, hm⟩ := Tx.bind_eq_ok.1 hm
      obtain ⟨-, -, -, _, -, -, rfl⟩ := appendEventTx_eq_ok.1 happend
      obtain ⟨op, _, hfetch, hm⟩ := Tx.bind_eq_ok.1 hm
      obtain ⟨rfl, rfl⟩ := Tx.pure_eq_ok.1 hm
      obtain ⟨_, _, -, -, -, rfl⟩ := fetchOperationTx_eq_ok.1 hfetch
      refine .inr ⟨prepared.row createdAt, ⟨⟨r, operation, createdAt, eventId, prepared, rfl, hnew,
        rfl⟩, fun row hrow => ?_⟩, rfl⟩
      simpa using List.find?_eq_none.1 hfind row hrow
  · exact .inl rfl

/-- **No call changes a plan**: it leaves all of them alone, or adds the one it plans. -/
theorem Call.plans_apply (hids : t.UniqueIds) (call : Call) :
    (call.apply x t).plans = t.plans ∨
      ∃ row, Plans x t call row ∧ (call.apply x t).plans = t.plans ++ [row] := by
  cases call with
  | insertPlanned r operation createdAt eventId =>
    rcases insertPlanned_plans (x := x) (t := t) r operation createdAt eventId with
      hsame | ⟨row, hplans, hrows⟩
    · exact .inl (congrArg Tables.plans hsame)
    · refine .inr ⟨row, hplans, ?_⟩
      obtain ⟨_, _, _, _, p, -, -, rfl⟩ := hplans.planned
      unfold Tables.plans
      rw [apply, hrows, List.map_append]
      rfl
  | transition id r target details now eventId =>
    left
    rw [apply]
    rcases transition_cases (x := x) hids id r target details now eventId with
      ⟨e, hout⟩ | ⟨row, -, op, -, -, -, -, -, hout⟩
    · rw [hout]
    · rw [hout]
      exact plans_moveRow ..
  | decideApproval command approvalId eventId =>
    left
    rw [apply]
    rcases decideApproval_cases (x := x) hids command approvalId eventId with
      ⟨e, hout⟩ | ⟨row, -, -, -, -, ⟨e, hout⟩ | ⟨op, a, target, -, -, -, -, -, -, -, hout⟩⟩
    · rw [hout]
    · rw [hout]
      exact plans_moveRow ..
    · rw [hout]
      exact plans_moveRow ..
  | appendProgress id r details now eventId =>
    left
    rw [apply]
    rcases appendProgress_cases (x := x) (t := t) id r details now eventId with
      ⟨e, hout⟩ | ⟨row, -, ev, -, -, -, hout⟩
    · rw [hout]
    · rw [hout]
      rfl
  | claimExecution id r now eventId =>
    left
    rw [apply]
    rcases claimExecution_cases (x := x) hids id r now eventId with
      ⟨e, hout⟩ | ⟨row, -, -, -, -, ⟨e, hout⟩ | ⟨op, -, -, hout⟩⟩
    · rw [hout]
    · rw [hout]
      exact plans_moveRow ..
    · rw [hout]
      exact plans_moveRow ..
  | recoverPreviousRuntimes r ids clock =>
    left
    rw [apply]
    generalize hout : Operations.recoverPreviousRuntimes x r ids clock t = out
    rcases Tx.settle_cases hout with ⟨res, t₁, hm, rfl⟩ | ⟨e, rfl⟩
    · rw [Tx.get_bind_eq_ok] at hm
      obtain ⟨report, _, hrows, hm⟩ := Tx.bind_eq_ok.1 hm
      obtain ⟨rfl, rfl⟩ := Tx.pure_eq_ok.1 hm
      exact plans_recoverRows hids hrows
    · rfl

/-- A call plans an operation whose JSON values are values. -/
def Call.Held : Call → Prop
  | .insertPlanned _ operation _ _ => operation.Held
  | _ => True

theorem plans_run_prefix (x : Crates) (calls more : List Call) :
    (run x calls).plans <+: (run x (calls ++ more)).plans := by
  induction more using List.reverseRecOn with
  | nil => rw [List.append_nil]
  | append_singleton more call ih =>
    rw [← List.append_assoc, run_concat]
    rcases Call.plans_apply (sound_run (x := x) (calls ++ more)).ids call with
      hsame | ⟨row, -, hnew⟩
    · rw [hsame]
      exact ih
    · rw [hnew]
      exact ih.trans (List.prefix_append _ _)

/-- What the plans of a run are: one for each call that planned, no two with one key. -/
structure PlansOf (x : Crates) (calls : List Call) (plans : List OperationRow) : Prop where
  origin : ∀ row ∈ plans, ∃ runtimeId operation createdAt eventId p,
    Call.insertPlanned runtimeId operation createdAt eventId ∈ calls ∧
      PreparedOperation.new x runtimeId operation = .ok p ∧ row = p.row createdAt
  distinct : plans.Pairwise fun a b => sameIdempotencyKey a b = false

theorem sameIdempotencyKey_comm (a b : OperationRow) :
    sameIdempotencyKey a b = sameIdempotencyKey b a := by
  simp only [sameIdempotencyKey, eq_comm]

theorem plansOf_run (x : Crates) (calls : List Call) : PlansOf x calls (run x calls).plans := by
  induction calls using List.reverseRecOn with
  | nil =>
    refine ⟨fun _ h => ?_, List.Pairwise.nil⟩
    cases h
  | append_singleton calls call ih =>
    have hmore : ∀ {row : OperationRow}, (∃ runtimeId operation createdAt eventId p,
        Call.insertPlanned runtimeId operation createdAt eventId ∈ calls ∧
          PreparedOperation.new x runtimeId operation = .ok p ∧ row = p.row createdAt) →
        ∃ runtimeId operation createdAt eventId p,
          Call.insertPlanned runtimeId operation createdAt eventId ∈ calls ++ [call] ∧
            PreparedOperation.new x runtimeId operation = .ok p ∧ row = p.row createdAt := by
      rintro row ⟨r, operation, createdAt, eventId, p, hmem, h⟩
      exact ⟨r, operation, createdAt, eventId, p, List.mem_append_left _ hmem, h⟩
    rw [run_concat]
    rcases Call.plans_apply (sound_run (x := x) calls).ids call with hsame | ⟨row, hplans, hnew⟩
    · rw [hsame]
      exact ⟨fun row hrow => hmore (ih.origin row hrow), ih.distinct⟩
    · rw [hnew]
      refine ⟨fun row' hrow' => ?_, List.pairwise_append.2 ⟨ih.distinct, List.pairwise_singleton _ _,
        fun a ha b hb => ?_⟩⟩
      · rcases List.mem_append.1 hrow' with hold | hlast
        · exact hmore (ih.origin row' hold)
        · obtain rfl := List.mem_singleton.1 hlast
          obtain ⟨r, operation, createdAt, eventId, p, rfl, hp⟩ := hplans.planned
          exact ⟨r, operation, createdAt, eventId, p, List.mem_append_right _ (by simp), hp⟩
      · obtain rfl := List.mem_singleton.1 hb
        obtain ⟨a', ha', rfl⟩ := List.mem_map.1 ha
        rw [sameIdempotencyKey_comm]
        exact hplans.new_key a' ha'

/-! ### A call whose key is taken -/

theorem sameIdempotencyKey_trans {a b c : OperationRow} (hab : sameIdempotencyKey a b = true)
    (hac : sameIdempotencyKey a c = true) : sameIdempotencyKey b c = true := by
  simp only [sameIdempotencyKey, Bool.and_eq_true, decide_eq_true_eq] at *
  obtain ⟨⟨⟨h1, h2⟩, h3⟩, h4⟩ := hab
  rw [← h1, ← h2, ← h3, ← h4]
  exact hac

theorem eq_of_pairwise_not {α : Type} {R : α → α → Bool} (hcomm : ∀ a b, R a b = R b a)
    {l : List α} (h : l.Pairwise fun a b => R a b = false) {a b : α} (ha : a ∈ l) (hb : b ∈ l)
    (hab : R a b = true) : a = b := by
  by_contra hne
  have hsymm : Std.Symm fun a b => R a b = false := ⟨fun a b hab => (hcomm b a).trans hab⟩
  have hfalse := h.forall ha hb hne
  rw [hab] at hfalse
  cases hfalse

section Taken

variable {r : Uuid} {operation : NewOperation} {p : PreparedOperation} {createdAt : DateTime}
  {row : OperationRow} {existing : OperationRecord}

/-- The row with the key of a call is the one the call is compared with. -/
theorem find?_of_key (hdistinct : t.operations.Pairwise fun a b => sameIdempotencyKey a b = false)
    (hrow : row ∈ t.operations) (hkey : sameIdempotencyKey (p.row createdAt) row = true) :
    t.operations.find? (sameIdempotencyKey (p.row createdAt)) = some row := by
  obtain ⟨found, hfound⟩ := Option.isSome_iff_exists.1 (List.find?_isSome.2 ⟨row, hrow, hkey⟩)
  have hboth := sameIdempotencyKey_trans (List.find?_some hfound) hkey
  rw [hfound, eq_of_pairwise_not sameIdempotencyKey_comm hdistinct
    (List.mem_of_find?_eq_some hfound) hrow hboth]

/-- A replay returns the row as it is now. -/
theorem insertPlanned_replay (eventId : Uuid)
    (hnew : PreparedOperation.new x r operation = .ok p)
    (hfind : t.operations.find? (sameIdempotencyKey (p.row createdAt)) = some row)
    (hread : rowToOperation x row = .ok existing) (hmatches : p.matches existing = true) :
    insertPlanned x r operation createdAt eventId t = (.ok existing, t) := by
  refine Tx.settle_of_eq_ok (Tx.lift_bind_eq_ok.2 ⟨p, hnew, Tx.get_bind_eq_ok.2 ?_⟩)
  simp only [hfind]
  refine Tx.lift_bind_eq_ok.2 ⟨existing, hread, ?_⟩
  rw [if_pos hmatches]
  exact Tx.pure_eq_ok.2 ⟨rfl, rfl⟩

/-- A call that differs is rejected, and nothing happens. -/
theorem insertPlanned_rebind (row : OperationRow) (eventId : Uuid)
    (hnew : ∀ p, PreparedOperation.new x r operation = .ok p →
      t.operations.find? (sameIdempotencyKey (p.row createdAt)) = some row ∧
        ∀ existing, rowToOperation x row = .ok existing → p.matches existing = false) :
    ∃ e, insertPlanned x r operation createdAt eventId t = (.error e, t) := by
  generalize hout : insertPlanned x r operation createdAt eventId t = out
  rcases Tx.settle_cases hout with ⟨res, t₁, hm, rfl⟩ | ⟨e, rfl⟩
  · obtain ⟨p, hp, hm⟩ := Tx.lift_bind_eq_ok.1 hm
    obtain ⟨hfind, hdiffers⟩ := hnew p hp
    rw [Tx.get_bind_eq_ok] at hm
    simp only [hfind] at hm
    obtain ⟨existing, hread, hm⟩ := Tx.lift_bind_eq_ok.1 hm
    rw [if_neg (Bool.eq_false_iff.1 (hdiffers existing hread))] at hm
    exact (Tx.throw_eq_ok.1 hm).elim
  · exact ⟨e, rfl⟩

end Taken

/-- The call is within the limits of a control message. -/
def NewOperation.Fits (x : Crates) (operation : NewOperation) : Prop :=
  (canonicalJson x operation.payload).utf8ByteSize ≤ maxRequestBytes ∧
    (canonicalJson x operation.actor.provenance.toValue).utf8ByteSize +
      (canonicalJson x operation.preview).utf8ByteSize +
      (canonicalJson x operation.policySnapshot).utf8ByteSize ≤ maxResponseBytes

/-- What was planned once passes the checks again. -/
theorem new_of_sameContent {r r' : Uuid} {operation operation' : NewOperation}
    {p' : PreparedOperation} (hsame : SameContent x r operation r' operation')
    (hfits : operation.Fits x) (hnew' : PreparedOperation.new x r' operation' = .ok p') :
    ∃ p, PreparedOperation.new x r operation = .ok p := by
  have hvalid : validateNewOperation operation = validateNewOperation operation' := by
    rw [← hsame.fields]
    rfl
  simp only [PreparedOperation.new, Except.bind_eq_ok, Except.pure_eq_ok, refuseIf_eq_ok] at hnew' ⊢
  obtain ⟨_, hok, -⟩ := hnew'
  exact ⟨_, ⟨⟩, hvalid.trans hok, ⟨⟩, not_lt.2 hfits.1, ⟨⟩, not_lt.2 hfits.2, rfl⟩

/-- **An idempotency key stands for one operation.** In every run no two operations have one key.
A row stands for the call that planned it: a later call with its key that plans the same operation
returns the row as it is by then and appends nothing, and one that plans anything else is rejected
and changes nothing. And no call changes a stored operation but in the four columns of its
lifecycle. -/
theorem one_operation_for_each_key (hx : x.TellsApart) (calls : List Call)
    (hcalls : ∀ call ∈ calls, call.Held) :
    let t := run x calls
    (t.operations.Pairwise fun a b => ¬ (a.workspaceId = b.workspaceId ∧
      a.actorKind = b.actorKind ∧ a.actorId = b.actorId ∧ a.idempotencyKey = b.idempotencyKey)) ∧
    (∀ row ∈ t.operations, ∃ r₀ operation₀ createdAt₀ eventId₀,
      Call.insertPlanned r₀ operation₀ createdAt₀ eventId₀ ∈ calls ∧ row.id = operation₀.id ∧
      ∀ r operation createdAt eventId, operation.Held →
        row.workspaceId = operation.workspaceId → row.actorKind = operation.actor.kind →
        row.actorId = operation.actor.id → row.idempotencyKey = operation.idempotencyKey →
        (SameContent x r operation r₀ operation₀ → operation.Fits x →
          ∃ existing, rowToOperation x row = .ok existing ∧ existing.id = row.id ∧
            existing.state = row.state ∧
            insertPlanned x r operation createdAt eventId t = (.ok existing, t)) ∧
        (¬ SameContent x r operation r₀ operation₀ →
          ∃ e, insertPlanned x r operation createdAt eventId t = (.error e, t))) ∧
    ∀ (more : List Call) (i : ℕ) (row : OperationRow), t.operations[i]? = some row →
      ∃ state startedAt finishedAt updatedAt, (run x (calls ++ more)).operations[i]? =
        some { row with state, startedAt, finishedAt, updatedAt } := by
  have hplans := plansOf_run x calls
  have hdistinct := List.pairwise_map.1 hplans.distinct
  refine ⟨?_, fun row hrow => ?_, fun more i row hrow => ?_⟩
  · refine hdistinct.imp fun {a b} hab hsame => ?_
    simp [sameIdempotencyKey, OperationRow.plan, hsame] at hab
  · obtain ⟨r₀, operation₀, createdAt₀, eventId₀, p₀, hcall, hnew₀, hplan⟩ :=
      hplans.origin row.plan (List.mem_map_of_mem hrow)
    have hheld₀ : operation₀.Held := hcalls _ hcall
    obtain ⟨stored, hstored⟩ := (sound_run (x := x) calls).readable row hrow
    have hread : rowToOperation x row = .ok (row.toRecord stored) :=
      rowToOperation_eq_ok.2 ⟨stored, hstored, rfl⟩
    refine ⟨r₀, operation₀, createdAt₀, eventId₀, hcall, ?_, ?_⟩
    · have hid := congrArg OperationRow.id hplan
      rw [PreparedOperation.new_eq hnew₀] at hid
      exact hid
    · intro r operation createdAt eventId hheld hworkspace hkind hactor hkey
      -- the call is compared with this row, and with the call that planned it
      have hcompare : ∀ p, PreparedOperation.new x r operation = .ok p →
          (run x calls).operations.find? (sameIdempotencyKey (p.row createdAt)) = some row ∧
            (p.matches (row.toRecord stored) = true ↔
              SameContent x r operation r₀ operation₀) := by
        intro p hnew
        refine ⟨find?_of_key hdistinct hrow ?_,
          matches_iff hx hnew hnew₀ hheld hheld₀ hplan hread⟩
        rw [PreparedOperation.new_eq hnew]
        simp [sameIdempotencyKey, PreparedOperation.row, hworkspace, hkind, hactor, hkey]
      refine ⟨fun hsame hfits => ?_, fun hdiffers => ?_⟩
      · obtain ⟨p, hnew⟩ := new_of_sameContent hsame hfits hnew₀
        obtain ⟨hfind, hmatches⟩ := hcompare p hnew
        exact ⟨_, hread, rfl, rfl,
          insertPlanned_replay eventId hnew hfind hread (hmatches.2 hsame)⟩
      · refine insertPlanned_rebind row eventId fun p hnew => ?_
        obtain ⟨hfind, hmatches⟩ := hcompare p hnew
        refine ⟨hfind, fun existing hexisting => ?_⟩
        obtain rfl := Except.ok.inj (hread.symm.trans hexisting)
        rw [Bool.eq_false_iff]
        exact fun hm => hdiffers (hmatches.1 hm)
  · obtain ⟨rest, hrest⟩ := plans_run_prefix x calls more
    have hplan : (run x (calls ++ more)).plans[i]? = some row.plan := by
      rw [← hrest, List.getElem?_append_left, Tables.plans, List.getElem?_map, hrow]
      · rfl
      · rw [Tables.plans, List.length_map]
        exact (List.getElem?_eq_some_iff.1 hrow).1
    rw [Tables.plans, List.getElem?_map, Option.map_eq_some_iff] at hplan
    obtain ⟨row', hrow', hsame⟩ := hplan
    obtain ⟨state, startedAt, finishedAt, updatedAt, rfl⟩ := exists_of_plan hsame
    exact ⟨state, startedAt, finishedAt, updatedAt, hrow'⟩

theorem legible_of_held {v : Value} (h : v.Held) : Legible v := by
  induction v using Value.ind with
  | null => exact .null
  | bool b => exact .bool b
  | number n =>
    cases h with
    | int => exact .int _
    | float htext => exact .float htext
  | string s => exact .string s
  | array items ih =>
    rw [Value.held_array] at h
    exact .array fun v hv => ih v hv (h v hv)
  | object entries ih =>
    rw [Value.held_object] at h
    exact .object fun e he => ih e he (h.2 e he)

theorem crates_tellsApart : crates.TellsApart where
  held {a v} ha h := by
    have hread := parse_print_of_legible (legible_of_held (held_canonicalValue ha))
    obtain rfl := Option.some.inj (hread.symm.trans h)
    exact held_canonicalValue ha
  apart ha hb h := print_injective_of_legible (legible_of_held (held_canonicalValue ha))
    (legible_of_held (held_canonicalValue hb)) h

/-- The theorem at the operation of the sample run: planned again under another id, it is returned
as it is being executed. -/
theorem one_operation_for_each_key_sampleRun :
    let t := run crates (sampleRun .writeSql)
    ∃ existing, existing.state = .executing ∧
      insertPlanned crates (.ofByte 5) { sampleOperation .writeSql with id := .ofByte 9 } (.ofDay 5)
        (.ofByte 15) t = (.ok existing, t) := by
  obtain ⟨a, hsnapshot⟩ := snapshot_run .writeSql
  have hheld : (sampleOperation .writeSql).Held := by
    simp [NewOperation.Held, sampleOperation, samplePreview, samplePolicy, Value.Held.bool]
  have hcalls : ∀ call ∈ sampleRun .writeSql, call.Held := by
    intro call hcall
    simp only [sampleRun, sampleApproved, samplePending, List.mem_append,
      List.mem_singleton] at hcall
    rcases hcall with ((rfl | rfl) | rfl) | rfl
    · exact hheld
    all_goals trivial
  obtain ⟨r₀, operation₀, createdAt₀, eventId₀, hcall, -, hreplay⟩ :=
    (one_operation_for_each_key crates_tellsApart _ hcalls).2.1 _ hsnapshot.mem
  obtain ⟨rfl, rfl⟩ : r₀ = .ofByte 5 ∧ operation₀ = sampleOperation .writeSql := by
    simp only [sampleRun, sampleApproved, samplePending, List.mem_append,
      List.mem_singleton] at hcall
    rcases hcall with ((h | h) | h) | h
    · obtain ⟨rfl, rfl, -, -⟩ := Call.insertPlanned.inj h
      exact ⟨rfl, rfl⟩
    all_goals cases h
  have hfits : ({ sampleOperation .writeSql with id := .ofByte 9 } : NewOperation).Fits crates := by
    refine ⟨?_, ?_⟩ <;> decide +kernel
  obtain ⟨existing, -, -, hstate, hout⟩ := (hreplay (.ofByte 5)
    { sampleOperation .writeSql with id := .ofByte 9 } (.ofDay 5) (.ofByte 15) hheld rfl rfl rfl
    rfl).1 ⟨rfl, rfl, rfl, rfl, rfl⟩ hfits
  exact ⟨existing, hstate, hout⟩

end Operations
end AgentDb
