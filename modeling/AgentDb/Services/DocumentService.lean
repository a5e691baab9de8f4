import AgentDb.Mongo.Query
import AgentDb.Operations.Payload
import AgentDb.Safety.Gate
import AgentDb.Services.OperationService

/-!
# Typed document reads: `services/document_service.rs`

A document query is planned as an operation, stored as canonical JSON and read back before it is
handed to `mongo::query::run`. `DocumentQuery.canonical` is what comes back; the model follows both
services up to the hand-off, with the answers of the store and the target as arguments.
-/

namespace AgentDb
namespace Services
namespace Document

open Json Mongo Operations Safety Store

/-! ### The stored forms -/

/-- An optional field that is written as `null` when it is absent. -/
def nullable : Option Value → Value
  | some v => v
  | none => .null

/-- The fields of a document query as its serializer writes them, its tag first. -/
def queryEntries : DocumentQuery → List (String × Value)
  | .find collection filter projection sort skip limit =>
      [("op", .string "find"), ("collection", .string collection), ("filter", nullable filter),
        ("projection", nullable projection), ("sort", nullable sort),
        ("skip", nullable (skip.map fun n => .number (.int n))),
        ("limit", nullable (limit.map fun n => .number (.int n)))]
  | .aggregate collection pipeline =>
      [("op", .string "aggregate"), ("collection", .string collection),
        ("pipeline", .array pipeline)]
  | .count collection filter =>
      [("op", .string "count"), ("collection", .string collection), ("filter", nullable filter)]

/-- `serde_json::to_value` of a document query. -/
def queryValue (q : DocumentQuery) : Value := .object (queryEntries q)

def readString (entries : List (String × Value)) (key : String) : AppResult String :=
  match entries.lookup key with
  | some (.string s) => .ok s
  | _ => .error (.serialization ("missing or invalid field " ++ key))

/-- An optional field of any shape: absent and `null` are both `None`. -/
def readOptional (entries : List (String × Value)) (key : String) : Option Value :=
  match entries.lookup key with
  | none | some .null => none
  | some v => some v

/-- An optional `u64`. -/
def readOptionalU64 (entries : List (String × Value)) (key : String) : AppResult (Option ℕ) :=
  match entries.lookup key with
  | none | some .null => .ok none
  | some (.number (.int n)) =>
      if 0 ≤ n ∧ n < 2 ^ 64 then .ok (some n.toNat)
      else .error (.serialization ("invalid value for " ++ key))
  | some _ => .error (.serialization ("invalid type for " ++ key))

/-- `serde_json::from_value` of a document query. -/
def readQuery : Value → AppResult DocumentQuery
  | .object entries => do
      let op ← readString entries "op"
      let collection ← readString entries "collection"
      if op = "find" then do
        let skip ← readOptionalU64 entries "skip"
        let limit ← readOptionalU64 entries "limit"
        pure (.find collection (readOptional entries "filter") (readOptional entries "projection")
          (readOptional entries "sort") skip limit)
      else if op = "aggregate" then
        match entries.lookup "pipeline" with
        | some (.array pipeline) => pure (.aggregate collection pipeline)
        | _ => throw (.serialization "missing or invalid field pipeline")
      else if op = "count" then pure (.count collection (readOptional entries "filter"))
      else throw (.serialization "unknown variant of the document query")
  | _ => .error (.serialization "invalid type for the document query")

/-- `AgentQueryInvocationOrigin`. -/
inductive AgentQueryInvocationOrigin
  | mcp
  | cli
  deriving DecidableEq

/-- `as_str`, also what its serializer writes. -/
def AgentQueryInvocationOrigin.asStr : AgentQueryInvocationOrigin → String
  | .mcp => "mcp"
  | .cli => "cli"

/-- `StoredAgentDocumentPayload`. -/
structure StoredAgentDocumentPayload where
  query : DocumentQuery
  queryText : String
  maxRows : ℕ
  origin : AgentQueryInvocationOrigin

def StoredAgentDocumentPayload.toValue (p : StoredAgentDocumentPayload) : Value :=
  .object [("query", queryValue p.query), ("queryText", .string p.queryText),
    ("maxRows", .number (.int p.maxRows)), ("origin", .string p.origin.asStr)]

/-- `serde_json::from_value` of the payload, which denies unknown fields. -/
def StoredAgentDocumentPayload.fromValue : Value → AppResult StoredAgentDocumentPayload
  | .object entries => do
      refuseIf (entries.any fun e => e.1 ∉ ["query", "queryText", "maxRows", "origin"])
        (.serialization "unknown field")
      let query ← readQuery ((entries.lookup "query").getD .null)
      let queryText ← readString entries "queryText"
      let maxRows ← readOptionalU64 entries "maxRows"
      let origin ← readString entries "origin"
      match maxRows, origin with
      | some maxRows, "mcp" => pure ⟨query, queryText, maxRows, .mcp⟩
      | some maxRows, "cli" => pure ⟨query, queryText, maxRows, .cli⟩
      | _, _ => throw (.serialization "missing or invalid field")
  | _ => .error (.serialization "invalid type for the payload")

/-- `StoredDesktopDocumentPayload`. -/
structure StoredDesktopDocumentPayload where
  query : DocumentQuery
  historyOrigin : String

def StoredDesktopDocumentPayload.toValue (p : StoredDesktopDocumentPayload) : Value :=
  .object [("query", queryValue p.query), ("historyOrigin", .string p.historyOrigin)]

/-- `serde_json::from_value` of the payload, which denies unknown fields. -/
def StoredDesktopDocumentPayload.fromValue : Value → AppResult StoredDesktopDocumentPayload
  | .object entries => do
      refuseIf (entries.any fun e => e.1 ∉ ["query", "historyOrigin"])
        (.serialization "unknown field")
      let query ← readQuery ((entries.lookup "query").getD .null)
      let historyOrigin ← readString entries "historyOrigin"
      pure ⟨query, historyOrigin⟩
  | _ => .error (.serialization "invalid type for the payload")

/-! ### The services -/

def maxAgentRows : ℕ := 1000
def maxDesktopRows : ℕ := 100000

/-- `bounded_agent_rows`. -/
def boundedAgentRows (requested : Option ℕ) (configured : ℕ) : ℕ :=
  min (requested.getD configured) maxAgentRows

/-- `bounded_desktop_rows`. -/
def boundedDesktopRows (configured : ℕ) : ℕ := min (max configured 1) maxDesktopRows

/-- `document_operation_risk`. -/
def documentOperationRisk : RiskLevel → OperationRiskLevel
  | .low => .low
  | .medium => .medium
  | .high => .high

def riskText : RiskLevel → String
  | .low => "low"
  | .medium => "medium"
  | .high => "high"

/-- `serde_json::to_value` of a classification. -/
def classificationValue (c : Classification) : Value :=
  .object [("kind", .string (kindStr c.kind)), ("risk", .string (riskText c.risk)),
    ("statementCount", .number (.int c.statementCount)), ("noWhere", .bool c.noWhere),
    ("tables", .array (c.tables.map .string)), ("notes", .array (c.notes.map .string)),
    ("rollbackSafe", .bool c.rollbackSafe)]

/-- `desktop_blocked_reason`. -/
def desktopBlockedReason (settings : SafetySettings) (c : Classification) : Option String :=
  if c.kind ≠ .read then some (c.notes.head?.getD "document writes are not supported")
  else match decide settings c with
    | .block reason => some reason
    | .autoRun | .requireApproval => none

/-- `actor_for_pin`. -/
def actorForPin (pin : PinnedConnection) (originSurface : String) : OperationActor :=
  match pin.scope.accountScope with
  | .personal =>
      ⟨.localUser, "local-user", { localAccountId := some "local-user", originSurface }⟩
  | .workspaceUser id =>
      ⟨.workspaceUser, id.text, { workspaceAccountId := some id.text, originSurface }⟩

/-- `agent_actor_for_pin`. -/
def agentActorForPin (pin : PinnedConnection) (actorId originSurface : String) : OperationActor :=
  match pin.scope.accountScope with
  | .personal => ⟨.agent, actorId, { localAccountId := some "local-user", originSurface }⟩
  | .workspaceUser id => ⟨.agent, actorId, { workspaceAccountId := some id.text, originSurface }⟩

/-- The `NewOperation` that both services plan. -/
def newDocumentRead (x : Crates) (pin : PinnedConnection) (settings : SafetySettings)
    (actor : OperationActor) (payload : Value) (c : Classification) (id : Uuid)
    (expiresAt : DateTime) : NewOperation :=
  let policy := capturePolicy x pin settings
  { id
    workspaceId := pin.scope.workspaceId
    accountScope := pin.scope.accountScope.storageKey
    connectionId := pin.connectionId
    connectionRevision := pin.connectionRevision
    terminalSessionId := none
    actor
    kind := .documentRead
    payloadSchemaVersion := 1
    payload
    schemaFingerprint := none
    riskLevel := documentOperationRisk c.risk
    preview := classificationValue c
    policySnapshot := policy.snapshot
    policyRevision := policy.revision
    singleUse := true
    idempotencyKey := id.toText
    expiresAt := some expiresAt }

section

variable (x : Crates) (debug : String → String)

/-- `propose_desktop_read`, up to the plan. -/
def proposeDesktopRead (pin : PinnedConnection) (settings : SafetySettings) (query : DocumentQuery)
    (origin : Option String) (id : Uuid) (expiresAt : DateTime) : AppResult NewOperation := do
  refuseIf (¬ pin.profile.engine.isDocument) (.config "connection is not a document connection")
  refuseIf (¬ pin.profile.workspaceAccess.canRead)
    (.blocked "your workspace role cannot read this document connection")
  let c := classify debug query
  match desktopBlockedReason settings c with
  | some reason => throw (.blocked reason)
  | none =>
      let historyOrigin := origin.getD "manual"
      let payload := StoredDesktopDocumentPayload.toValue ⟨query, historyOrigin⟩
      pure (newDocumentRead x pin settings (actorForPin pin historyOrigin) payload c id expiresAt)

/-- `run_desktop_read` up to `mongo::query::run`: the query that is handed to it, with the row
limit. The claim, the connection and the backend answer in this order. -/
def runDesktopRead (planned : OperationRecord) (pin : PinnedConnection) (settings : SafetySettings)
    (claimed connected backend : AppResult Unit) : AppResult (DocumentQuery × ℕ) := do
  refuseIf (planned.kind ≠ .documentRead ∨ planned.payloadSchemaVersion ≠ 1)
    (.blocked "operation is not a supported document-read plan")
  let payload ← StoredDesktopDocumentPayload.fromValue planned.payload
  ensureOperationScope planned pin
  refuseIf (¬ pin.profile.engine.isDocument) (.config "connection is not a document connection")
  refuseIf ((capturePolicy x pin settings).revision ≠ planned.policyRevision)
    (.blocked "the connection or safety policy changed; create a new plan")
  match desktopBlockedReason settings (classify debug payload.query) with
  | some reason => throw (.blocked reason)
  | none =>
      claimed
      connected
      backend
      pure (payload.query, boundedDesktopRows settings.maxRows)

/-- `AgentDocumentReadRequest`, as `try_new` makes it. -/
structure AgentDocumentReadRequest where
  query : DocumentQuery
  queryText : String
  maxRows : Option ℕ
  origin : AgentQueryInvocationOrigin

/-- `AgentDocumentReadRequest::try_new`. -/
def AgentDocumentReadRequest.tryNew (query : DocumentQuery) (maxRows : Option ℕ)
    (origin : AgentQueryInvocationOrigin) : AgentDocumentReadRequest :=
  ⟨query, x.toString (queryValue query), maxRows, origin⟩

/-- `run_agent_read`, up to the plan. -/
def planAgentRead (pin : PinnedConnection) (settings : SafetySettings)
    (request : AgentDocumentReadRequest) (id : Uuid) (expiresAt : DateTime) :
    AppResult NewOperation := do
  refuseIf (¬ pin.profile.engine.isDocument) (.config "connection is not a document connection")
  let c := classify debug request.query
  refuseIf (c.kind ≠ .read)
    (.blocked (c.notes.head?.getD ("document writes are not supported over " ++
      (match request.origin with | .mcp => "MCP" | .cli => "CLI"))))
  let maxRows := boundedAgentRows request.maxRows settings.maxRows
  let payload := StoredAgentDocumentPayload.toValue
    ⟨request.query, request.queryText, maxRows, request.origin⟩
  let actor := agentActorForPin pin request.origin.asStr request.origin.asStr
  pure (newDocumentRead x pin settings actor payload c id expiresAt)

/-- How `run_agent_read` ends, as far as the hand-off. -/
inductive AgentRead
  | failed (error : AppError)
  | mismatch
  | handed (query : DocumentQuery) (maxRows : ℕ)

/-- `run_agent_read` from the plan to `mongo::query::run`. -/
def runAgentRead (operation : OperationRecord) (claimed connected backend : AppResult Unit) :
    AgentRead :=
  match claimed, StoredAgentDocumentPayload.fromValue operation.payload with
  | .error e, _ | .ok (), .error e => .failed e
  | .ok (), .ok payload =>
      if x.toString (queryValue payload.query) ≠ payload.queryText then .mismatch
      else match connected, backend with
        | .error e, _ | .ok (), .error e => .failed e
        | .ok (), .ok () => .handed payload.query (min payload.maxRows maxAgentRows)

end

/-! ### What comes back -/

/-- An optional field as it is read back from its canonical form. -/
def readBack : Option Value → Option Value
  | none | some .null => none
  | some v => some (canonicalValue v)

/-- A query as it is read back from its canonical form. -/
def canonicalQuery : DocumentQuery → DocumentQuery
  | .find collection filter projection sort skip limit =>
      .find collection (readBack filter) (readBack projection) (readBack sort) skip limit
  | .aggregate collection pipeline => .aggregate collection (pipeline.map canonicalValue)
  | .count collection filter => .count collection (readBack filter)

/-- The optional fields and stages of a query. -/
def parts : DocumentQuery → List Value
  | .find _ filter projection sort _ _ => filter.toList ++ projection.toList ++ sort.toList
  | .aggregate _ pipeline => pipeline
  | .count _ filter => filter.toList

/-- The numbers of a query are those of its type. -/
def InRange : DocumentQuery → Prop
  | .find _ _ _ _ skip limit => (∀ n ∈ skip, n < 2 ^ 64) ∧ ∀ n ∈ limit, n < 2 ^ 64
  | .aggregate _ _ | .count _ _ => True

/-- The optional fields of a query that are there are not `null`. -/
def NoNull : DocumentQuery → Prop
  | .find _ filter projection sort _ _ =>
      filter ≠ some .null ∧ projection ≠ some .null ∧ sort ≠ some .null
  | .aggregate _ _ => True
  | .count _ filter => filter ≠ some .null

/-- The keys of every object of the query, at every depth, are in ascending order. -/
def KeysSorted (q : DocumentQuery) : Prop := ∀ v ∈ parts q, KeySorted v

theorem readOptional_canonical {entries : List (String × Value)} {k : String}
    {v : Option Value} (hkeys : (entries.map Prod.fst).Nodup)
    (h : entries.lookup k = some (nullable v)) :
    readOptional ((canonicalEntries entries).insertionSort fun a b => a.1 ≤ b.1) k =
      readBack v := by
  unfold readOptional
  rw [lookup_canonical hkeys, h]
  cases v with
  | none => rfl
  | some v => cases v <;> rfl

theorem readOptionalU64_canonical {entries : List (String × Value)} {k : String}
    {n : Option ℕ} (hkeys : (entries.map Prod.fst).Nodup)
    (h : entries.lookup k = some (nullable (n.map fun n => .number (.int n))))
    (hn : ∀ m ∈ n, m < 2 ^ 64) :
    readOptionalU64 ((canonicalEntries entries).insertionSort fun a b => a.1 ≤ b.1) k =
      .ok n := by
  unfold readOptionalU64
  rw [lookup_canonical hkeys, h]
  cases n with
  | none => rfl
  | some n =>
    have hlt : (n : ℤ) < 2 ^ 64 := by exact_mod_cast hn n rfl
    show (if 0 ≤ (n : ℤ) ∧ (n : ℤ) < 2 ^ 64 then _ else _) = _
    rw [if_pos ⟨Int.natCast_nonneg n, hlt⟩]
    rfl

theorem readString_canonical {entries : List (String × Value)} {k t : String}
    (hkeys : (entries.map Prod.fst).Nodup) (h : entries.lookup k = some (.string t)) :
    readString ((canonicalEntries entries).insertionSort fun a b => a.1 ≤ b.1) k = .ok t := by
  unfold readString
  rw [lookup_canonical hkeys, h]
  rfl

theorem nodup_queryEntries (q : DocumentQuery) : ((queryEntries q).map Prod.fst).Nodup := by
  cases q with
  | find => exact (by decide :
      ["op", "collection", "filter", "projection", "sort", "skip", "limit"].Nodup)
  | aggregate => exact (by decide : ["op", "collection", "pipeline"].Nodup)
  | count => exact (by decide : ["op", "collection", "filter"].Nodup)

/-- **What comes back of a query** is the query with its keys sorted. -/
theorem readQuery_canonicalValue {q : DocumentQuery} (hq : InRange q) :
    readQuery (canonicalValue (queryValue q)) = .ok (canonicalQuery q) := by
  have hkeys := nodup_queryEntries q
  unfold queryValue canonicalValue readQuery
  cases q with
  | find collection filter projection sort skip limit =>
    dsimp only
    rw [readString_canonical (k := "op") (t := "find") hkeys rfl,
      readString_canonical (k := "collection") (t := collection) hkeys rfl,
      readOptional_canonical (k := "filter") (v := filter) hkeys rfl,
      readOptional_canonical (k := "projection") (v := projection) hkeys rfl,
      readOptional_canonical (k := "sort") (v := sort) hkeys rfl,
      readOptionalU64_canonical (k := "skip") (n := skip) hkeys rfl hq.1,
      readOptionalU64_canonical (k := "limit") (n := limit) hkeys rfl hq.2]
    rfl
  | aggregate collection pipeline =>
    dsimp only
    rw [readString_canonical (k := "op") (t := "aggregate") hkeys rfl,
      readString_canonical (k := "collection") (t := collection) hkeys rfl, lookup_canonical hkeys]
    show Except.ok _ = Except.ok _
    rw [canonicalItems_eq_map]
    rfl
  | count collection filter =>
    dsimp only
    rw [readString_canonical (k := "op") (t := "count") hkeys rfl,
      readString_canonical (k := "collection") (t := collection) hkeys rfl,
      readOptional_canonical (k := "filter") (v := filter) hkeys rfl]
    rfl

/-- Nothing but the order of keys can change in an optional field that is not `null`. -/
theorem readBack_eq_self_iff (v : Option Value) :
    readBack v = v ↔ v ≠ some .null ∧ ∀ w ∈ v.toList, KeySorted w := by
  cases v with
  | none => simp [readBack]
  | some v =>
    cases v with
    | null => simp [readBack]
    | _ => simp [readBack, canonicalValue_eq_self_iff]

theorem nullable_readBack_iff (v : Option Value) :
    nullable (readBack v) = nullable v ↔ ∀ w ∈ v.toList, KeySorted w := by
  cases v with
  | none => simp [readBack]
  | some v =>
    cases v with
    | null => simpa [readBack, nullable] using KeySorted.null
    | _ => simp [readBack, nullable, canonicalValue_eq_self_iff]

theorem parts_find {collection : String} {filter projection sort : Option Value}
    {skip limit : Option ℕ} : KeysSorted (.find collection filter projection sort skip limit) ↔
      (∀ w ∈ filter.toList, KeySorted w) ∧ (∀ w ∈ projection.toList, KeySorted w) ∧
        ∀ w ∈ sort.toList, KeySorted w := by
  unfold KeysSorted parts
  simp only [List.mem_append, or_imp, forall_and, and_assoc]

/-- **A query comes back as it was submitted** exactly when its keys are sorted and no optional
field is `null`. -/
theorem canonicalQuery_eq_self_iff (q : DocumentQuery) :
    canonicalQuery q = q ↔ KeysSorted q ∧ NoNull q := by
  cases q with
  | find collection filter projection sort skip limit =>
    rw [parts_find]
    simp only [canonicalQuery, DocumentQuery.find.injEq, readBack_eq_self_iff, NoNull, true_and,
      and_true]
    tauto
  | aggregate collection pipeline =>
    simp only [canonicalQuery, DocumentQuery.aggregate.injEq, true_and, NoNull, and_true,
      KeysSorted, parts, map_eq_self_iff, canonicalValue_eq_self_iff]
  | count collection filter =>
    simp only [canonicalQuery, DocumentQuery.count.injEq, readBack_eq_self_iff, NoNull, true_and,
      KeysSorted, parts]
    tauto

/-- The text of a query does not tell `null` from an absent field. -/
theorem queryValue_canonicalQuery_iff (q : DocumentQuery) :
    queryValue (canonicalQuery q) = queryValue q ↔ KeysSorted q := by
  cases q with
  | find collection filter projection sort skip limit =>
    rw [parts_find]
    simp [queryValue, queryEntries, canonicalQuery, nullable_readBack_iff]
  | aggregate collection pipeline =>
    simp [queryValue, queryEntries, canonicalQuery, KeysSorted, parts, map_eq_self_iff,
      canonicalValue_eq_self_iff]
  | count collection filter =>
    simp [queryValue, queryEntries, canonicalQuery, KeysSorted, parts, nullable_readBack_iff]

/-! ### The stored payloads -/

theorem any_canonical (entries : List (String × Value)) (p : String → Bool) :
    ((canonicalEntries entries).insertionSort fun a b => a.1 ≤ b.1).any (fun e => p e.1) =
      entries.any fun e => p e.1 := by
  rw [(List.perm_insertionSort _ _).any_eq, canonicalEntries_eq_map, List.any_map]
  rfl

theorem fromValue_desktopPayload {p : StoredDesktopDocumentPayload} (hq : InRange p.query) :
    StoredDesktopDocumentPayload.fromValue (canonicalValue p.toValue) =
      .ok ⟨canonicalQuery p.query, p.historyOrigin⟩ := by
  have hkeys : (([("query", queryValue p.query), ("historyOrigin", .string p.historyOrigin)] :
      List (String × Value)).map Prod.fst).Nodup := (by decide : ["query", "historyOrigin"].Nodup)
  unfold StoredDesktopDocumentPayload.toValue canonicalValue StoredDesktopDocumentPayload.fromValue
  dsimp only
  rw [any_canonical _ fun k => k ∉ ["query", "historyOrigin"], lookup_canonical hkeys,
    readString_canonical (k := "historyOrigin") (t := p.historyOrigin) hkeys rfl]
  simp only [Except.bind_eq_ok]
  refine ⟨(), by simp [refuseIf], _, readQuery_canonicalValue hq, _, rfl, rfl⟩

theorem fromValue_agentPayload {p : StoredAgentDocumentPayload} (hq : InRange p.query)
    (hrows : p.maxRows < 2 ^ 64) :
    StoredAgentDocumentPayload.fromValue (canonicalValue p.toValue) =
      .ok ⟨canonicalQuery p.query, p.queryText, p.maxRows, p.origin⟩ := by
  have hkeys : (([("query", queryValue p.query), ("queryText", .string p.queryText),
      ("maxRows", .number (.int p.maxRows)), ("origin", .string p.origin.asStr)] :
        List (String × Value)).map Prod.fst).Nodup :=
    (by decide : ["query", "queryText", "maxRows", "origin"].Nodup)
  have hbound : ∀ m ∈ some p.maxRows, m < 2 ^ 64 := by
    rintro m ⟨⟩
    exact hrows
  unfold StoredAgentDocumentPayload.toValue canonicalValue StoredAgentDocumentPayload.fromValue
  dsimp only
  rw [any_canonical _ fun k => k ∉ ["query", "queryText", "maxRows", "origin"],
    lookup_canonical hkeys,
    readString_canonical (k := "queryText") (t := p.queryText) hkeys rfl,
    readOptionalU64_canonical (k := "maxRows") (n := some p.maxRows) hkeys rfl hbound,
    readString_canonical (k := "origin") (t := p.origin.asStr) hkeys rfl]
  simp only [Except.bind_eq_ok]
  refine ⟨(), by simp [refuseIf], _, readQuery_canonicalValue hq, _, rfl, _, rfl, _, rfl, ?_⟩
  cases p.origin <;> rfl

end Document
end Services
end AgentDb
