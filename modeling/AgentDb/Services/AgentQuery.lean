import AgentDb.Operations.Isolation
import AgentDb.Services.ConnectionService
import AgentDb.Services.DocumentService
import AgentDb.Services.ScopeGate

/-!
# Planning and proposing SQL: `services/query_service.rs`

An agent's read is classified, previewed and planned as one immutable operation; a proposal is
previewed and planned the same way, and waits for an approval unless it is a read. Both start from
one pin of the connection. What the preview and the health probe find on the target is given.
-/

namespace AgentDb
namespace Services

open Connection Json Operations Safety Store

/-! ### What the target is asked -/

/-- `PreviewMode`. -/
inductive PreviewMode
  | explain
  | execRollback
  | skipped
  deriving DecidableEq, Repr

/-- `PreviewMode` as its serializer writes it. -/
def previewModeText : PreviewMode → String
  | .explain => "explain"
  | .execRollback => "execRollback"
  | .skipped => "skipped"

/-- `PreviewReport`. -/
structure PreviewReport where
  mode : PreviewMode
  estimatedRows : Option ℤ
  exactRows : Option ℤ
  plan : Option String
  note : Option String

/-- `skipped_preview_report`. -/
def skippedPreviewReport (note : String) : PreviewReport := ⟨.skipped, none, none, none, some note⟩

/-- An optional integer, `null` when it is absent. -/
def intOrNull (n : Option ℤ) : Value := Document.nullable (n.map fun n => .number (.int n))

/-- An optional text, `null` when it is absent. -/
def textOrNull (s : Option String) : Value := Document.nullable (s.map .string)

/-- `serde_json::to_value` of a preview. -/
def PreviewReport.toValue (r : PreviewReport) : Value :=
  .object [("mode", .string (previewModeText r.mode)),
    ("estimatedRows", intOrNull r.estimatedRows), ("exactRows", intOrNull r.exactRows),
    ("plan", textOrNull r.plan), ("note", textOrNull r.note)]

/-- `HealthSnapshot`; a ratio is kept as the number it prints as. -/
structure HealthSnapshot where
  level : String
  coverage : String
  totalConnections : Option ℤ
  maxConnections : Option ℤ
  connectionUsagePercent : Option Number
  activeQueries : Option ℤ
  longRunningQueries : Option ℤ
  lockWaits : Option ℤ
  replicationLagSeconds : Option Number
  reasons : List String
  capturedAt : DateTime

/-- A UTC instant as `chrono` serializes it. -/
def dateTimeValue (t : DateTime) : Value :=
  .string (String.ofList (t.civil ++ DateTime.fraction t.nano ++ ['Z']))

/-- `serde_json::to_value` of a health snapshot. -/
def HealthSnapshot.toValue (h : HealthSnapshot) : Value :=
  .object [("level", .string h.level), ("coverage", .string h.coverage),
    ("totalConnections", intOrNull h.totalConnections),
    ("maxConnections", intOrNull h.maxConnections),
    ("connectionUsagePercent", Document.nullable (h.connectionUsagePercent.map .number)),
    ("activeQueries", intOrNull h.activeQueries),
    ("longRunningQueries", intOrNull h.longRunningQueries),
    ("lockWaits", intOrNull h.lockWaits),
    ("replicationLagSeconds", Document.nullable (h.replicationLagSeconds.map .number)),
    ("reasons", .array (h.reasons.map .string)), ("capturedAt", dateTimeValue h.capturedAt)]

/-- `planning_guidance`: the decision, the notices and the suggestions. -/
def planningGuidance (profile : ConnectionProfile) (health : HealthSnapshot)
    (estimatedRows : Option ℤ) (estimateLimit : ℤ) : String × List String × List String :=
  let prod : Bool := profile.env = some "prod"
  let above : Bool := estimatedRows.any fun rows => max estimateLimit 0 < rows
  let unknown : Bool := estimatedRows = none ∧ prod
  let caution : Bool :=
    prod ∨ health.level ≠ "normal" ∨ health.coverage = "limited" ∨ above ∨ unknown
  let overNotice := "EXPLAIN estimates " ++ toString (estimatedRows.getD 0) ++
    " result/plan rows, above the configured " ++ toString estimateLimit ++ " review threshold."
  let notices := (if prod then ["This connection is labeled production."] else []) ++
    health.reasons ++ (if above then [overNotice] else []) ++
    (if unknown then
      ["EXPLAIN did not provide a usable row estimate for this production query."] else [])
  let suggestions :=
    (if prod then
      ["Prefer a read replica or a bounded time range for production analysis."] else []) ++
    (if health.coverage = "limited" then
      ["Enable PostgreSQL pg_monitor in DopeDB settings for fuller aggregate load checks."]
      else []) ++
    (if above then
      ["Add a selective time/filter condition or aggregate before joining large log tables."]
      else []) ++
    (if unknown then ["Review the plan and narrow the query before execution."] else []) ++
    (if health.level = "busy" then
      ["Wait for database pressure to fall before running this query."] else [])
  (if caution then "caution" else "ready", notices,
    (suggestions.insertionSort fun a b => a ≤ b).destutter (· ≠ ·))

/-! ### The stored forms -/

/-- `StoredAgentReadPayload`. -/
structure StoredAgentReadPayload where
  sql : String
  maxRows : ℕ
  decision : String
  origin : Document.AgentQueryInvocationOrigin

def StoredAgentReadPayload.toValue (p : StoredAgentReadPayload) : Value :=
  .object [("sql", .string p.sql), ("maxRows", .number (.int p.maxRows)),
    ("decision", .string p.decision), ("origin", .string p.origin.asStr)]

def ScopeGate.StoredDesktopSqlPayload.toValue (p : ScopeGate.StoredDesktopSqlPayload) : Value :=
  .object [("sql", .string p.sql), ("historyOrigin", .string p.historyOrigin)]

/-- `MAX_AGENT_ROWS`. -/
def maxAgentRows : ℕ := 1000

/-- `bounded_max_rows`. -/
def boundedMaxRows (requested : Option ℕ) (configured : ℕ) : ℕ :=
  min (requested.getD configured) maxAgentRows

/-- `capture_agent_read_policy`. -/
def captureAgentReadPolicy (x : Crates) (pin : PinnedConnection) : CapturedOperationPolicy :=
  let snapshot : Value := .object [
    ("accountScope", .string pin.scope.accountScope.storageKey),
    ("bindingRevision", .number (.int pin.bindingRevision)),
    ("bindingUpdatedAt", .string pin.bindingUpdatedAt),
    ("connectionRevision", .number (.int pin.connectionRevision)),
    ("credentialMode", .string (credentialModeText pin.profile.credentialMode)),
    ("environment", textOrNull pin.profile.env),
    ("scopeGeneration", .number (.int pin.scope.generation)),
    ("workspaceAccess", .string (accessText pin.profile.workspaceAccess)),
    ("workspaceId", .string pin.scope.workspaceId.toText)]
  ⟨snapshot, canonicalHash x snapshot⟩

/-- `operation_risk`. -/
def operationRisk (c : Classification) : OperationRiskLevel :=
  if c.noWhere ∧ c.kind ≠ .read then .critical else Document.documentOperationRisk c.risk

/-- The `NewOperation` of a plan or a proposal. -/
def newSqlOperation (pin : PinnedConnection) (terminal : Option TerminalAuthority)
    (actor : OperationActor) (kind : OperationKind) (payload : Value) (c : Classification)
    (preview : Value) (policy : CapturedOperationPolicy) (id : Uuid) (expiresAt : DateTime) :
    NewOperation where
  id
  workspaceId := pin.scope.workspaceId
  accountScope := pin.scope.accountScope.storageKey
  connectionId := pin.connectionId
  connectionRevision := pin.connectionRevision
  terminalSessionId := terminal.map (·.terminalSessionId)
  actor
  kind
  payloadSchemaVersion := 1
  payload
  schemaFingerprint := none
  riskLevel := operationRisk c
  preview
  policySnapshot := policy.snapshot
  policyRevision := policy.revision
  singleUse := true
  idempotencyKey := id.toText
  expiresAt := some expiresAt

/-- The protocol version of a Terminal's client, in its provenance. -/
def withClient (terminal : Option TerminalAuthority) (actor : OperationActor) : OperationActor :=
  match terminal with
  | some authority =>
      { actor with
        provenance := { actor.provenance with
          clientProtocolVersion := some authority.clientProtocolVersion } }
  | none => actor

/-- What is drawn while an operation is planned: its id and its expiry, and the clock readings and
event ids of the two writes. -/
structure Draws where
  id : Uuid
  expiresAt : DateTime
  clock : ℕ → DateTime
  eventIds : ℕ → Uuid

/-! ### Planning a read -/

/-- `AgentQueryPlanRequest`. -/
structure AgentQueryPlanRequest where
  connectionId : Uuid
  sql : String
  maxRows : Option ℕ
  origin : Document.AgentQueryInvocationOrigin

/-- `AgentQueryPlan`. -/
structure AgentQueryPlan where
  connectionId : Uuid
  connectionName : String
  environment : Option String
  sql : String
  planId : Uuid
  decision : String
  notices : List String
  suggestions : List String
  estimatedRows : Option ℤ
  health : HealthSnapshot
  expiresAt : DateTime

/-- `AgentQueryPlanError`. -/
inductive AgentQueryPlanError
  | documentConnection
  | notSingleRead (kind : QueryKind)
  | application (error : AppError)

/-- What planning meets: the control plane, the pool, and the target it previews on. -/
structure PlanAnswers where
  authority : AppResult ℤ
  connect : ConnectAnswers
  backend : AppResult Unit
  preview : Classification → SafetySettings → AppResult PreviewReport
  health : HealthSnapshot

section

variable (x : Crates) (parseSql : Engine → String → Except String (List Statement))
  (runtimeId : Uuid) (db : Database)

/-- A failure of the application, as planning reports it. -/
def application {α : Type} (m : AppResult α) : Except AgentQueryPlanError α :=
  m.mapError .application

/-- `plan_agent_read_scoped` up to the plan. -/
def newAgentRead (request : AgentQueryPlanRequest) (terminal : Option TerminalAuthority)
    (answers : PlanAnswers) (draws : Draws) :
    Except AgentQueryPlanError (NewOperation × AgentQueryPlan) := do
  let pin ← application (pin db request.connectionId .read answers.authority)
  let profile := pin.profile
  refuseIf profile.engine.isDocument .documentConnection
  let c ← application (classify parseSql request.sql profile.engine)
  refuseIf (c.kind ≠ .read ∨ c.statementCount ≠ 1) (.notSingleRead c.kind)
  let settings ← application (db.getSafety profile.id)
  let maxRows := boundedMaxRows request.maxRows settings.maxRows
  application (terminal.elim (pure ()) fun authority => authority.ensurePin pin)
  let policy := captureAgentReadPolicy x pin
  application (connect db pin .read answers.connect)
  application answers.backend
  let preview ← application (answers.preview c settings)
  let health := answers.health
  let (decision, notices, suggestions) :=
    planningGuidance profile health preview.estimatedRows settings.execPreviewRowLimit
  let payload := StoredAgentReadPayload.toValue ⟨request.sql, maxRows, decision, request.origin⟩
  let actor := withClient terminal
    (Document.agentActorForPin pin request.origin.asStr request.origin.asStr)
  let shown : Value := .object [("decision", .string decision),
    ("estimatedRows", intOrNull preview.estimatedRows), ("health", health.toValue),
    ("notices", .array (notices.map .string)), ("suggestions", .array (suggestions.map .string))]
  pure (newSqlOperation pin terminal actor .readQuery payload c shown policy draws.id
      draws.expiresAt,
    ⟨profile.id, profile.name, profile.env, request.sql, draws.id, decision, notices, suggestions,
      preview.estimatedRows, health, draws.expiresAt⟩)

/-- `plan_agent_read_scoped`. -/
def planAgentReadScoped (request : AgentQueryPlanRequest) (terminal : Option TerminalAuthority)
    (answers : PlanAnswers) (draws : Draws) (t : Tables) :
    Except AgentQueryPlanError AgentQueryPlan × Tables :=
  match newAgentRead x parseSql db request terminal answers draws with
  | .error e => (.error e, t)
  | .ok (operation, plan) =>
      let (planned, t) := Operations.plan x runtimeId operation .ready draws.clock draws.eventIds t
      (application (planned.map fun _ => plan), t)

/-- `plan_terminal_read`. -/
def planTerminalRead (connectionId : Uuid) (sql : String) (maxRows : Option ℕ)
    (authority : TerminalAuthority) (answers : PlanAnswers) (draws : Draws) (t : Tables) :
    Except AgentQueryPlanError AgentQueryPlan × Tables :=
  planAgentReadScoped x parseSql runtimeId db ⟨connectionId, sql, maxRows, .cli⟩ (some authority)
    answers draws t

/-! ### Proposing -/

/-- `preview_sql`, with the pin it is made under. -/
def previewSql (connectionId : Uuid) (sql : String) (terminal : Option TerminalAuthority)
    (answers : PlanAnswers) : AppResult (PreviewReport × PinnedConnection) := do
  let pin ← db.pinConnectionWithAccess connectionId false
  terminal.elim (pure ()) fun authority => authority.ensurePin pin
  let settings ← db.getSafety pin.connectionId
  let c ← classify parseSql sql pin.profile.engine
  let isNonRead : Bool := c.kind ≠ .read
  refuseIf (¬ isNonRead ∧ ¬ pin.profile.workspaceAccess.canRead)
    (.blocked "workspace role cannot execute this connection")
  if isNonRead ∧ ¬ pin.profile.workspaceAccess.canWrite then
    pure (skippedPreviewReport "workspace role is read-only — write preview skipped", pin)
  else if isNonRead ∧ ¬ settings.allowWrites then
    pure (skippedPreviewReport ("writes are disabled for this connection — impact preview " ++
      "skipped (no rows locked)"), pin)
  else if c.kind = .ddl ∨ c.kind = .privilege then
    pure (skippedPreviewReport ("DDL / privilege change — no row-count preview; review the " ++
      "statement directly."), pin)
  else do
    connectScope db pin .read answers.authority answers.connect
    answers.backend
    let report ← answers.preview c settings
    pure (report, pin)

/-- `required_confirmation`. -/
def requiredConfirmation (record : OperationRecord) : Option String :=
  if ¬ record.kind.mayMutateTarget then none
  else if record.riskLevel = .critical then some "RUN CRITICAL"
  else match record.policySnapshot with
    | .object entries =>
        match entries.lookup "environment" with
        | some (.string environment) =>
            if environment.toList.map Char.toLower = "prod".toList then some "PROD" else none
        | _ => none
    | _ => none

/-- `DesktopSqlProposalReceipt`. -/
structure DesktopSqlProposalReceipt where
  operationId : Uuid
  payloadHash : String
  state : OperationState
  approvalRequired : Bool
  autoRun : Bool
  confirmationPhrase : Option String
  expiresAt : DateTime
  classification : Classification
  preview : PreviewReport

/-- `propose_sql` up to the plan: the operation and its disposition, and what the receipt will
say of it. `expiresAt` is the expiry of a write or of a read. -/
def newSqlProposal (connectionId : Uuid) (sql : String) (origin : Option String)
    (terminal : Option TerminalAuthority) (answers : PlanAnswers) (id : Uuid)
    (expiresAt : Bool → DateTime) :
    AppResult (NewOperation × OperationPlanDisposition ×
      (OperationRecord → DesktopSqlProposalReceipt)) := do
  let (preview, pin) ← previewSql parseSql db connectionId sql terminal answers
  let settings ← db.getSafety pin.connectionId
  let c ← classify parseSql sql pin.profile.engine
  let isWrite : Bool := c.kind ≠ .read
  refuseIf (isWrite ∧ ¬ pin.profile.workspaceAccess.canWrite)
    (.blocked "your workspace role grants read-only database access")
  match decide settings c with
  | .block reason => throw (.blocked reason)
  | .autoRun | .requireApproval =>
      let policy := capturePolicy x pin settings
      let historyOrigin := origin.getD "manual"
      let payload := ScopeGate.StoredDesktopSqlPayload.toValue ⟨sql, historyOrigin⟩
      let disposition : OperationPlanDisposition := if isWrite then .approvalRequired else .ready
      let actor := match terminal with
        | some _ => withClient terminal (Document.agentActorForPin pin "cli" "cli")
        | none => Document.actorForPin pin historyOrigin
      pure (newSqlOperation pin terminal actor (operationKind c.kind) payload c preview.toValue
          policy id (expiresAt isWrite), disposition,
        fun operation => ⟨operation.id, operation.payloadHash, operation.state, isWrite,
          ¬ isWrite ∧ settings.autoRunReads, requiredConfirmation operation, expiresAt isWrite, c,
          preview⟩)

/-- `propose_sql`. -/
def proposeSql (connectionId : Uuid) (sql : String) (origin : Option String)
    (terminal : Option TerminalAuthority) (answers : PlanAnswers) (draws : Draws)
    (expiresAt : Bool → DateTime) (t : Tables) : AppResult DesktopSqlProposalReceipt × Tables :=
  match newSqlProposal x parseSql db connectionId sql origin terminal answers draws.id
      expiresAt with
  | .error e => (.error e, t)
  | .ok (operation, disposition, receipt) =>
      let (planned, t) :=
        Operations.plan x runtimeId operation disposition draws.clock draws.eventIds t
      (planned.map receipt, t)

/-- `propose_terminal_sql`. -/
def proposeTerminalSql (connectionId : Uuid) (sql : String) (authority : TerminalAuthority)
    (answers : PlanAnswers) (draws : Draws) (expiresAt : Bool → DateTime) (t : Tables) :
    AppResult DesktopSqlProposalReceipt × Tables :=
  proposeSql x parseSql runtimeId db connectionId sql (some "cli") (some authority) answers draws
    expiresAt t

end

/-! ### What planning learns of the other connections -/

section

variable {x : Crates} {parseSql : Engine → String → Except String (List Statement)}
  {runtimeId : Uuid} {db db' : Database} {id : Uuid} {terminal : Option TerminalAuthority}

/-- The databases agree on a connection, and each stores its connections under their own ids. -/
structure SharesKeyed (id : Uuid) (db db' : Database) : Prop
    extends SharesConnection id db db' where
  keyed : db.Keyed
  keyed' : db'.Keyed

theorem newAgentRead_shared {request : AgentQueryPlanRequest}
    (h : SharesKeyed request.connectionId db db') (answers : PlanAnswers) (draws : Draws) :
    newAgentRead x parseSql db request terminal answers draws =
      newAgentRead x parseSql db' request terminal answers draws := by
  unfold newAgentRead
  rw [pin_shared h.toSharesConnection]
  cases hpin : pin db' request.connectionId .read answers.authority with
  | error e => rfl
  | ok p =>
    obtain ⟨hp, hpinned⟩ := pin_spec hpin
    have hid : p.profile.id = request.connectionId := profile_id_of_pin h.keyed' hpinned
    show (_ : Except AgentQueryPlanError _) = _
    simp only [application, Except.mapError, bind, Except.bind]
    rw [hid, h.getSafety, connect_shared h.toSharesConnection hp]

theorem id_newAgentRead {request : AgentQueryPlanRequest} {answers : PlanAnswers} {draws : Draws}
    {operation : NewOperation} {plan : AgentQueryPlan}
    (h : newAgentRead x parseSql db request terminal answers draws = .ok (operation, plan)) :
    operation.id = draws.id ∧ operation.idempotencyKey = draws.id.toText := by
  unfold newAgentRead at h
  simp only [Except.bind_eq_ok, Except.pure_eq_ok, Prod.mk.injEq] at h
  obtain ⟨p, -, -, -, c, -, -, -, settings, -, -, -, -, -, -, -, preview, -, rfl, -⟩ := h
  exact ⟨rfl, rfl⟩

/-- The stores hold nothing under the ids that are drawn. -/
structure Fresh (draws : Draws) (t : Tables) : Prop where
  operation : ∀ row ∈ t.operations, row.id ≠ draws.id ∧ row.idempotencyKey ≠ draws.id.toText
  event : ∀ e ∈ t.events,
    e.operationId ≠ draws.id ∧ e.id ≠ draws.eventIds 0 ∧ e.id ≠ draws.eventIds 1

theorem sameFor_of_fresh {draws : Draws} {t u : Tables} (ht : Fresh draws t) (hu : Fresh draws u) :
    SameFor draws.id draws.id.toText [draws.eventIds 0, draws.eventIds 1] t u := by
  have hoperation : ∀ row ∈ t.operations ++ u.operations,
      row.id ≠ draws.id ∧ row.idempotencyKey ≠ draws.id.toText := fun row hrow =>
    (List.mem_append.1 hrow).elim (ht.operation row) (hu.operation row)
  have hevent : ∀ e ∈ t.events ++ u.events,
      e.operationId ≠ draws.id ∧ e.id ≠ draws.eventIds 0 ∧ e.id ≠ draws.eventIds 1 := fun e he =>
    (List.mem_append.1 he).elim (ht.event e) (hu.event e)
  refine .of_fresh (fun row hrow => (hoperation row hrow).1)
    (fun row hrow => (hoperation row hrow).2) (fun e he => (hevent e he).1) fun e he => ?_
  simp [(hevent e he).2]

theorem planTerminalRead_shared {authority : TerminalAuthority} {sql : String}
    {maxRows : Option ℕ} {answers : PlanAnswers} {draws : Draws} {t u : Tables}
    (h : SharesKeyed id db db') (ht : Fresh draws t) (hu : Fresh draws u) :
    (planTerminalRead x parseSql runtimeId db id sql maxRows authority answers draws t).1 =
      (planTerminalRead x parseSql runtimeId db' id sql maxRows authority answers draws u).1 := by
  unfold planTerminalRead planAgentReadScoped
  have hshared : newAgentRead x parseSql db ⟨id, sql, maxRows, .cli⟩ (some authority) answers draws =
      newAgentRead x parseSql db' ⟨id, sql, maxRows, .cli⟩ (some authority) answers draws :=
    newAgentRead_shared h answers draws
  rw [hshared]
  cases hnewRead : newAgentRead x parseSql db' ⟨id, sql, maxRows, .cli⟩ (some authority) answers
      draws with
  | error e => rfl
  | ok out =>
    obtain ⟨operation, plan⟩ := out
    obtain ⟨hid, hkey⟩ := id_newAgentRead hnewRead
    have hnew : ∀ row ∈ t.operations, row.idempotencyKey ≠ operation.idempotencyKey := by
      rw [hkey]
      exact fun row hrow => (ht.operation row hrow).2
    have hops := sameFor_of_fresh ht hu
    rw [← hkey, ← hid] at hops
    dsimp only
    rw [(plan_alike .ready draws.clock hnew hops).1]

theorem previewSql_shared (h : SharesKeyed id db db') (sql : String) (answers : PlanAnswers) :
    previewSql parseSql db id sql terminal answers =
      previewSql parseSql db' id sql terminal answers := by
  unfold previewSql
  rw [h.pinConnectionWithAccess]
  cases hpin : db'.pinConnectionWithAccess id false with
  | error e => rfl
  | ok p =>
    obtain ⟨r, hof⟩ := pinConnectionWithAccess_spec hpin
    show (_ : AppResult _) = _
    simp only [bind, Except.bind]
    rw [hof.connectionId, h.getSafety]
    simp only [connectScope_shared h.toSharesConnection hof.connectionId]

/-- A preview names the connection it was asked for. -/
theorem connectionId_of_previewSql {sql : String} {answers : PlanAnswers}
    {out : PreviewReport × PinnedConnection}
    (h : previewSql parseSql db id sql terminal answers = .ok out) : out.2.connectionId = id := by
  unfold previewSql at h
  obtain ⟨p, hpin, h⟩ := Except.bind_eq_ok.1 h
  obtain ⟨r, hof⟩ := pinConnectionWithAccess_spec hpin
  obtain ⟨-, -, h⟩ := Except.bind_eq_ok.1 h
  obtain ⟨settings, -, h⟩ := Except.bind_eq_ok.1 h
  obtain ⟨c, -, h⟩ := Except.bind_eq_ok.1 h
  obtain ⟨-, -, h⟩ := Except.bind_eq_ok.1 h
  have hpure : ∀ {report : PreviewReport},
      (pure (report, p) : AppResult (PreviewReport × PinnedConnection)) = .ok out →
        out.2.connectionId = id := by
    rintro report heq
    obtain rfl := Except.pure_eq_ok.1 heq
    exact hof.connectionId
  split at h
  · exact hpure h
  split at h
  · exact hpure h
  split at h
  · exact hpure h
  · obtain ⟨-, -, h⟩ := Except.bind_eq_ok.1 h
    obtain ⟨-, -, h⟩ := Except.bind_eq_ok.1 h
    obtain ⟨report, -, h⟩ := Except.bind_eq_ok.1 h
    exact hpure h

theorem newSqlProposal_shared (h : SharesKeyed id db db') (sql : String) (origin : Option String)
    (answers : PlanAnswers) (operationId : Uuid) (expiresAt : Bool → DateTime) :
    newSqlProposal x parseSql db id sql origin terminal answers operationId expiresAt =
      newSqlProposal x parseSql db' id sql origin terminal answers operationId expiresAt := by
  unfold newSqlProposal
  rw [previewSql_shared h]
  cases hpreview : previewSql parseSql db' id sql terminal answers with
  | error e => rfl
  | ok out =>
    have hid := connectionId_of_previewSql hpreview
    obtain ⟨report, p⟩ := out
    show (_ : AppResult _) = _
    simp only [bind, Except.bind]
    rw [show p.connectionId = id from hid, h.getSafety]

theorem id_newSqlProposal {sql : String} {origin : Option String} {answers : PlanAnswers}
    {operationId : Uuid} {expiresAt : Bool → DateTime} {operation : NewOperation}
    {disposition : OperationPlanDisposition} {receipt : OperationRecord → DesktopSqlProposalReceipt}
    (h : newSqlProposal x parseSql db id sql origin terminal answers operationId expiresAt =
      .ok (operation, disposition, receipt)) :
    operation.id = operationId ∧ operation.idempotencyKey = operationId.toText ∧
      ∀ record, (receipt record).operationId = record.id := by
  unfold newSqlProposal at h
  obtain ⟨⟨report, p⟩, -, h⟩ := Except.bind_eq_ok.1 h
  obtain ⟨settings, -, h⟩ := Except.bind_eq_ok.1 h
  obtain ⟨c, -, h⟩ := Except.bind_eq_ok.1 h
  obtain ⟨-, -, h⟩ := Except.bind_eq_ok.1 h
  split at h
  · cases h
  all_goals
    obtain ⟨rfl, rfl, rfl⟩ := Except.pure_eq_ok.1 h
    exact ⟨rfl, rfl, fun _ => rfl⟩

/-- **Proposals are alike**, and so is what is read back of the operation. -/
theorem proposeTerminalSql_shared {authority : TerminalAuthority} {sql : String}
    {answers : PlanAnswers} {draws : Draws} {expiresAt : Bool → DateTime} {t u : Tables}
    (h : SharesKeyed id db db') (ht : Fresh draws t) (hu : Fresh draws u) :
    (proposeTerminalSql x parseSql runtimeId db id sql authority answers draws expiresAt t).1 =
        (proposeTerminalSql x parseSql runtimeId db' id sql authority answers draws expiresAt u).1 ∧
      ∀ receipt, (proposeTerminalSql x parseSql runtimeId db id sql authority answers draws expiresAt
          t).1 = .ok receipt →
        (proposeTerminalSql x parseSql runtimeId db id sql authority answers draws expiresAt
            t).2.get x receipt.operationId =
          (proposeTerminalSql x parseSql runtimeId db' id sql authority answers draws expiresAt
            u).2.get x receipt.operationId := by
  unfold proposeTerminalSql proposeSql
  rw [newSqlProposal_shared h]
  cases hproposal : newSqlProposal x parseSql db' id sql (some "cli") (some authority) answers
      draws.id expiresAt with
  | error e => exact ⟨rfl, fun _ hnone => by cases hnone⟩
  | ok out =>
    obtain ⟨operation, disposition, receipt⟩ := out
    obtain ⟨hid, hkey, hreceipt⟩ := id_newSqlProposal hproposal
    have hnew : ∀ row ∈ t.operations, row.idempotencyKey ≠ operation.idempotencyKey := by
      rw [hkey]
      exact fun row hrow => (ht.operation row hrow).2
    have hops := sameFor_of_fresh ht hu
    rw [← hkey, ← hid] at hops
    have hplan : (Operations.plan x runtimeId operation disposition draws.clock draws.eventIds t).1 =
          (Operations.plan x runtimeId operation disposition draws.clock draws.eventIds u).1 ∧
        SameFor operation.id operation.idempotencyKey [draws.eventIds 0, draws.eventIds 1]
          (Operations.plan x runtimeId operation disposition draws.clock draws.eventIds t).2
          (Operations.plan x runtimeId operation disposition draws.clock draws.eventIds u).2 :=
      plan_alike disposition draws.clock hnew hops
    obtain ⟨hvalue, hstore⟩ := hplan
    dsimp only
    generalize hout : Operations.plan x runtimeId operation disposition draws.clock
      draws.eventIds t = out at hvalue hstore
    generalize Operations.plan x runtimeId operation disposition draws.clock draws.eventIds u = out'
      at hvalue hstore
    obtain ⟨planned, t'⟩ := out
    obtain ⟨planned', u'⟩ := out'
    obtain rfl : planned = planned' := hvalue
    refine ⟨rfl, fun given hgiven => ?_⟩
    cases planned with
    | error e => cases hgiven
    | ok record =>
      obtain rfl : receipt record = given := Except.ok.inj hgiven
      rw [hreceipt, id_of_plan hnew hout]
      exact hstore.get

end

end Services
end AgentDb
