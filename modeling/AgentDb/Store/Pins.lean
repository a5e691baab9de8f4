import AgentDb.Store.Connections

/-!
# Connection pins: `PinnedConnection` of `store/mod.rs`

A pin records the active scope and every revision of a connection's material at one moment. The
conditional operations publish what a long-running service has found only while the pin is
current. Their statements all repeat one condition, `isPinCurrentWithAccess`; the lemmas at the end
say what each of them writes when it goes through.
-/

namespace AgentDb
namespace Store

open Protocol

inductive CatalogCachePolicy
  | persistent
  | ephemeralOnly
  deriving DecidableEq

inductive CacheWriteOutcome
  | stored
  | stale
  | notPersisted
  deriving DecidableEq

structure PinnedConnection where
  scope : ActiveResourceScope
  connectionId : Uuid
  connectionRevision : ℤ
  bindingRevision : ℤ
  bindingUpdatedAt : String
  profile : ConnectionProfile
  requiresRemoteRbac : Bool
  catalogCachePolicy : CatalogCachePolicy
  deriving DecidableEq

/-! ### Taking and checking a pin -/

/-- The revision of the binding that counts for the row: none for a local connection. -/
def Connection.bindingRevision (c : Connection) (binding : Option Binding) : ℤ :=
  if c.remote then (binding.map (·.revision)).getD 0 else 0

def Connection.bindingUpdatedAt (c : Connection) (binding : Option Binding) : String :=
  if c.remote then (binding.map (·.updatedAt)).getD "" else ""

/-- A connection as it stands in the active scope. -/
structure ScopedConnection where
  workspaceId : Uuid
  workspace : Workspace
  generation : ℕ
  connection : Connection

namespace Database

variable (db : Database)

/-- The join of the active scope with a connection that is visible in it. -/
def scopedConnection (id : Uuid) : Option ScopedConnection :=
  match db.activeWorkspaceId, db.generation, db.connections.get id with
  | some workspaceId, some generation, some c =>
      match db.activeWorkspace workspaceId with
      | some workspace =>
          if db.scopeValid workspaceId db.activeAccountId ∧
              c.visible workspaceId workspace db.activeAccountId then
            some ⟨workspaceId, workspace, generation, c⟩
          else none
      | none => none
  | _, _, _ => none

/-- `pin_connection_with_access`. -/
def pinConnectionWithAccess (id : Uuid) (requireRead : Bool) : AppResult PinnedConnection :=
  match db.scopedConnection id with
  | none => .error (.notFound ("connection " ++ id.toText))
  | some r => do
      let binding := db.binding id db.activeAccountId
      let profile := r.connection.withBinding binding
      refuseIf (requireRead ∧ ¬ profile.workspaceAccess.canRead)
        (.blocked "workspace role cannot execute this connection")
      let scope ← db.activeResourceScope
      let bindingRevision := r.connection.bindingRevision binding
      let bindingUpdatedAt := r.connection.bindingUpdatedAt binding
      let validBindingRevision : Bool :=
        if r.connection.remote then 1 ≤ bindingRevision ∧ bindingUpdatedAt ≠ ""
        else bindingRevision = 0 ∧ bindingUpdatedAt = ""
      refuseIf (r.connection.revision < 1 ∨ ¬ validBindingRevision)
        (.config "connection material has an invalid revision")
      let catalogCachePolicy :=
        if profile.credentialMode = .managed then CatalogCachePolicy.ephemeralOnly else .persistent
      pure ⟨scope, id, r.connection.revision, bindingRevision, bindingUpdatedAt, profile,
        r.connection.remote, catalogCachePolicy⟩

/-- The account scope of a query: the one of personal data, or the selected account. -/
def accountScopeKey (kind : WorkspaceKind) : Option String :=
  if kind = .personal then some "personal" else db.activeAccountId.map (·.text)

/-- `is_pin_current_with_access`. -/
def isPinCurrentWithAccess (pin : PinnedConnection) (allowView : Bool) : Bool :=
  (db.scopedConnection pin.connectionId).any fun r =>
    let binding := db.binding pin.connectionId db.activeAccountId
    let access := (binding.map (·.workspaceAccess)).getD .view
    r.workspaceId = pin.scope.workspaceId ∧ r.workspace.kind = pin.scope.workspaceKind ∧
      db.activeAccountId = pin.scope.selectedAccountId ∧ r.generation = pin.scope.generation ∧
      r.connection.revision = pin.connectionRevision ∧
      r.connection.bindingRevision binding = pin.bindingRevision ∧
      r.connection.bindingUpdatedAt binding = pin.bindingUpdatedAt ∧
      db.accountScopeKey r.workspace.kind = some pin.scope.accountScope.storageKey ∧
      (r.connection.remote = false ∨ access ∈ [.read, .write, .manage] ∨
        (allowView ∧ access = .view))

/-- `is_pin_current`. -/
def isPinCurrent (pin : PinnedConnection) : Bool := db.isPinCurrentWithAccess pin false

end Database

section

variable {db : Database} {id : Uuid} {r : ScopedConnection} {pin : PinnedConnection}

structure ScopedConnection.Of (r : ScopedConnection) (db : Database) (id : Uuid) : Prop where
  workspaceId : db.activeWorkspaceId = some r.workspaceId
  generation : db.generation = some r.generation
  connection : db.connections.get id = some r.connection
  workspace : db.activeWorkspace r.workspaceId = some r.workspace
  visible : r.connection.visible r.workspaceId r.workspace db.activeAccountId = true

theorem scopedConnection_spec (h : db.scopedConnection id = some r) : r.Of db id := by
  unfold Database.scopedConnection at h
  split at h
  · rename_i workspaceId generation c hid hgeneration hc
    split at h
    · rename_i workspace hworkspace
      split at h
      · rename_i hvisible
        obtain rfl := Option.some.inj h
        exact ⟨hid, hgeneration, hc, hworkspace, hvisible.2⟩
      · cases h
    · cases h
  · cases h

/-- What a pin records of the state it is taken in. -/
structure PinnedConnection.Of (pin : PinnedConnection) (db : Database) (id : Uuid)
    (r : ScopedConnection) : Prop where
  resolved : db.scopedConnection id = some r
  scope : db.activeResourceScope = .ok pin.scope
  connectionId : pin.connectionId = id
  connectionRevision : pin.connectionRevision = r.connection.revision
  bindingRevision : pin.bindingRevision =
    r.connection.bindingRevision (db.binding id db.activeAccountId)
  bindingUpdatedAt : pin.bindingUpdatedAt =
    r.connection.bindingUpdatedAt (db.binding id db.activeAccountId)
  profile : pin.profile = r.connection.withBinding (db.binding id db.activeAccountId)
  bound : r.connection.remote = true → 1 ≤ pin.bindingRevision ∧ pin.bindingUpdatedAt ≠ ""
  unbound : r.connection.remote = false → pin.bindingRevision = 0

theorem pinConnectionWithAccess_spec {requireRead : Bool}
    (h : db.pinConnectionWithAccess id requireRead = .ok pin) : ∃ r, pin.Of db id r := by
  unfold Database.pinConnectionWithAccess at h
  split at h
  · cases h
  rename_i r hr
  simp only [Except.bind_eq_ok, refuseIf_eq_ok] at h
  obtain ⟨-, -, scope, hscope, -, hvalid, h⟩ := h
  obtain rfl := Except.pure_eq_ok.1 h
  refine ⟨r, hr, hscope, rfl, rfl, rfl, rfl, rfl, fun hremote => ?_, fun hlocal => ?_⟩
  · simp only [hremote, if_true, decide_eq_true_eq, not_or, not_not] at hvalid
    exact hvalid.2
  · simp only [hlocal, Bool.false_eq_true, if_false, decide_eq_true_eq, not_or, not_not] at hvalid
    exact hvalid.2.1

theorem activeResourceScope_spec {scope : ActiveResourceScope}
    (h : db.activeResourceScope = .ok scope) : db.activeWorkspaceId = some scope.workspaceId ∧
      db.generation = some scope.generation ∧ db.activeAccountId = scope.selectedAccountId := by
  unfold Database.activeResourceScope at h
  split at h
  · rename_i id generation hid hgeneration
    split at h
    · cases h
    split at h
    · obtain rfl := Except.ok.inj h
      exact ⟨hid, hgeneration, rfl⟩
    · rename_i user _ hu
      obtain rfl := Except.ok.inj h
      exact ⟨hid, hgeneration, hu⟩
    · cases h
  · cases h

/-- What a check that passes has compared. -/
structure PinnedConnection.CurrentIn (pin : PinnedConnection) (db : Database)
    (r : ScopedConnection) : Prop where
  resolved : db.scopedConnection pin.connectionId = some r
  workspaceId : r.workspaceId = pin.scope.workspaceId
  account : db.activeAccountId = pin.scope.selectedAccountId
  generation : r.generation = pin.scope.generation
  connectionRevision : r.connection.revision = pin.connectionRevision
  bindingRevision : r.connection.bindingRevision (db.binding pin.connectionId db.activeAccountId) =
    pin.bindingRevision
  bindingUpdatedAt : r.connection.bindingUpdatedAt
    (db.binding pin.connectionId db.activeAccountId) = pin.bindingUpdatedAt

theorem isPinCurrentWithAccess_spec {allowView : Bool}
    (h : db.isPinCurrentWithAccess pin allowView = true) : ∃ r, pin.CurrentIn db r := by
  obtain ⟨r, hr, hcurrent⟩ := (Option.any_eq_true _ _).1 h
  simp only [decide_eq_true_eq] at hcurrent
  obtain ⟨h1, -, h3, h4, h5, h6, h7, -⟩ := hcurrent
  exact ⟨r, hr, h1, h3, h4, h5, h6, h7⟩

end

/-! ### Conditional operations -/

def protocolEngine : Engine → DatabaseEngine
  | .postgres => .postgres
  | .mysql => .mysql
  | .sqlite => .sqlite
  | .mongodb => .mongodb

/-- `catalog_matches_pin`. -/
def catalogMatchesPin (snapshot : CatalogSnapshot) (pin : PinnedConnection) : Bool :=
  snapshot.connectionId = pin.connectionId ∧
    snapshot.engine = protocolEngine pin.profile.engine ∧
    snapshot.database = pin.profile.database

/-- The key of the cached catalog of a pin. -/
def PinnedConnection.catalogKey (pin : PinnedConnection) : Uuid × String × Uuid :=
  (pin.scope.workspaceId, pin.scope.accountScope.storageKey, pin.connectionId)

section

variable (sha256 : List UInt8 → Vector UInt8 32)

/-- `CatalogSnapshot::deserialize`, from the fields of the text. -/
def deserializeCatalog (wire : CatalogSnapshot) :
    Except CatalogValidationError CatalogSnapshot :=
  if wire.schemaVersion ≠ catalogSchemaVersion then
    .error (.schemaVersion wire.schemaVersion catalogSchemaVersion)
  else
    CatalogSnapshot.new sha256 wire.connectionId wire.engine wire.database wire.capturedAt
      wire.fingerprint wire.contents

/-- `get_catalog_if_current`. -/
def getCatalogIfCurrent (pin : PinnedConnection) (db : Database) : Option CatalogSnapshot :=
  if pin.catalogCachePolicy = .ephemeralOnly then none
  else
    let key := pin.catalogKey
    match (db.catalogs.get key).filter fun row =>
        row.connectionRevision = pin.connectionRevision ∧
          row.bindingRevision = pin.bindingRevision ∧
          row.bindingUpdatedAt = pin.bindingUpdatedAt ∧
          row.catalogSchemaVersion = catalogSchemaVersion ∧
          (key.2.2, key.2.1) ∉ db.legacyCatalogs ∧ db.isPinCurrentWithAccess pin false with
    | none => none
    | some row =>
        (row.catalogJson.bind fun wire => (deserializeCatalog sha256 wire).toOption).filter
          fun snapshot =>
            row.catalogSchemaVersion = catalogSchemaVersion ∧
              snapshot.schemaVersion = catalogSchemaVersion ∧
              snapshot.fingerprint = row.fingerprint ∧ snapshot.capturedAt = row.capturedAt ∧
              catalogMatchesPin snapshot pin

/-- `put_catalog_if_current`. -/
def putCatalogIfCurrent (pin : PinnedConnection) (snapshot : CatalogSnapshot) (db : Database) :
    AppResult (CacheWriteOutcome × Database) :=
  if pin.catalogCachePolicy = .ephemeralOnly then .ok (.notPersisted, db)
  else
    match snapshot.validate sha256 with
    | .error _ => .error (.config "invalid Catalog V2 snapshot")
    | .ok _ =>
        if ¬ catalogMatchesPin snapshot pin then
          .error (.config "Catalog V2 snapshot does not match its connection pin")
        else if ¬ db.isPinCurrentWithAccess pin false then .ok (.stale, db)
        else
          let row : CatalogRow :=
            ⟨pin.connectionRevision, pin.bindingRevision, pin.bindingUpdatedAt,
              snapshot.schemaVersion, snapshot.fingerprint, snapshot.capturedAt, some snapshot⟩
          .ok (.stored, { db with
            catalogs := db.catalogs.put pin.catalogKey row
            legacyCatalogs := db.legacyCatalogs.filter fun key =>
              key ≠ (pin.connectionId, pin.scope.accountScope.storageKey) })

end

/-- `insert_history_if_current`. -/
def insertHistoryIfCurrent (pin : PinnedConnection) (h : HistoryEntry) (db : Database) :
    AppResult Database :=
  if h.connectionId ≠ pin.connectionId then
    .error (.config "query history does not match its connection pin")
  else if ¬ db.isPinCurrentWithAccess pin false then
    .error (.blocked "workspace scope changed before query history could be saved")
  else if db.history.any (·.id = h.id) then
    .error (.db "UNIQUE constraint failed: query_history.id")
  else .ok { db with history := db.history ++ [⟨h, pin.scope.accountScope.storageKey⟩] }

/-- `dashboard_scope_changed`. -/
def dashboardScopeChanged : AppError :=
  .blocked "workspace, connection, or dashboard changed; retry the operation"

/-- `save_dashboard_if_current`, with the fresh id and the time it reads. -/
def saveDashboardIfCurrent (id : Uuid) (now : DateTime) (pin : PinnedConnection)
    (draft : DashboardDraft) (db : Database) : AppResult (DashboardRow × Database) :=
  if draft.connectionId ≠ pin.connectionId then
    .error (.blocked "dashboard connection does not match the authorized connection")
  else if db.generation = none then .error (.config "active workspace generation is missing")
  else if ¬ db.isPinCurrentWithAccess pin true then .error dashboardScopeChanged
  else if db.dashboards.any (·.id = id) then
    .error (.db "UNIQUE constraint failed: dashboards.id")
  else
    let row : DashboardRow := ⟨draft, id, pin.scope.workspaceId, 1, "dirty", now, now⟩
    .ok (row, { db with dashboards := db.dashboards ++ [row] })

/-! ### What an accepted pin writes -/

/-- Some conditional operation accepts the pin in this state. -/
inductive Accepts (sha256 : List UInt8 → Vector UInt8 32) (db : Database) (pin : PinnedConnection) :
    Prop
  | current (h : db.isPinCurrent pin = true)
  | gotCatalog (snapshot : CatalogSnapshot) (h : getCatalogIfCurrent sha256 pin db = some snapshot)
  | putCatalog (snapshot : CatalogSnapshot) (db' : Database)
      (h : putCatalogIfCurrent sha256 pin snapshot db = .ok (.stored, db'))
  | insertedHistory (entry : HistoryEntry) (db' : Database)
      (h : insertHistoryIfCurrent pin entry db = .ok db')
  | savedDashboard (id : Uuid) (now : DateTime) (draft : DashboardDraft) (row : DashboardRow)
      (db' : Database) (h : saveDashboardIfCurrent id now pin draft db = .ok (row, db'))

section

variable {sha256 : List UInt8 → Vector UInt8 32} {pin : PinnedConnection} {db db' : Database}

/-- The row under the key of the pin carries the revisions of the pin. -/
structure CatalogRow.Matches (row : CatalogRow) (pin : PinnedConnection)
    (snapshot : CatalogSnapshot) : Prop where
  connectionRevision : row.connectionRevision = pin.connectionRevision
  bindingRevision : row.bindingRevision = pin.bindingRevision
  bindingUpdatedAt : row.bindingUpdatedAt = pin.bindingUpdatedAt
  catalog : row.catalogJson = some snapshot
  connectionId : snapshot.connectionId = pin.connectionId

theorem putCatalogIfCurrent_spec {snapshot : CatalogSnapshot} {outcome : CacheWriteOutcome}
    (h : putCatalogIfCurrent sha256 pin snapshot db = .ok (outcome, db')) :
    outcome ≠ .stored ∧ db' = db ∨
      db.isPinCurrentWithAccess pin false = true ∧ ∃ row : CatalogRow, row.Matches pin snapshot ∧
        db' = { db with
          catalogs := db.catalogs.put pin.catalogKey row
          legacyCatalogs := db.legacyCatalogs.filter fun key =>
            key ≠ (pin.connectionId, pin.scope.accountScope.storageKey) } := by
  unfold putCatalogIfCurrent at h
  split at h
  · obtain ⟨rfl, rfl⟩ := Prod.mk.inj (Except.ok.inj h)
    exact .inl ⟨by decide, rfl⟩
  split at h
  · cases h
  split at h
  · cases h
  rename_i hmatches
  split at h
  · obtain ⟨rfl, rfl⟩ := Prod.mk.inj (Except.ok.inj h)
    exact .inl ⟨by decide, rfl⟩
  rename_i hcurrent
  obtain rfl := (Prod.mk.inj (Except.ok.inj h)).2
  simp only [catalogMatchesPin, not_not, decide_eq_true_eq] at hmatches
  exact .inr ⟨not_not.1 hcurrent, _, ⟨rfl, rfl, rfl, rfl, hmatches.1⟩, rfl⟩

theorem insertHistoryIfCurrent_spec {entry : HistoryEntry}
    (h : insertHistoryIfCurrent pin entry db = .ok db') :
    db.isPinCurrentWithAccess pin false = true ∧ entry.connectionId = pin.connectionId ∧
      db' = { db with
        history := db.history ++ [⟨entry, pin.scope.accountScope.storageKey⟩] } := by
  unfold insertHistoryIfCurrent at h
  split at h
  · cases h
  rename_i hconnection
  split at h
  · cases h
  rename_i hcurrent
  split at h
  · cases h
  exact ⟨not_not.1 hcurrent, not_not.1 hconnection, (Except.ok.inj h).symm⟩

theorem saveDashboardIfCurrent_spec {id : Uuid} {now : DateTime} {draft : DashboardDraft}
    {row : DashboardRow} (h : saveDashboardIfCurrent id now pin draft db = .ok (row, db')) :
    db.isPinCurrentWithAccess pin true = true ∧ row.connectionId = pin.connectionId ∧
      row.workspaceId = pin.scope.workspaceId ∧
      db' = { db with dashboards := db.dashboards ++ [row] } := by
  unfold saveDashboardIfCurrent at h
  split at h
  · cases h
  rename_i hconnection
  split at h
  · cases h
  split at h
  · cases h
  rename_i hcurrent
  split at h
  · cases h
  obtain ⟨rfl, rfl⟩ := Prod.mk.inj (Except.ok.inj h)
  exact ⟨not_not.1 hcurrent, not_not.1 hconnection, rfl, rfl⟩

theorem getCatalogIfCurrent_spec {snapshot : CatalogSnapshot}
    (h : getCatalogIfCurrent sha256 pin db = some snapshot) :
    db.isPinCurrentWithAccess pin false = true := by
  unfold getCatalogIfCurrent at h
  split at h
  · cases h
  dsimp only at h
  split at h
  · cases h
  · rename_i hrow
    obtain ⟨-, hrow⟩ := Option.filter_eq_some_iff.1 hrow
    simp only [decide_eq_true_eq] at hrow
    exact hrow.2.2.2.2.2

/-- Every operation that accepts the pin has found it current. -/
theorem Accepts.isPinCurrentWithAccess (h : Accepts sha256 db pin) :
    ∃ allowView, db.isPinCurrentWithAccess pin allowView = true := by
  cases h with
  | current h => exact ⟨false, h⟩
  | gotCatalog snapshot h => exact ⟨false, getCatalogIfCurrent_spec h⟩
  | putCatalog snapshot db' h =>
    rcases putCatalogIfCurrent_spec h with ⟨hne, -⟩ | ⟨hcurrent, -⟩
    · exact absurd rfl hne
    · exact ⟨false, hcurrent⟩
  | insertedHistory entry db' h => exact ⟨false, (insertHistoryIfCurrent_spec h).1⟩
  | savedDashboard id now draft row db' h => exact ⟨true, (saveDashboardIfCurrent_spec h).1⟩

end

end Store
end AgentDb
