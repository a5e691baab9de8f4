import AgentDb.Lib.ChangeLog
import AgentDb.Lib.Session
import AgentDb.Store.Edited

/-!
# The outbox of the store: `store/mod.rs`

Every change of a local connection or a dashboard leaves a row in `sync_outbox`, for a server that
is to be told of it later. The calls are modelled statement by statement, since any statement may
fail; what they write stays in the transaction until its commit.
-/

namespace AgentDb
namespace Store
namespace Outbox

open ChangeLog SessionM

/-! ### The tables -/

/-- The kinds of resources that are synchronized. -/
inductive ResourceType
  | connection
  | dashboard
  deriving DecidableEq

/-- The column `operation`. -/
inductive Operation
  | upsert
  | delete
  deriving DecidableEq

/-- A row of `sync_outbox`; its payload is always null. -/
structure OutboxRow where
  workspaceId : Uuid
  resourceType : ResourceType
  resourceId : Uuid
  operation : Operation
  revision : ℤ

/-- The tables of the resources and the outbox. `deletedDashboards` is the column `deleted_at` of
`dashboards`. -/
structure Tables where
  db : Database
  deletedDashboards : Table Uuid DateTime
  outbox : List OutboxRow

/-- The statements of a transaction, and calls of the store. -/
abbrev StoreTx := Tx Tables AppError

abbrev StoreM := SessionM Tables AppError

/-! ### Statements -/

/-- A query. -/
def query {α : Type} (q : Database → AppResult α) : StoreTx α := do
  let s ← get
  q s.db

/-- A statement that writes other tables than the outbox. -/
def update (m : Database → AppResult Database) : StoreTx PUnit := do
  let s ← get
  let db ← m s.db
  set { s with db }

/-- `enqueue_outbox`. -/
def enqueueOutbox (workspaceId : Uuid) (resourceType : ResourceType) (resourceId : Uuid)
    (operation : Operation) (revision : ℤ) : StoreTx PUnit :=
  modify fun s => { s with
    outbox := s.outbox ++ [⟨workspaceId, resourceType, resourceId, operation, revision⟩] }

/-- The active scope, as `upsert_connection` asks for it. -/
def activeScope (db : Database) : AppResult (Uuid × Workspace) :=
  match db.usableWorkspace with
  | none => .error (.config "active workspace scope is invalid")
  | some scope => .ok scope

/-- `SELECT revision FROM connections WHERE id = ?1`. -/
def connectionRevision (id : Uuid) (db : Database) : AppResult ℤ :=
  match db.connections.get id with
  | none => .error (.db "no rows returned by a query that expected to return at least one row")
  | some c => .ok c.revision

/-- The condition of the `UPDATE` that deletes a dashboard. -/
def Tables.pinned (s : Tables) (connection : PinnedConnection) (dashboardId : Uuid)
    (dashboardRevision : ℤ) (d : DashboardRow) : Bool :=
  d.id = dashboardId ∧ d.workspaceId = connection.scope.workspaceId ∧
    d.connectionId = connection.connectionId ∧ d.revision = dashboardRevision ∧
    s.deletedDashboards.get d.id = none

/-- `UPDATE dashboards SET deleted_at = ?2 … RETURNING revision`. -/
def tombstoneDashboard (now : DateTime) (connection : PinnedConnection) (dashboardId : Uuid)
    (dashboardRevision : ℤ) : StoreTx (Option ℤ) := do
  let s ← get
  let pinned := s.pinned connection dashboardId dashboardRevision
  match s.db.dashboards.find? pinned with
  | none => return none
  | some d => do
      let tombstone (d : DashboardRow) : DashboardRow :=
        { d with revision := d.revision + 1, syncStatus := "dirty", updatedAt := now }
      set { s with
        db := { s.db with
          dashboards := s.db.dashboards.map fun d => if pinned d then tombstone d else d }
        deletedDashboards := s.deletedDashboards.put dashboardId now }
      return some (d.revision + 1)

/-! ### Calls -/

/-- `upsert_connection`. -/
def upsertConnection (now : DateTime) (p : ConnectionProfile) : StoreM ConnectionProfile := do
  refuseIf (p.workspaceAccess ≠ .local_)
    (AppError.config "shared connection templates cannot be edited as local connections")
  refuseIf (p.credentialMode ≠ .local_)
    (AppError.config "local connections must use local credential mode")
  beginTx
  let scope ← statement (query activeScope)
  statement (update (Store.upsertConnection now p))
  let revision ← statement (query (connectionRevision p.id))
  statement (enqueueOutbox scope.1 .connection p.id .upsert revision)
  commit
  return p

/-- One `UPDATE` of a connection, its revision, and its row in the outbox. -/
def editAndEnqueue (now : DateTime) (workspaceId : Uuid) (edit : Connection → Connection)
    (operation : Operation) (id : Uuid) : StoreM PUnit := do
  statement (update fun db => editConnection now workspaceId edit db id)
  let revision ← statement (query (connectionRevision id))
  statement (enqueueOutbox workspaceId .connection id operation revision)

/-- `set_connections_schema_group`. -/
def setConnectionsSchemaGroup (now : DateTime) (ids : List Uuid) (schemaGroup : Option String) :
    StoreM PUnit := do
  ids.forM fun id => do
    let _ ← statement (query (·.getConnection id))
  let scope ← statement (query (·.activeResourceScope))
  beginTx
  ids.forM (editAndEnqueue now scope.workspaceId (fun c => { c with schemaGroup }) .upsert)
  commit
  return ⟨⟩

/-- `delete_connection`. -/
def deleteConnection (now : DateTime) (id : Uuid) : StoreM PUnit := do
  let _ ← statement (query (·.getConnection id))
  let scope ← statement (query (·.activeResourceScope))
  beginTx
  editAndEnqueue now scope.workspaceId (fun c => { c with deletedAt := some now }) .delete id
  commit
  return ⟨⟩

/-- `acquire_dashboard_writer`, and the pin rechecked. -/
def dashboardWriter (pin : PinnedConnection) : StoreM PUnit := do
  statement (query fun db =>
    refuseIf (db.generation = none) (.config "active workspace generation is missing"))
  statement (query fun db =>
    refuseIf (¬ db.isPinCurrentWithAccess pin true) dashboardScopeChanged)

/-- `save_dashboard_if_current`, with the fresh id and the time it reads. -/
def saveDashboardIfCurrent (id : Uuid) (now : DateTime) (pin : PinnedConnection)
    (draft : DashboardDraft) : StoreM PUnit := do
  refuseIf (draft.connectionId ≠ pin.connectionId)
    (AppError.blocked "dashboard connection does not match the authorized connection")
  beginTx
  dashboardWriter pin
  statement (update fun db => (Store.saveDashboardIfCurrent id now pin draft db).map Prod.snd)
  statement (enqueueOutbox pin.scope.workspaceId .dashboard id .upsert 1)
  commit
  return ⟨⟩

/-- `delete_dashboard_revision_if_current`. -/
def deleteDashboardRevisionIfCurrent (now : DateTime) (connection : PinnedConnection)
    (dashboardId : Uuid) (dashboardRevision : ℤ) : StoreM PUnit := do
  beginTx
  dashboardWriter connection
  let revision ← statement (tombstoneDashboard now connection dashboardId dashboardRevision)
  match revision with
  | none => throw dashboardScopeChanged
  | some revision =>
      statement (enqueueOutbox connection.scope.workspaceId .dashboard dashboardId .delete revision)
      commit
      return ⟨⟩

/-! ### The tables as books -/

/-- A resource, by its kind and its id. -/
abbrev Resource := ResourceType × Uuid

/-- The change a row of the outbox stands for. -/
def OutboxRow.entry (row : OutboxRow) : Entry Resource Uuid :=
  ⟨(row.resourceType, row.resourceId), row.workspaceId, row.operation = .delete, row.revision⟩

theorem entry_injective : Function.Injective OutboxRow.entry := by
  rintro ⟨workspaceId, type, id, operation, revision⟩ ⟨workspaceId', type', id', operation', _⟩ h
  simp only [OutboxRow.entry, Entry.mk.injEq, Prod.mk.injEq, decide_eq_decide] at h
  obtain ⟨⟨rfl, rfl⟩, rfl, hoperation, rfl⟩ := h
  cases operation <;> cases operation' <;> simp_all

/-- What the tables have of a resource. -/
def Tables.head (s : Tables) : Resource → Option (Head Uuid)
  | (.connection, id) =>
      (s.db.connections.get id).map fun c => ⟨c.revision, c.workspaceId, c.deletedAt.isSome⟩
  | (.dashboard, id) =>
      (s.db.dashboards.find? fun d => d.id = id).map fun d =>
        ⟨d.revision, d.workspaceId, (s.deletedDashboards.get id).isSome⟩

def Tables.books (s : Tables) : Books Resource Uuid := ⟨s.head, s.outbox.map OutboxRow.entry⟩

@[simp] theorem log_books (s : Tables) : s.books.log = s.outbox.map OutboxRow.entry := rfl

@[simp] theorem head_connection (s : Tables) (id : Uuid) : s.books.head (.connection, id) =
    (s.db.connections.get id).map fun c => ⟨c.revision, c.workspaceId, c.deletedAt.isSome⟩ := rfl

@[simp] theorem head_dashboard (s : Tables) (id : Uuid) : s.books.head (.dashboard, id) =
    (s.db.dashboards.find? fun d => d.id = id).map fun d =>
      ⟨d.revision, d.workspaceId, (s.deletedDashboards.get id).isSome⟩ := rfl

/-- The ids of dashboards are a key, and only a dashboard has the mark of a deleted one. -/
structure Tables.Keyed (s : Tables) : Prop where
  dashboards : (s.db.dashboards.map (·.id)).Nodup
  deleted : ∀ id, s.deletedDashboards.get id ≠ none → ∃ d ∈ s.db.dashboards, d.id = id

theorem Tables.Keyed.of_eq {s s' : Tables} (h : s.Keyed)
    (hdashboards : s'.db.dashboards = s.db.dashboards)
    (hdeleted : s'.deletedDashboards = s.deletedDashboards) : s'.Keyed := by
  obtain ⟨hnodup, hkeys⟩ := h
  rw [← hdashboards] at hnodup hkeys
  rw [← hdeleted] at hkeys
  exact ⟨hnodup, hkeys⟩

section

variable {s s' : Tables} {id : Uuid}

/-- A row of `connections` is written with the next revision, and one row of the outbox. -/
theorem posted_connection (operation : Operation) (row : Connection)
    (hconnections : s'.db.connections = s.db.connections.put id row)
    (hdashboards : s'.db.dashboards = s.db.dashboards)
    (hdeleted : s'.deletedDashboards = s.deletedDashboards)
    (hrevision : row.revision = (s.db.connections.get id).elim 1 fun c => c.revision + 1)
    (hplace : ∀ c, s.db.connections.get id = some c → c.workspaceId = row.workspaceId)
    (htomb : row.deletedAt.isSome = decide (operation = .delete))
    (houtbox : s'.outbox = s.outbox ++
      [⟨row.workspaceId, .connection, id, operation, row.revision⟩]) :
    Posted (.connection, id) (decide (operation = .delete)) s.books s'.books := by
  have hnext : s.books.revision (.connection, id) + 1 = row.revision := by
    rw [hrevision, Books.revision, head_connection]
    cases s.db.connections.get id <;> rfl
  refine ⟨⟨row.workspaceId, fun h hh => ?_, ?_, ?_⟩, fun r hr => ?_⟩
  · obtain ⟨c, hc, rfl⟩ := Option.map_eq_some_iff.1 hh
    exact hplace c hc
  · rw [hnext, ← htomb, head_connection, hconnections, Table.get_put_self]
    rfl
  · rw [hnext, log_books, houtbox, List.map_append]
    rfl
  · obtain ⟨type, id'⟩ := r
    cases type with
    | connection =>
        have hne : id' ≠ id := fun h => hr (h ▸ rfl)
        rw [head_connection, head_connection, hconnections, Table.get_put_of_ne _ _ hne]
    | dashboard => rw [head_dashboard, head_dashboard, hdashboards, hdeleted]

/-- The same for a row of `dashboards`. -/
theorem posted_dashboard (operation : Operation) (d : DashboardRow)
    (hconnections : s'.db.connections = s.db.connections)
    (hmine : s'.db.dashboards.find? (fun d => d.id = id) = some d)
    (hother : ∀ id', id' ≠ id → s'.db.dashboards.find? (fun d => d.id = id') =
      s.db.dashboards.find? (fun d => d.id = id'))
    (hdeleted : ∀ id', id' ≠ id → s'.deletedDashboards.get id' = s.deletedDashboards.get id')
    (hrevision : d.revision =
      (s.db.dashboards.find? fun d => d.id = id).elim 1 fun old => old.revision + 1)
    (hplace : ∀ old, s.db.dashboards.find? (fun d => d.id = id) = some old →
      old.workspaceId = d.workspaceId)
    (htomb : (s'.deletedDashboards.get id).isSome = decide (operation = .delete))
    (houtbox : s'.outbox = s.outbox ++ [⟨d.workspaceId, .dashboard, id, operation, d.revision⟩]) :
    Posted (.dashboard, id) (decide (operation = .delete)) s.books s'.books := by
  have hnext : s.books.revision (.dashboard, id) + 1 = d.revision := by
    rw [hrevision, Books.revision, head_dashboard]
    cases s.db.dashboards.find? fun d => d.id = id <;> rfl
  refine ⟨⟨d.workspaceId, fun h hh => ?_, ?_, ?_⟩, fun r hr => ?_⟩
  · obtain ⟨old, hold, rfl⟩ := Option.map_eq_some_iff.1 hh
    exact hplace old hold
  · rw [hnext, ← htomb, head_dashboard, hmine]
    rfl
  · rw [hnext, log_books, houtbox, List.map_append]
    rfl
  · obtain ⟨type, id'⟩ := r
    cases type with
    | connection => rw [head_connection, head_connection, hconnections]
    | dashboard =>
        have hne : id' ≠ id := fun h => hr (h ▸ rfl)
        rw [head_dashboard, head_dashboard, hother id' hne, hdeleted id' hne]

end

/-! ### What the calls do -/

section

variable {s s' : Tables} {now : DateTime}

theorem query_eq_ok {α : Type} {q : Database → AppResult α} {a : α} :
    query q s = .ok (a, s') ↔ q s.db = .ok a ∧ s = s' := by
  rw [query, Tx.get_bind_eq_ok, Tx.lift_eq_ok]

theorem update_eq_ok {m : Database → AppResult Database} {u : PUnit} :
    update m s = .ok (u, s') ↔ ∃ db, m s.db = .ok db ∧ { s with db } = s' := by
  simp only [update, Tx.get_bind_eq_ok, Tx.lift_bind_eq_ok, Tx.set_eq_ok]

theorem enqueueOutbox_eq_ok {workspaceId id : Uuid} {type : ResourceType} {operation : Operation}
    {revision : ℤ} {u : PUnit} :
    enqueueOutbox workspaceId type id operation revision s = .ok (u, s') ↔
      { s with outbox := s.outbox ++ [⟨workspaceId, type, id, operation, revision⟩] } = s' := by
  rw [enqueueOutbox, Tx.modify_eq_ok]

theorem connectionRevision_eq_ok {id : Uuid} {db : Database} {revision : ℤ} :
    connectionRevision id db = .ok revision ↔
      ∃ c, db.connections.get id = some c ∧ c.revision = revision := by
  unfold connectionRevision
  cases db.connections.get id <;> simp

/-- A call that goes through makes some changes; a call that fails makes none. -/
def Makes {α : Type} (call : StoreM α) (changes : List (Resource × Bool)) : Prop :=
  ∀ faults s, s.Keyed →
    (∃ a s', perform call faults s = (.ok a, s') ∧ s'.Keyed ∧
      PostedAll changes s.books s'.books) ∨
    ∃ e, perform call faults s = (.error e, s)

/-- It is enough to look at the transaction of a call. -/
theorem makes_of_settles {α : Type} {call : StoreM α} {changes : List (Resource × Bool)}
    {m : StoreTx (AppResult α)} (h : Settles call m)
    (hm : ∀ s r s', s.Keyed → m s = .ok (r, s') →
      (∃ a, r = .ok a) ∧ s'.Keyed ∧ PostedAll changes s.books s'.books) : Makes call changes := by
  intro faults s hs
  obtain ⟨r, s', hrun, hperform⟩ | hfailed := h.perform_cases faults s
  · obtain ⟨⟨a, rfl⟩, hkeyed, hposted⟩ := hm s r s' hs hrun
    exact .inl ⟨a, s', hperform, hkeyed, hposted⟩
  · exact .inr hfailed

theorem makes_upsertConnection (now : DateTime) (p : ConnectionProfile) :
    Makes (upsertConnection now p) [((.connection, p.id), false)] := by
  refine makes_of_settles (Settles.bind (follows_lift _) fun _ => Settles.bind (follows_lift _)
    fun _ => Settles.first (follows_statement _) (Settles.bind (follows_statement _) fun _ =>
      Settles.bind (follows_statement _) fun _ => Settles.bind (follows_statement _) fun _ =>
        Settles.bind (follows_statement _) fun _ => settles_commit (.ok p)))
    fun s r s' hs h => ?_
  simp only [Tx.bind_eq_ok, Tx.lift_eq_ok, Tx.pure_eq_ok, query_eq_ok, update_eq_ok,
    enqueueOutbox_eq_ok, connectionRevision_eq_ok] at h
  obtain ⟨-, s₁, ⟨-, rfl⟩, -, s₂, ⟨-, rfl⟩, scope, s₃, ⟨hscope, rfl⟩, -, s₄, ⟨db, hdb, rfl⟩,
    revision, s₅, ⟨⟨c, hc, rfl⟩, rfl⟩, -, s₆, rfl, rfl, rfl⟩ := h
  obtain ⟨workspaceId, workspace, row, hup⟩ := upsertConnection_spec hdb
  obtain rfl : scope = (workspaceId, workspace) := by
    unfold activeScope at hscope
    rw [hup.usable] at hscope
    exact (Except.ok.inj hscope).symm
  obtain rfl : c = row := by
    change db.connections.get p.id = some c at hc
    rw [hup.connections, Table.get_put_self] at hc
    exact (Option.some.inj hc).symm
  have hposted : Posted (.connection, p.id) (decide (Operation.upsert = .delete)) s.books
      (Tables.books { s with
        db
        outbox := s.outbox ++ [⟨workspaceId, .connection, p.id, .upsert, c.revision⟩] }) :=
    posted_connection .upsert c hup.connections hup.dashboards rfl hup.revision
      (fun old hold => (hup.before old hold).1.trans hup.workspaceId.symm)
      (by rw [hup.deletedAt]; rfl) (by rw [hup.workspaceId])
  exact ⟨⟨p, rfl⟩, hs.of_eq hup.dashboards rfl, hposted.all⟩

/-- One edit of a connection that was not deleted. -/
theorem exists_follows_editAndEnqueue {workspaceId : Uuid} {edit : Connection → Connection}
    {operation : Operation}
    (hedit : ∀ c, c.deletedAt = none → (edit c).workspaceId = c.workspaceId ∧
      (edit c).deletedAt.isSome = decide (operation = .delete)) :
    ∃ f : Uuid → StoreTx PUnit, ∀ id,
      Follows (editAndEnqueue now workspaceId edit operation id) (f id) ∧
      ∀ s s' u, s.Keyed → f id s = .ok (u, s') →
        s'.Keyed ∧ Posted (.connection, id) (decide (operation = .delete)) s.books s'.books := by
  refine ⟨fun id => _, fun id => ⟨(follows_statement _).bind fun _ => (follows_statement _).bind
    fun _ => follows_statement _, fun s s' u hs h => ?_⟩⟩
  simp only [Tx.bind_eq_ok, query_eq_ok, update_eq_ok, enqueueOutbox_eq_ok,
    connectionRevision_eq_ok] at h
  obtain ⟨-, s₁, ⟨db, hdb, rfl⟩, revision, s₂, ⟨⟨c', hc', rfl⟩, rfl⟩, rfl⟩ := h
  obtain ⟨c, hc, hworkspace, hdeleted, rfl⟩ := editConnection_spec hdb
  obtain ⟨hplace, htomb⟩ := hedit c hdeleted
  obtain rfl : c' = c.edited now edit := by
    dsimp only at hc'
    rw [Table.get_put_self] at hc'
    exact (Option.some.inj hc').symm
  have hrow : (c.edited now edit).workspaceId = workspaceId := hplace.trans hworkspace
  refine ⟨hs.of_eq rfl rfl, posted_connection operation (c.edited now edit) rfl rfl rfl ?_
    (fun old hold => ?_) htomb (by rw [hrow])⟩
  · rw [hc]
    rfl
  · rw [hc] at hold
    cases hold
    exact hplace.symm

/-- The same edit of a list of connections. -/
theorem postedAll_forM {removed : Bool} {f : Uuid → StoreTx PUnit}
    (hf : ∀ id s s' u, s.Keyed → f id s = .ok (u, s') →
      s'.Keyed ∧ Posted (.connection, id) removed s.books s'.books) {ids : List Uuid} {u : PUnit}
    (hs : s.Keyed) (h : ids.forM f s = .ok (u, s')) :
    s'.Keyed ∧ PostedAll (ids.map fun id => ((.connection, id), removed)) s.books s'.books := by
  induction ids generalizing s with
  | nil =>
      obtain ⟨-, rfl⟩ := Tx.pure_eq_ok.1 h
      exact ⟨hs, .nil _⟩
  | cons id ids ih =>
      obtain ⟨_, s₁, hfirst, hrest⟩ := Tx.bind_eq_ok.1 h
      obtain ⟨hs₁, hposted⟩ := hf id s s₁ _ hs hfirst
      obtain ⟨hs', hall⟩ := ih hs₁ hrest
      exact ⟨hs', .cons hposted hall⟩

theorem forM_query {ids : List Uuid} {q : Uuid → StoreTx PUnit} {u : PUnit}
    (hq : ∀ id s s' u, q id s = .ok (u, s') → s' = s) (h : ids.forM q s = .ok (u, s')) :
    s' = s := by
  induction ids generalizing s with
  | nil => exact (Tx.pure_eq_ok.1 h).2.symm
  | cons id ids ih =>
      obtain ⟨_, s₁, hfirst, hrest⟩ := Tx.bind_eq_ok.1 h
      exact (ih hrest).trans (hq id s s₁ _ hfirst)

theorem makes_setConnectionsSchemaGroup (ids : List Uuid) (schemaGroup : Option String) :
    Makes (setConnectionsSchemaGroup now ids schemaGroup)
      (ids.map fun id => ((.connection, id), false)) := by
  have hedits : ∀ workspaceId, ∃ f : Uuid → StoreTx PUnit, ∀ id,
      Follows (editAndEnqueue now workspaceId (fun c => { c with schemaGroup }) .upsert id)
        (f id) ∧ ∀ s s' u, s.Keyed → f id s = .ok (u, s') →
        s'.Keyed ∧
          Posted (.connection, id) (decide (Operation.upsert = .delete)) s.books s'.books :=
    fun workspaceId => exists_follows_editAndEnqueue fun c hdeleted =>
      ⟨rfl, by dsimp only; rw [hdeleted]; rfl⟩
  choose f hf using hedits
  have hread : ∀ id : Uuid, Follows (do let _ ← statement (query (·.getConnection id)))
      (query (·.getConnection id) >>= fun _ => pure ⟨⟩) :=
    fun id => (follows_statement _).bind fun _ => follows_pure _
  have hsettles : Settles (setConnectionsSchemaGroup now ids schemaGroup)
      ((ids.forM fun id => query (·.getConnection id) >>= fun _ => pure ⟨⟩) >>= fun _ =>
        query (·.activeResourceScope) >>= fun scope => ids.forM (f scope.workspaceId) >>= fun _ =>
          pure (.ok ⟨⟩)) := by
    unfold setConnectionsSchemaGroup
    refine Settles.bind (Follows.forM hread ids) fun _ => Settles.bind (follows_statement _)
      fun scope => Settles.first (follows_statement _) ?_
    exact Settles.bind (Follows.forM (fun id => (hf scope.workspaceId id).1) ids) fun _ =>
      settles_commit (.ok PUnit.unit)
  refine makes_of_settles hsettles fun s r s' hs h => ?_
  simp only [Tx.bind_eq_ok, Tx.pure_eq_ok, query_eq_ok] at h
  obtain ⟨_, s₁, hrows, scope, s₂, ⟨-, rfl⟩, _, s₃, hloop, rfl, rfl⟩ := h
  have hreads : ∀ (id : Uuid) (s s' : Tables) (u : PUnit),
      (query (·.getConnection id) >>= fun _ => pure ⟨⟩ : StoreTx PUnit) s = .ok (u, s') → s' = s :=
    fun id s s' u hq => by
      simp only [Tx.bind_eq_ok, Tx.pure_eq_ok, query_eq_ok] at hq
      obtain ⟨_, _, ⟨-, rfl⟩, -, rfl⟩ := hq
      rfl
  obtain rfl := forM_query hreads hrows
  obtain ⟨hs', hall⟩ := postedAll_forM (fun id => (hf scope.workspaceId id).2) hs hloop
  exact ⟨⟨_, rfl⟩, hs', hall⟩

theorem makes_deleteConnection (id : Uuid) :
    Makes (deleteConnection now id) [((.connection, id), true)] := by
  have hedits : ∀ workspaceId, ∃ f : Uuid → StoreTx PUnit, ∀ id,
      Follows (editAndEnqueue now workspaceId (fun c => { c with deletedAt := some now }) .delete
        id) (f id) ∧ ∀ s s' u, s.Keyed → f id s = .ok (u, s') →
        s'.Keyed ∧
          Posted (.connection, id) (decide (Operation.delete = .delete)) s.books s'.books :=
    fun workspaceId => exists_follows_editAndEnqueue fun c _ => ⟨rfl, rfl⟩
  choose f hf using hedits
  refine makes_of_settles (Settles.bind (follows_statement _) fun _ => Settles.bind
    (follows_statement _) fun scope => Settles.first (follows_statement _) (Settles.bind
      (hf scope.workspaceId id).1 fun _ => settles_commit (.ok PUnit.unit))) fun s r s' hs h => ?_
  simp only [Tx.bind_eq_ok, Tx.pure_eq_ok, query_eq_ok] at h
  obtain ⟨_, _, ⟨-, rfl⟩, scope, _, ⟨-, rfl⟩, _, s₁, hedit, rfl, rfl⟩ := h
  obtain ⟨hs', hposted⟩ := (hf scope.workspaceId id).2 _ _ _ hs hedit
  exact ⟨⟨_, rfl⟩, hs', hposted.all⟩

theorem follows_dashboardWriter (pin : PinnedConnection) : ∃ m : StoreTx PUnit,
    Follows (dashboardWriter pin) m ∧ ∀ s s' u, m s = .ok (u, s') → s' = s := by
  refine ⟨_, (follows_statement _).bind fun _ => follows_statement _, fun s s' u h => ?_⟩
  simp only [Tx.bind_eq_ok, query_eq_ok] at h
  obtain ⟨_, _, ⟨-, rfl⟩, -, rfl⟩ := h
  rfl

/-- A dashboard is found by its id. -/
theorem find?_dashboard {l : List DashboardRow} (hnodup : (l.map (·.id)).Nodup) {d : DashboardRow}
    (hd : d ∈ l) : l.find? (fun d' => d'.id = d.id) = some d := by
  cases hfind : l.find? fun d' => d'.id = d.id with
  | none =>
      have hne := List.find?_eq_none.1 hfind d hd
      exact absurd (decide_eq_true rfl) hne
  | some d' =>
      have hsame : d'.id = d.id := by simpa using List.find?_some hfind
      rw [List.inj_on_of_nodup_map hnodup (List.mem_of_find?_eq_some hfind) hd hsame]

theorem makes_saveDashboardIfCurrent (id : Uuid) (pin : PinnedConnection)
    (draft : DashboardDraft) :
    Makes (saveDashboardIfCurrent id now pin draft) [((.dashboard, id), false)] := by
  obtain ⟨m, hwriter, hm⟩ := follows_dashboardWriter pin
  refine makes_of_settles (Settles.bind (follows_lift _) fun _ => Settles.first
    (follows_statement _) (Settles.bind hwriter fun _ => Settles.bind (follows_statement _) fun _ =>
      Settles.bind (follows_statement _) fun _ => settles_commit (.ok PUnit.unit)))
    fun s r s' hs h => ?_
  simp only [Tx.bind_eq_ok, Tx.lift_eq_ok, Tx.pure_eq_ok, update_eq_ok, enqueueOutbox_eq_ok,
    Except.map_eq_ok] at h
  obtain ⟨_, _, ⟨-, rfl⟩, _, s₁, hpinned, _, _, ⟨_, ⟨⟨row, db⟩, hsave, rfl⟩, rfl⟩, _, _, rfl, rfl,
    rfl⟩ := h
  obtain rfl : s = s₁ := (hm _ _ _ hpinned).symm
  obtain ⟨-, -, hworkspace, rfl⟩ := saveDashboardIfCurrent_spec hsave
  obtain ⟨rfl, hfirst, hnew⟩ := saveDashboardIfCurrent_new hsave
  have habsent : s.db.dashboards.find? (fun d => d.id = row.id) = none :=
    List.find?_eq_none.2 fun d hd => by simpa using hnew d hd
  have hmark : s.deletedDashboards.get row.id = none := by
    by_contra hsome
    obtain ⟨d, hd, hid⟩ := hs.deleted row.id hsome
    exact hnew d hd hid
  have hposted : Posted (.dashboard, row.id) (decide (Operation.upsert = .delete)) s.books
      (Tables.books { s with
        db := { s.db with dashboards := s.db.dashboards ++ [row] }
        outbox := s.outbox ++ [⟨pin.scope.workspaceId, .dashboard, row.id, .upsert, 1⟩] }) := by
    refine posted_dashboard .upsert row rfl ?_ (fun id hid => ?_) (fun _ _ => rfl) ?_
      (fun old hold => ?_) ?_ ?_
    · simp [habsent]
    · simp [Ne.symm hid]
    · rw [habsent, hfirst]
      rfl
    · rw [habsent] at hold
      cases hold
    · rw [hmark]
      rfl
    · rw [hworkspace, hfirst]
  refine ⟨⟨_, rfl⟩, ⟨?_, fun id hid => ?_⟩, hposted.all⟩
  · rw [List.map_append, List.nodup_append']
    refine ⟨hs.dashboards, List.nodup_singleton _, ?_⟩
    rintro id hid hrow
    obtain ⟨d, hd, rfl⟩ := List.mem_map.1 hid
    exact hnew d hd (by simpa using hrow)
  · obtain ⟨d, hd, heq⟩ := hs.deleted id hid
    exact ⟨d, List.mem_append_left _ hd, heq⟩

/-- Exactly one dashboard gets the mark of a deleted one. -/
theorem tombstoneDashboard_eq_ok {connection : PinnedConnection} {dashboardId : Uuid}
    {dashboardRevision revision : ℤ} (hs : s.Keyed)
    (h : tombstoneDashboard now connection dashboardId dashboardRevision s =
      .ok (some revision, s')) :
    ∃ d d', d ∈ s.db.dashboards ∧ d.id = dashboardId ∧ d.revision + 1 = revision ∧
      d.workspaceId = connection.scope.workspaceId ∧ d'.id = d.id ∧ d'.revision = d.revision + 1 ∧
      d'.workspaceId = d.workspaceId ∧
      s' = { s with
        db := { s.db with
          dashboards := s.db.dashboards.map fun x => if x.id = dashboardId then d' else x }
        deletedDashboards := s.deletedDashboards.put dashboardId now } := by
  rw [tombstoneDashboard, Tx.get_bind_eq_ok] at h
  cases hfind : s.db.dashboards.find? (s.pinned connection dashboardId dashboardRevision) with
  | none =>
    simp only [hfind] at h
    obtain ⟨h, -⟩ := Tx.pure_eq_ok.1 h
    cases h
  | some d =>
  simp only [hfind] at h
  rw [Tx.set_bind_eq_ok] at h
  obtain ⟨hrevision, rfl⟩ := Tx.pure_eq_ok.1 h
  obtain rfl := Option.some.inj hrevision
  have hmem := List.mem_of_find?_eq_some hfind
  have hpinned := List.find?_some hfind
  obtain ⟨hid, hworkspace, -, -, -⟩ := of_decide_eq_true hpinned
  refine ⟨d, { d with revision := d.revision + 1, syncStatus := "dirty", updatedAt := now }, hmem,
    hid, rfl, hworkspace, rfl, rfl, rfl, ?_⟩
  congr 2
  refine List.map_congr_left fun x hx => ?_
  by_cases hx' : x.id = dashboardId
  · obtain rfl := List.inj_on_of_nodup_map hs.dashboards hx hmem (hx'.trans hid.symm)
    rw [if_pos hpinned, if_pos hid]
  · rw [if_neg hx', if_neg]
    exact fun hx => hx' (of_decide_eq_true hx).1

theorem makes_deleteDashboardRevisionIfCurrent (connection : PinnedConnection) (dashboardId : Uuid)
    (dashboardRevision : ℤ) :
    Makes (deleteDashboardRevisionIfCurrent now connection dashboardId dashboardRevision)
      [((.dashboard, dashboardId), true)] := by
  obtain ⟨m, hwriter, hm⟩ := follows_dashboardWriter connection
  have hsettles : Settles
      (deleteDashboardRevisionIfCurrent now connection dashboardId dashboardRevision)
      (m >>= fun _ => tombstoneDashboard now connection dashboardId dashboardRevision >>= fun
        | none => throw dashboardScopeChanged
        | some revision =>
            enqueueOutbox connection.scope.workspaceId .dashboard dashboardId .delete revision >>=
              fun _ => pure (.ok ⟨⟩)) := by
    unfold deleteDashboardRevisionIfCurrent
    refine Settles.first (follows_statement _) (Settles.bind hwriter fun _ =>
      Settles.bind (follows_statement _) fun revision => ?_)
    cases revision with
    | none => exact settles_throw _
    | some revision =>
        exact Settles.bind (follows_statement _) fun _ => settles_commit (.ok PUnit.unit)
  refine makes_of_settles hsettles fun s r s' hs h => ?_
  obtain ⟨_, s₁, hpinned, h⟩ := Tx.bind_eq_ok.1 h
  obtain rfl : s = s₁ := (hm _ _ _ hpinned).symm
  obtain ⟨found, s₂, hfound, h⟩ := Tx.bind_eq_ok.1 h
  cases found with
  | none => exact (Tx.throw_eq_ok.1 h).elim
  | some revision =>
  simp only [Tx.bind_eq_ok, Tx.pure_eq_ok, enqueueOutbox_eq_ok] at h
  obtain ⟨_, _, rfl, rfl, rfl⟩ := h
  obtain ⟨d, d', hd, rfl, rfl, hworkspace, hid, hrevision, hplace, rfl⟩ :=
    tombstoneDashboard_eq_ok hs hfound
  have hfind := find?_dashboard hs.dashboards hd
  have hids : (s.db.dashboards.map fun x => if x.id = d.id then d' else x).map (·.id) =
      s.db.dashboards.map (·.id) := by
    rw [List.map_map]
    refine List.map_congr_left fun x _ => ?_
    rw [Function.comp_apply]
    split
    · rename_i hx
      exact hid.trans hx.symm
    · rfl
  have hd' : d' ∈ s.db.dashboards.map fun x => if x.id = d.id then d' else x :=
    List.mem_map.2 ⟨d, hd, if_pos rfl⟩
  refine ⟨⟨_, rfl⟩, ⟨hids ▸ hs.dashboards, fun id hmark => ?_⟩, Posted.all ?_⟩
  · by_cases heq : id = d.id
    · exact ⟨d', hd', hid.trans heq.symm⟩
    · dsimp only at hmark
      rw [Table.get_put_of_ne _ _ heq] at hmark
      obtain ⟨x, hx, rfl⟩ := hs.deleted id hmark
      exact ⟨x, List.mem_map.2 ⟨x, hx, if_neg heq⟩, rfl⟩
  · refine posted_dashboard .delete d' rfl ?_ (fun id hne => ?_)
      (fun id hne => Table.get_put_of_ne _ _ hne) ?_ (fun old hold => ?_) ?_ ?_
    · have hkey := find?_dashboard (hids ▸ hs.dashboards) hd'
      rwa [hid] at hkey
    · -- The other dashboards are found as before.
      have hsame : ((fun x : DashboardRow => decide (x.id = id)) ∘
          fun x => if x.id = d.id then d' else x) = fun x => decide (x.id = id) := by
        funext x
        rw [Function.comp_apply]
        by_cases hx : x.id = d.id
        · rw [if_pos hx, hid, hx]
        · rw [if_neg hx]
      dsimp only
      rw [List.find?_map, hsame]
      cases hother : s.db.dashboards.find? fun x => x.id = id with
      | none => rfl
      | some x =>
          have hx : x.id = id := by simpa using List.find?_some hother
          rw [Option.map_some, if_neg (hx ▸ hne)]
    · rw [hfind, hrevision]
      rfl
    · rw [hfind] at hold
      cases hold
      exact hplace.symm
    · dsimp only
      rw [Table.get_put_self]
      rfl
    · rw [hplace, hworkspace, hrevision]

end

/-! ### Runs -/

/-- A call, with the times and ids it reads. -/
inductive ResourceCall
  | upsertConnection (now : DateTime) (p : ConnectionProfile)
  | setConnectionsSchemaGroup (now : DateTime) (ids : List Uuid) (schemaGroup : Option String)
  | deleteConnection (now : DateTime) (id : Uuid)
  | saveDashboardIfCurrent (id : Uuid) (now : DateTime) (pin : PinnedConnection)
      (draft : DashboardDraft)
  | deleteDashboardRevisionIfCurrent (now : DateTime) (connection : PinnedConnection)
      (dashboardId : Uuid) (dashboardRevision : ℤ)

namespace ResourceCall

/-- Whether a call went through, and what it leaves; any of its statements may fail. -/
def perform (call : ResourceCall) (faults : List (Option AppError)) (s : Tables) :
    AppResult PUnit × Tables :=
  match call with
  | .upsertConnection now p =>
      let (answer, s) := SessionM.perform (Outbox.upsertConnection now p) faults s
      (answer.map fun _ => ⟨⟩, s)
  | .setConnectionsSchemaGroup now ids schemaGroup =>
      SessionM.perform (Outbox.setConnectionsSchemaGroup now ids schemaGroup) faults s
  | .deleteConnection now id => SessionM.perform (Outbox.deleteConnection now id) faults s
  | .saveDashboardIfCurrent id now pin draft =>
      SessionM.perform (Outbox.saveDashboardIfCurrent id now pin draft) faults s
  | .deleteDashboardRevisionIfCurrent now connection id revision =>
      SessionM.perform (Outbox.deleteDashboardRevisionIfCurrent now connection id revision) faults s

/-- The changes a call makes if it goes through, and whether they delete. -/
def changes : ResourceCall → List (Resource × Bool)
  | .upsertConnection _ p => [((.connection, p.id), false)]
  | .setConnectionsSchemaGroup _ ids _ => ids.map fun id => ((.connection, id), false)
  | .deleteConnection _ id => [((.connection, id), true)]
  | .saveDashboardIfCurrent id _ _ _ => [((.dashboard, id), false)]
  | .deleteDashboardRevisionIfCurrent _ _ id _ => [((.dashboard, id), true)]

/-- A call makes its changes and goes through, or fails and leaves the tables. -/
theorem perform_cases (call : ResourceCall) (faults : List (Option AppError)) {s : Tables}
    (hs : s.Keyed) :
    (∃ s', call.perform faults s = (.ok ⟨⟩, s') ∧ s'.Keyed ∧
      PostedAll call.changes s.books s'.books) ∨
    ∃ e, call.perform faults s = (.error e, s) := by
  cases call with
  | upsertConnection now p =>
      obtain ⟨a, s', h, hmade⟩ | ⟨e, h⟩ := makes_upsertConnection now p faults s hs
      · exact .inl ⟨s', by rw [perform, h]; rfl, hmade⟩
      · exact .inr ⟨e, by rw [perform, h]; rfl⟩
  | setConnectionsSchemaGroup now ids schemaGroup =>
      obtain ⟨a, s', h, hmade⟩ | h := makes_setConnectionsSchemaGroup ids schemaGroup faults s hs
      · exact .inl ⟨s', h, hmade⟩
      · exact .inr h
  | deleteConnection now id =>
      obtain ⟨a, s', h, hmade⟩ | h := makes_deleteConnection id faults s hs
      · exact .inl ⟨s', h, hmade⟩
      · exact .inr h
  | saveDashboardIfCurrent id now pin draft =>
      obtain ⟨a, s', h, hmade⟩ | h := makes_saveDashboardIfCurrent id pin draft faults s hs
      · exact .inl ⟨s', h, hmade⟩
      · exact .inr h
  | deleteDashboardRevisionIfCurrent now connection id revision =>
      obtain ⟨a, s', h, hmade⟩ | h :=
        makes_deleteDashboardRevisionIfCurrent connection id revision faults s hs
      · exact .inl ⟨s', h, hmade⟩
      · exact .inr h

end ResourceCall

/-- A move of a run: a call, or whatever else happens to the store that leaves the resources and
the outbox. -/
inductive Move
  | call (call : ResourceCall) (faults : List (Option AppError))
  | elsewhere (db : Database)

def Move.apply (s : Tables) : Move → Tables
  | .call made faults => (made.perform faults s).2
  | .elsewhere db =>
      { s with db := { db with connections := s.db.connections, dashboards := s.db.dashboards } }

/-- A store without resources. -/
structure Tables.Empty (s : Tables) : Prop where
  connections : ∀ id, s.db.connections.get id = none
  dashboards : s.db.dashboards = []
  deleted : ∀ id, s.deletedDashboards.get id = none
  outbox : s.outbox = []

/-- The outbox and the resources agree. -/
structure Tables.Booked (s : Tables) : Prop where
  keyed : s.Keyed
  consistent : Consistent s.books

theorem Tables.Empty.booked {s : Tables} (h : s.Empty) : s.Booked := by
  have hbooks : s.books = ⟨fun _ => none, []⟩ := by
    rw [Tables.books, h.outbox, List.map_nil]
    congr 1
    funext ⟨type, id⟩
    cases type with
    | connection => exact (head_connection s id).trans (by rw [h.connections, Option.map_none])
    | dashboard => exact (head_dashboard s id).trans (by rw [h.dashboards]; rfl)
  refine ⟨⟨?_, fun id hid => absurd (h.deleted id) hid⟩, ?_⟩
  · rw [h.dashboards]
    exact List.nodup_nil
  · rw [hbooks]
    exact consistent_empty

theorem Tables.Booked.apply {s : Tables} (h : s.Booked) (move : Move) : (move.apply s).Booked := by
  cases move with
  | elsewhere db => exact ⟨h.keyed.of_eq rfl rfl, h.consistent⟩
  | call call faults =>
      obtain ⟨s', hcall, hkeyed, hposted⟩ | ⟨e, hcall⟩ := call.perform_cases faults h.keyed
      · rw [Move.apply, hcall]
        exact ⟨hkeyed, hposted.consistent h.consistent⟩
      · rw [Move.apply, hcall]
        exact h

theorem Tables.Booked.foldl {s : Tables} (h : s.Booked) (moves : List Move) :
    (moves.foldl Move.apply s).Booked := by
  induction moves generalizing s with
  | nil => exact h
  | cons move moves ih => exact ih (h.apply move)

/-- **The outbox.** After any run from an empty store the rows of a resource are numbered from 1 to
its revision, are of its workspace, and the last one is a deletion exactly when the resource is
deleted. A further call that goes through appends one row for each change it makes, and a call that
fails leaves everything as it is. -/
theorem outbox_run (moves : List Move) {s : Tables} (hs : s.Empty) :
    let s' := moves.foldl Move.apply s
    Consistent s'.books ∧ ∀ (call : ResourceCall) (faults : List (Option AppError)),
      (∀ s'', call.perform faults s' = (.ok ⟨⟩, s'') → ∃ rows, s''.outbox = s'.outbox ++ rows ∧
        Recorded call.changes s'.books s''.books (rows.map OutboxRow.entry)) ∧
      ∀ e s'', call.perform faults s' = (.error e, s'') → s'' = s' := by
  intro s'
  have hbooked : s'.Booked := hs.booked.foldl moves
  refine ⟨hbooked.consistent, fun call faults => ?_⟩
  obtain ⟨s₁, hcall, -, hposted⟩ | ⟨e, hcall⟩ := call.perform_cases faults hbooked.keyed
  · refine ⟨fun s'' h => ?_, fun e s'' h => ?_⟩
    · rw [hcall] at h
      obtain rfl := (Prod.mk.inj h).2
      obtain ⟨entries, hlog, hrecorded⟩ := hposted.recorded
      obtain ⟨old, rows, houtbox, hold, rfl⟩ := List.map_eq_append_iff.1 hlog
      obtain rfl := List.map_injective_iff.2 entry_injective hold
      exact ⟨rows, houtbox, hrecorded⟩
    · rw [hcall] at h
      cases (Prod.mk.inj h).1
  · refine ⟨fun s'' h => ?_, fun e' s'' h => ?_⟩
    · rw [hcall] at h
      cases (Prod.mk.inj h).1
    · rw [hcall] at h
      exact (Prod.mk.inj h).2.symm

/-- An account's connection on a host. -/
def sampleConnection (n : UInt8) : ConnectionProfile :=
  ⟨.ofByte n, "Warehouse", .postgres, .auto, none, "localhost", 5432, "app", "", "prefer", "{}",
    true, false, none, none, none, .local_, .local_⟩

/-- A connection is saved, moved to a group twice at once, deleted at the second attempt, and saved
again. -/
def sampleMoves : List Move :=
  [.call (.upsertConnection (.ofDay 1) (sampleConnection 3)) [],
    .call (.setConnectionsSchemaGroup (.ofDay 2) [.ofByte 3, .ofByte 3] (some "sales")) [],
    .call (.deleteConnection (.ofDay 3) (.ofByte 3)) [none, none, none, none, some (.db "busy")],
    .call (.deleteConnection (.ofDay 3) (.ofByte 3)) []]

theorem sampleMoves_booked :
    let s' := sampleMoves.foldl Move.apply ⟨freshStore (.ofDay 0), .empty, []⟩
    s'.outbox.map (fun row => (row.operation, row.revision)) =
        [(.upsert, 1), (.upsert, 2), (.upsert, 3), (.delete, 4)] ∧
      Consistent s'.books :=
  ⟨by decide +kernel, (outbox_run sampleMoves ⟨fun _ => rfl, rfl, fun _ => rfl, rfl⟩).1⟩

end Outbox
end Store
end AgentDb
