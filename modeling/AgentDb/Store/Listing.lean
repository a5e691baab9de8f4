import AgentDb.Store.Pins
import AgentDb.Store.Safety

/-!
# Reading the active scope: `store/mod.rs`

`list_connections` reads the active workspace, then the selected account, then the rows.
`SharesConnection` relates two databases that agree on the active scope and on one connection;
whatever is read of that connection is the same in both.
-/

namespace AgentDb
namespace Store

namespace Database

variable (db : Database)

/-- `active_workspace`. -/
def activeWorkspaceRow : AppResult (Uuid × Workspace) :=
  match db.usableWorkspace with
  | none => .error (.config "no active workspace is configured")
  | some workspace => .ok workspace

/-- The rows `list_connections` asks for, `ORDER BY c.name`. -/
def connectionRows (workspaceId : Uuid) (workspace : Workspace) (account : Option UserId) :
    List ConnectionProfile :=
  ((db.connections.rows.filter fun r => r.2.visible workspaceId workspace account).map fun r =>
    r.2.withBinding (db.binding r.1 account)).insertionSort fun p q => p.name ≤ q.name

/-- `list_connections`. -/
def listConnections : AppResult (List ConnectionProfile) := do
  let (workspaceId, workspace) ← db.activeWorkspaceRow
  let account := db.activeAccountId
  refuseIf (workspace.kind = .team ∧ account = none)
    (.config "a team workspace has no active authenticated account")
  pure (db.connectionRows workspaceId workspace account)

/-- Every connection is stored under its own id, the primary key of the table. -/
def Keyed : Prop := ∀ r ∈ db.connections.rows, r.2.id = r.1

end Database

/-! ### A pinned connection is listed -/

section

variable {db : Database} {id : Uuid} {r : ScopedConnection} {pin : PinnedConnection}

@[simp] theorem Connection.withBinding_id (c : Connection) (binding : Option Binding) :
    (c.withBinding binding).id = c.id := by
  unfold Connection.withBinding
  split
  · rfl
  · dsimp only
    split <;> rfl

theorem Database.Keyed.id_of_get (h : db.Keyed) {c : Connection}
    (hc : db.connections.get id = some c) : c.id = id := h _ (Table.mem_rows_iff.2 hc)

/-- The profile of a pin has the id the pin was asked for. -/
theorem profile_id_of_pin {requireRead : Bool} (h : db.Keyed)
    (hpin : db.pinConnectionWithAccess id requireRead = .ok pin) : pin.profile.id = id := by
  obtain ⟨r, hof⟩ := pinConnectionWithAccess_spec hpin
  rw [hof.profile, Connection.withBinding_id]
  exact h.id_of_get (scopedConnection_spec hof.resolved).connection

theorem scopeValid_of_scopedConnection (h : db.scopedConnection id = some r) :
    db.scopeValid r.workspaceId db.activeAccountId = true := by
  unfold Database.scopedConnection at h
  split at h
  · split at h
    · split at h
      · rename_i hvisible
        obtain rfl := Option.some.inj h
        exact hvisible.1
      · cases h
    · cases h
  · cases h

/-- A connection that is seen in the active scope is seen in a scope that is listed. -/
theorem listConnections_of_scoped (h : db.scopedConnection id = some r) :
    db.listConnections = .ok (db.connectionRows r.workspaceId r.workspace db.activeAccountId) := by
  have hof := scopedConnection_spec h
  have hvalid := scopeValid_of_scopedConnection h
  have husable : db.usableWorkspace = some (r.workspaceId, r.workspace) := by
    simp [Database.usableWorkspace, hof.workspaceId, hof.workspace, hvalid, Option.filter]
  have haccount : ¬ (r.workspace.kind = .team ∧ db.activeAccountId = none) := by
    rintro ⟨hteam, hnone⟩
    rw [Database.scopeValid, hof.workspace, hnone] at hvalid
    simp [hteam] at hvalid
  unfold Database.listConnections Database.activeWorkspaceRow
  rw [husable]
  show (refuseIf _ _ >>= _) = _
  rw [refuseIf, if_neg haccount]
  rfl

theorem mem_connectionRows_of_scoped (h : db.scopedConnection id = some r) :
    r.connection.withBinding (db.binding id db.activeAccountId) ∈
      db.connectionRows r.workspaceId r.workspace db.activeAccountId := by
  have hof := scopedConnection_spec h
  refine ((List.perm_insertionSort _ _).mem_iff).2 (List.mem_map.2 ⟨(id, r.connection), ?_, rfl⟩)
  exact List.mem_filter.2 ⟨Table.mem_rows_iff.2 hof.connection, hof.visible⟩

/-- No connection is listed twice. -/
theorem nodup_ids_connectionRows (h : db.Keyed) (workspaceId : Uuid) (workspace : Workspace)
    (account : Option UserId) :
    ((db.connectionRows workspaceId workspace account).map (·.id)).Nodup := by
  have hperm := (List.perm_insertionSort (fun p q : ConnectionProfile => p.name ≤ q.name)
    ((db.connections.rows.filter fun r => r.2.visible workspaceId workspace account).map fun r =>
      r.2.withBinding (db.binding r.1 account))).map (·.id)
  refine hperm.nodup_iff.2 ?_
  rw [List.map_map]
  have hids : (db.connections.rows.filter fun r => r.2.visible workspaceId workspace account).map
      ((·.id) ∘ fun r => r.2.withBinding (db.binding r.1 account)) =
      (db.connections.rows.filter fun r => r.2.visible workspaceId workspace account).map
        Prod.fst := by
    refine List.map_congr_left fun row hrow => ?_
    rw [Function.comp_apply, Connection.withBinding_id]
    exact h row (List.mem_filter.1 hrow).1
  rw [hids]
  exact (List.filter_sublist.map Prod.fst).nodup db.connections.nodup

end

/-! ### One connection in two databases -/

/-- The databases agree on the active scope and on everything of the connection `id`. -/
structure SharesConnection (id : Uuid) (db db' : Database) : Prop where
  activeWorkspaceId : db.activeWorkspaceId = db'.activeWorkspaceId
  activeAccountId : db.activeAccountId = db'.activeAccountId
  generation : db.generation = db'.generation
  workspaces : db.workspaces = db'.workspaces
  members : db.members = db'.members
  connection : db.connections.get id = db'.connections.get id
  bindings : ∀ user, db.bindings.get (id, user) = db'.bindings.get (id, user)
  safety : db.safety.get id = db'.safety.get id
  catalogs : ∀ workspaceId account,
    db.catalogs.get (workspaceId, account, id) = db'.catalogs.get (workspaceId, account, id)
  legacyCatalogs : ∀ account, (id, account) ∈ db.legacyCatalogs ↔ (id, account) ∈ db'.legacyCatalogs

namespace SharesConnection

variable {id : Uuid} {db db' : Database} {pin : PinnedConnection}

theorem activeWorkspace (h : SharesConnection id db db') (workspaceId : Uuid) :
    db.activeWorkspace workspaceId = db'.activeWorkspace workspaceId := by
  rw [Database.activeWorkspace, Database.activeWorkspace, h.workspaces]

theorem scopeValid (h : SharesConnection id db db') (workspaceId : Uuid)
    (account : Option UserId) :
    db.scopeValid workspaceId account = db'.scopeValid workspaceId account := by
  unfold Database.scopeValid Database.activeMember
  rw [h.activeWorkspace, h.members]

theorem usableWorkspace (h : SharesConnection id db db') :
    db.usableWorkspace = db'.usableWorkspace := by
  unfold Database.usableWorkspace
  simp only [h.activeWorkspaceId, h.activeWorkspace, h.scopeValid, h.activeAccountId]

theorem activeResourceScope (h : SharesConnection id db db') :
    db.activeResourceScope = db'.activeResourceScope := by
  unfold Database.activeResourceScope
  simp only [h.activeWorkspaceId, h.generation, h.activeWorkspace, h.scopeValid, h.activeAccountId]

theorem binding (h : SharesConnection id db db') :
    db.binding id db.activeAccountId = db'.binding id db'.activeAccountId := by
  unfold Database.binding
  rw [h.activeAccountId]
  cases db'.activeAccountId with
  | none => rfl
  | some user => exact h.bindings user

theorem scopedConnection (h : SharesConnection id db db') :
    db.scopedConnection id = db'.scopedConnection id := by
  unfold Database.scopedConnection
  simp only [h.activeWorkspaceId, h.generation, h.connection, h.activeWorkspace, h.scopeValid,
    h.activeAccountId]

/-- The connection is pinned alike. -/
theorem pinConnectionWithAccess (h : SharesConnection id db db') (requireRead : Bool) :
    db.pinConnectionWithAccess id requireRead = db'.pinConnectionWithAccess id requireRead := by
  unfold Database.pinConnectionWithAccess
  rw [h.scopedConnection, h.binding, h.activeResourceScope]

/-- A pin of the connection is current in both, or in neither. -/
theorem isPinCurrentWithAccess (h : SharesConnection id db db') (hpin : pin.connectionId = id)
    (allowView : Bool) :
    db.isPinCurrentWithAccess pin allowView = db'.isPinCurrentWithAccess pin allowView := by
  unfold Database.isPinCurrentWithAccess Database.accountScopeKey
  rw [hpin, h.scopedConnection, h.binding, h.activeAccountId]

theorem getConnection (h : SharesConnection id db db') :
    db.getConnection id = db'.getConnection id := by
  unfold Database.getConnection
  simp only [h.usableWorkspace, h.connection, h.binding]
  rw [h.activeAccountId]

theorem getSafety (h : SharesConnection id db db') : db.getSafety id = db'.getSafety id := by
  unfold Database.getSafety
  rw [h.getConnection, h.safety]

variable {sha256 : List UInt8 → Vector UInt8 32}

theorem getCatalogIfCurrent (h : SharesConnection id db db') (hpin : pin.connectionId = id) :
    Store.getCatalogIfCurrent sha256 pin db = Store.getCatalogIfCurrent sha256 pin db' := by
  unfold Store.getCatalogIfCurrent PinnedConnection.catalogKey
  rw [hpin]
  simp only [h.catalogs, h.legacyCatalogs, h.isPinCurrentWithAccess hpin]

/-- Whether a catalog of the connection is stored is the same in both. -/
theorem putCatalogIfCurrent (h : SharesConnection id db db') (hpin : pin.connectionId = id)
    (snapshot : Protocol.CatalogSnapshot) :
    (Store.putCatalogIfCurrent sha256 pin snapshot db).map Prod.fst =
      (Store.putCatalogIfCurrent sha256 pin snapshot db').map Prod.fst := by
  unfold Store.putCatalogIfCurrent
  rw [h.isPinCurrentWithAccess hpin]
  split
  · rfl
  · split
    · rfl
    · split
      · rfl
      · split <;> rfl

end SharesConnection

end Store
end AgentDb
