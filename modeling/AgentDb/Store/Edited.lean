import AgentDb.Store.ConnectionRun
import AgentDb.Store.Listing

/-!
# What an edit leaves of each connection

For each operation on `connections` and bindings, the rows it leaves: an upsert leaves one row with
the given profile, a group or a deletion one field of rows that were not deleted, the credentials of
an account one binding. All other rows stay.
-/

namespace AgentDb
namespace Store

/-- The account that owns the local connections of a workspace. -/
def Database.ownerAccount (db : Database) (workspace : Workspace) : Option UserId :=
  if workspace.kind = .team then db.activeAccountId else none

/-! ### An upsert -/

/-- What an upsert finds and leaves. -/
structure Upserted (p : ConnectionProfile) (db db' : Database) (workspaceId : Uuid)
    (workspace : Workspace) (row : Connection) : Prop where
  usable : db.usableWorkspace = some (workspaceId, workspace)
  account : workspace.kind = .team → db.activeAccountId ≠ none
  local_ : p.workspaceAccess = .local_
  mode : p.credentialMode = .local_
  before : ∀ c, db.connections.get p.id = some c →
    c.workspaceId = workspaceId ∧ c.accountUserId = db.ownerAccount workspace ∧ c.remote = false
  profile : row.toConnectionProfile = p
  workspaceId : row.workspaceId = workspaceId
  owner : row.accountUserId = db.ownerAccount workspace
  remote : row.remote = false
  deletedAt : row.deletedAt = none
  revision : row.revision = (db.connections.get p.id).elim 1 fun c => c.revision + 1
  connections : db'.connections = db.connections.put p.id row
  bindings : db'.bindings = db.bindings
  authority : KeepsAuthority db db'
  dashboards : db'.dashboards = db.dashboards

theorem upsertConnection_spec {now : DateTime} {p : ConnectionProfile} {db db' : Database}
    (h : upsertConnection now p db = .ok db') :
    ∃ workspaceId workspace row, Upserted p db db' workspaceId workspace row := by
  simp only [upsertConnection, Except.bind_eq_ok, refuseIf_eq_ok, not_not] at h
  obtain ⟨-, hlocal, -, hmode, h⟩ := h
  split at h
  · cases h
  rename_i workspaceId workspace husable
  simp only [Except.bind_eq_ok, refuseIf_eq_ok] at h
  obtain ⟨-, haccount, h⟩ := h
  have hteam : workspace.kind = .team → db.activeAccountId ≠ none := fun hkind hnone =>
    haccount ⟨hkind, by rw [if_pos hkind, hnone]⟩
  split at h
  case h_1 hnone =>
    obtain rfl := Except.pure_eq_ok.1 h
    refine ⟨workspaceId, workspace,
      ⟨p, workspaceId, db.ownerAccount workspace, false, 1, "dirty", none, now, now⟩, ?_⟩
    exact {
      usable := husable, account := hteam, local_ := hlocal, mode := hmode
      before := fun c hc => by rw [hnone] at hc; cases hc
      profile := rfl, workspaceId := rfl, owner := rfl, remote := rfl, deletedAt := rfl
      revision := by rw [hnone]; rfl
      connections := rfl, bindings := rfl, authority := ⟨rfl, rfl, rfl, rfl, rfl, rfl⟩
      dashboards := rfl }
  case h_2 c hc =>
    simp only [Except.bind_eq_ok, refuseIf_eq_ok, not_or, not_not] at h
    obtain ⟨-, ⟨hworkspace, howner, hremote⟩, h⟩ := h
    obtain rfl := Except.pure_eq_ok.1 h
    have hlocal' : c.remote = false := by simpa using hremote
    refine ⟨workspaceId, workspace, { c with
      toConnectionProfile := p
      revision := c.revision + 1
      syncStatus := "dirty"
      deletedAt := none
      updatedAt := now }, ?_⟩
    exact {
      usable := husable, account := hteam, local_ := hlocal, mode := hmode
      before := fun c' hc' => by
        rw [hc] at hc'
        cases hc'
        exact ⟨hworkspace, howner, hlocal'⟩
      profile := rfl, workspaceId := hworkspace, owner := howner, remote := hlocal'
      deletedAt := rfl
      revision := by rw [hc]; rfl
      connections := rfl, bindings := rfl, authority := ⟨rfl, rfl, rfl, rfl, rfl, rfl⟩
      dashboards := rfl }

/-- Writing a row under its own id keeps every row under its own id. -/
theorem Database.Keyed.of_put {db db' : Database} (h : db.Keyed) {id : Uuid} {row : Connection}
    (hput : db'.connections = db.connections.put id row) (hrow : row.id = id) : db'.Keyed := by
  rintro ⟨id', c⟩ hmem
  have hget := Table.mem_rows_iff.1 (hput ▸ hmem)
  rw [Table.get_put] at hget
  split at hget
  · rename_i heq
    cases hget
    exact hrow.trans heq.symm
  · exact h.id_of_get hget

/-! ### Edits of rows -/

/-- The row an edit leaves. -/
def Connection.edited (now : DateTime) (edit : Connection → Connection) (c : Connection) :
    Connection :=
  { edit c with
    revision := c.revision + 1
    syncStatus := "dirty"
    updatedAt := now }

/-- An edit counts itself on one row that was not deleted. -/
theorem editConnection_spec {now : DateTime} {workspaceId : Uuid} {edit : Connection → Connection}
    {db db' : Database} {id : Uuid} (h : editConnection now workspaceId edit db id = .ok db') :
    ∃ c, db.connections.get id = some c ∧ c.workspaceId = workspaceId ∧ c.deletedAt = none ∧
      db' = { db with connections := db.connections.put id (c.edited now edit) } := by
  unfold editConnection at h
  split at h
  · cases h
  · rename_i c hc
    obtain ⟨hget, hcondition⟩ := Option.filter_eq_some_iff.1 hc
    obtain ⟨hworkspace, hdeleted⟩ := of_decide_eq_true hcondition
    exact ⟨c, hget, hworkspace, hdeleted, (Except.ok.inj h).symm⟩

/-- The row has another group, and is otherwise the same to its readers. -/
structure Regrouped (schemaGroup : Option String) (c c' : Connection) : Prop where
  profile : c'.toConnectionProfile = { c.toConnectionProfile with schemaGroup }
  workspaceId : c'.workspaceId = c.workspaceId
  accountUserId : c'.accountUserId = c.accountUserId
  remote : c'.remote = c.remote
  deletedAt : c'.deletedAt = c.deletedAt

theorem Regrouped.trans {schemaGroup : Option String} {a b c : Connection}
    (h₁ : Regrouped schemaGroup a b) (h₂ : Regrouped schemaGroup b c) :
    Regrouped schemaGroup a c where
  profile := by rw [h₂.profile, h₁.profile]
  workspaceId := h₂.workspaceId.trans h₁.workspaceId
  accountUserId := h₂.accountUserId.trans h₁.accountUserId
  remote := h₂.remote.trans h₁.remote
  deletedAt := h₂.deletedAt.trans h₁.deletedAt

/-- The rows of some ids have another group, and no other row is another one. -/
structure RegroupedAll (schemaGroup : Option String) (ids : List Uuid) (db db' : Database) :
    Prop where
  authority : KeepsAuthority db db'
  bindings : db'.bindings = db.bindings
  other : ∀ id, id ∉ ids → db'.connections.get id = db.connections.get id
  row : ∀ id ∈ ids, ∃ c c', db.connections.get id = some c ∧ db'.connections.get id = some c' ∧
    Regrouped schemaGroup c c'

theorem regroupedAll_foldlM {now : DateTime} {workspaceId : Uuid} {schemaGroup : Option String}
    {ids : List Uuid} {db db' : Database}
    (h : ids.foldlM (editConnection now workspaceId fun c => { c with schemaGroup }) db = .ok db') :
    RegroupedAll schemaGroup ids db db' := by
  induction ids generalizing db with
  | nil =>
      obtain rfl := Except.pure_eq_ok.1 h
      exact ⟨.refl db, rfl, fun _ _ => rfl, fun _ hid => by cases hid⟩
  | cons first ids ih =>
      rw [List.foldlM_cons, Except.bind_eq_ok] at h
      obtain ⟨db₁, h₁, h⟩ := h
      obtain ⟨c, hc, -, -, rfl⟩ := editConnection_spec h₁
      have hrest := ih h
      refine ⟨KeepsAuthority.trans (b := { db with
          connections := db.connections.put first (c.edited now _) })
        ⟨rfl, rfl, rfl, rfl, rfl, rfl⟩ hrest.authority, hrest.bindings,
        fun id hid => ?_, fun id hid => ?_⟩
      · obtain ⟨hne, hrestid⟩ := not_or.1 (mt List.mem_cons.2 hid)
        rw [hrest.other id hrestid]
        exact Table.get_put_of_ne _ _ hne
      · have hfirst : Regrouped schemaGroup c
            (c.edited now fun c => { c with schemaGroup }) := ⟨rfl, rfl, rfl, rfl, rfl⟩
        by_cases heq : id = first
        · subst heq
          by_cases hagain : id ∈ ids
          · obtain ⟨c₁, c', hc₁, hc', hre⟩ := hrest.row id hagain
            rw [Table.get_put_self] at hc₁
            cases hc₁
            exact ⟨c, c', hc, hc', hfirst.trans hre⟩
          · exact ⟨c, _, hc, (hrest.other id hagain).trans (Table.get_put_self _ _ _), hfirst⟩
        · obtain ⟨c₁, c', hc₁, hc', hre⟩ := hrest.row id ((List.mem_cons.1 hid).resolve_left heq)
          rw [Table.get_put_of_ne _ _ heq] at hc₁
          exact ⟨c₁, c', hc₁, hc', hre⟩

theorem setConnectionsSchemaGroup_spec {now : DateTime} {ids : List Uuid}
    {schemaGroup : Option String} {db db' : Database}
    (h : setConnectionsSchemaGroup now ids schemaGroup db = .ok db') :
    RegroupedAll schemaGroup ids db db' := by
  simp only [setConnectionsSchemaGroup, Except.bind_eq_ok] at h
  obtain ⟨_, -, _, -, h⟩ := h
  exact regroupedAll_foldlM h

/-- A deletion leaves a tombstone of a row that was not deleted. -/
theorem deleteConnection_spec {now : DateTime} {id : Uuid} {db db' : Database}
    (h : deleteConnection now id db = .ok db') :
    ∃ c c', db.connections.get id = some c ∧ c.deletedAt = none ∧ c'.deletedAt = some now ∧
      c'.toConnectionProfile = c.toConnectionProfile ∧ c'.remote = c.remote ∧
      db' = { db with connections := db.connections.put id c' } := by
  simp only [deleteConnection, Except.bind_eq_ok] at h
  obtain ⟨_, -, _, -, h⟩ := h
  obtain ⟨c, hc, -, hdeleted, rfl⟩ := editConnection_spec h
  exact ⟨c, c.edited now fun c => { c with deletedAt := some now }, hc, hdeleted, rfl, rfl, rfl,
    rfl⟩

/-- A dashboard is saved under an id that no dashboard has, as its first revision. -/
theorem saveDashboardIfCurrent_new {id : Uuid} {now : DateTime} {pin : PinnedConnection}
    {draft : DashboardDraft} {row : DashboardRow} {db db' : Database}
    (h : saveDashboardIfCurrent id now pin draft db = .ok (row, db')) :
    row.id = id ∧ row.revision = 1 ∧ ∀ d ∈ db.dashboards, d.id ≠ id := by
  unfold saveDashboardIfCurrent at h
  split at h
  · cases h
  split at h
  · cases h
  split at h
  · cases h
  split at h
  · cases h
  rename_i hnew
  obtain ⟨rfl, rfl⟩ := Prod.mk.inj (Except.ok.inj h)
  refine ⟨rfl, rfl, fun d hd heq => hnew ?_⟩
  exact List.any_eq_true.2 ⟨d, hd, decide_eq_true heq⟩

/-! ### A binding -/

/-- Saving the credentials of an account leaves one binding with them. -/
theorem bindConnectionCredentials_spec {now : DateTime} {id : Uuid} {user : UserId}
    {username extraParams : String} {secretRef : Option String} {db db' : Database}
    (h : bindConnectionCredentials now id user username extraParams secretRef db = .ok db') :
    ∃ b : Binding, b.secretRef = secretRef ∧
      (b.workspaceAccess = .view ∨ ∃ old, db.bindings.get (id, user) = some old ∧
        b.workspaceAccess = old.workspaceAccess) ∧
      (∀ key, db'.bindings.get key =
        if key = (id, user) then some b else db.bindings.get key) ∧
      db' = { db with bindings := db'.bindings } := by
  unfold bindConnectionCredentials at h
  split at h
  · cases h
  rename_i c hc
  simp only [Except.bind_eq_ok] at h
  obtain ⟨-, -, -, -, h⟩ := h
  obtain rfl := Except.pure_eq_ok.1 h
  have hget : ∀ key new onConflict, (db.bindings.upsert (id, user) new onConflict).get key =
      if key = (id, user) then some ((db.bindings.get (id, user)).elim new onConflict)
      else db.bindings.get key := fun key new onConflict => Table.get_upsert _ _ _ _ _
  refine ⟨_, ?_, ?_, fun key => hget key _ _, rfl⟩
  · cases db.bindings.get (id, user) with
    | none => rfl
    | some old =>
        change (boundBinding now (trim username) extraParams secretRef old).secretRef = secretRef
        unfold boundBinding
        split
        · rfl
        · rename_i hsame
          simp only [not_or, not_not] at hsame
          exact hsame.2.2
  · cases db.bindings.get (id, user) with
    | none => exact .inl rfl
    | some old =>
        refine .inr ⟨old, rfl, ?_⟩
        change (boundBinding now (trim username) extraParams secretRef old).workspaceAccess = _
        unfold boundBinding
        split <;> rfl

/-! ### Listed connections -/

/-- A profile is listed when it is shown of a row that is visible. -/
theorem mem_connectionRows {db : Database} {workspaceId : Uuid} {workspace : Workspace}
    {account : Option UserId} {p : ConnectionProfile} :
    p ∈ db.connectionRows workspaceId workspace account ↔
      ∃ id c, db.connections.get id = some c ∧ c.visible workspaceId workspace account = true ∧
        p = c.withBinding (db.binding id account) := by
  rw [Database.connectionRows, (List.perm_insertionSort _ _).mem_iff, List.mem_map]
  constructor
  · rintro ⟨⟨id, c⟩, hrow, rfl⟩
    obtain ⟨hmem, hvisible⟩ := List.mem_filter.1 hrow
    exact ⟨id, c, Table.mem_rows_iff.1 hmem, hvisible, rfl⟩
  · rintro ⟨id, c, hget, hvisible, rfl⟩
    exact ⟨(id, c), List.mem_filter.2 ⟨Table.mem_rows_iff.2 hget, hvisible⟩, rfl⟩

/-- The listing goes through in a scope, and lists its rows. -/
theorem listConnections_eq_ok {db : Database} {l : List ConnectionProfile} :
    db.listConnections = .ok l ↔ ∃ workspaceId workspace,
      db.usableWorkspace = some (workspaceId, workspace) ∧
      ¬ (workspace.kind = .team ∧ db.activeAccountId = none) ∧
      l = db.connectionRows workspaceId workspace db.activeAccountId := by
  unfold Database.listConnections Database.activeWorkspaceRow
  cases husable : db.usableWorkspace with
  | none =>
      refine iff_of_false (fun h => by cases h) ?_
      rintro ⟨_, _, h, -⟩
      cases h
  | some found =>
      obtain ⟨workspaceId, workspace⟩ := found
      change (refuseIf (workspace.kind = .team ∧ db.activeAccountId = none) _ >>= fun _ =>
        pure (db.connectionRows workspaceId workspace db.activeAccountId)) = .ok l ↔ _
      rw [Except.bind_eq_ok]
      constructor
      · rintro ⟨_, haccount, hrows⟩
        exact ⟨workspaceId, workspace, rfl, refuseIf_eq_ok.1 haccount,
          (Except.pure_eq_ok.1 hrows).symm⟩
      · rintro ⟨_, _, h, haccount, rfl⟩
        cases h
        exact ⟨⟨⟩, refuseIf_eq_ok.2 haccount, rfl⟩

/-- The usable workspace depends on the scope only. -/
theorem KeepsAuthority.usableWorkspace {db db' : Database} (h : KeepsAuthority db db') :
    db'.usableWorkspace = db.usableWorkspace := by
  have hmember : db'.activeMember = db.activeMember := funext₂ h.activeMember
  have hvalid : ∀ id account, db'.scopeValid id account = db.scopeValid id account :=
    fun id account => by
      unfold Database.scopeValid Database.activeWorkspace
      rw [h.workspaces, hmember]
  unfold Database.usableWorkspace
  simp only [hvalid, h.activeWorkspaceId, h.activeAccountId, Database.activeWorkspace, h.workspaces]

end Store
end AgentDb
