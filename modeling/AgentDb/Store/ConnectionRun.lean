import AgentDb.Store.Pins
import AgentDb.Store.ScopeRun

/-!
# What an operation does to one connection

`Op` is one committing operation of the store. `ConnectionStep` says everything an operation can do
to the row of one connection and to the bindings of that row; `connectionStep_of_apply` is proved
once, operation by operation, and every invariant is read off it. `StoreOk` is what holds in every
state of a run.
-/

namespace AgentDb
namespace Store

open Commits Protocol

/-! ### Operations -/

/-- A committing operation. The transactions of a call that touches the scope commit one by one,
with anything in between. -/
inductive Op
  | scope (call : Call) (index : ℕ)
  | upsertConnection (now : DateTime) (p : ConnectionProfile)
  | setConnectionsSchemaGroup (now : DateTime) (ids : List Uuid) (schemaGroup : Option String)
  | deleteConnection (now : DateTime) (id : Uuid)
  | syncRemoteConnections (now : DateTime) (workspaceId : Uuid) (user : UserId)
      (listing : List (ConnectionProfile × ℤ))
  | bindConnectionCredentials (now : DateTime) (id : Uuid) (user : UserId)
      (username extraParams : String) (secretRef : Option String)
  | purgeRemoteConnectionCache (workspaceId connection : Uuid)
  | putCatalogIfCurrent (pin : PinnedConnection) (snapshot : CatalogSnapshot)
  | insertHistoryIfCurrent (pin : PinnedConnection) (entry : HistoryEntry)
  | saveDashboardIfCurrent (id : Uuid) (now : DateTime) (pin : PinnedConnection)
      (draft : DashboardDraft)

/-- What the operation commits. -/
def Op.apply (sha256 : List UInt8 → Vector UInt8 32) : Op → Database → AppResult Database
  | .scope call index, db =>
      match call.transactions[index]? with
      | some transaction => transaction db
      | none => .ok db
  | .upsertConnection now p, db => Store.upsertConnection now p db
  | .setConnectionsSchemaGroup now ids schemaGroup, db =>
      Store.setConnectionsSchemaGroup now ids schemaGroup db
  | .deleteConnection now id, db => Store.deleteConnection now id db
  | .syncRemoteConnections now workspaceId user listing, db =>
      Store.syncRemoteConnections now workspaceId user listing db
  | .bindConnectionCredentials now id user username extraParams secretRef, db =>
      Store.bindConnectionCredentials now id user username extraParams secretRef db
  | .purgeRemoteConnectionCache workspaceId connection, db =>
      .ok (Store.purgeRemoteConnectionCache workspaceId connection db)
  | .putCatalogIfCurrent pin snapshot, db =>
      (Store.putCatalogIfCurrent sha256 pin snapshot db).map Prod.snd
  | .insertHistoryIfCurrent pin entry, db => Store.insertHistoryIfCurrent pin entry db
  | .saveDashboardIfCurrent id now pin draft, db =>
      (Store.saveDashboardIfCurrent id now pin draft db).map Prod.snd

/-- The templates an operation takes from the server. -/
def Op.listing : Op → List (ConnectionProfile × ℤ)
  | .syncRemoteConnections _ _ _ listing => listing
  | _ => []

/-- The connections an operation edits as local ones. -/
def Op.editedIds : Op → List Uuid
  | .setConnectionsSchemaGroup _ ids _ => ids
  | .deleteConnection _ id => [id]
  | _ => []

/-- What is shared of a profile: all but the account's credentials and permission. -/
def ConnectionProfile.redacted (p : ConnectionProfile) : ConnectionProfile :=
  { p with
    username := ""
    extraParams := "\x7b\x7d"
    secretRef := none
    workspaceAccess := .view
    allowWrites := false }

/-- What an operation may be given: only local connections are grouped or deleted, and the server
has one content for each revision of a template. -/
structure Op.Assumed (template : Uuid → ℤ → ConnectionProfile) (op : Op) (db : Database) :
    Prop where
  editsLocal : ∀ id ∈ op.editedIds, ∀ c, db.connections.get id = some c → c.remote = false
  templates : ∀ entry ∈ op.listing, entry.1.redacted = template entry.1.id entry.2

/-! ### Steps of one connection -/

/-- The template and its place are the same. -/
structure SameTemplate (c c' : Connection) : Prop where
  remote : c'.remote = true
  access : c'.workspaceAccess = c.workspaceAccess
  redacted : c'.toConnectionProfile.redacted = c.toConnectionProfile.redacted
  workspaceId : c'.workspaceId = c.workspaceId
  accountUserId : c'.accountUserId = c.accountUserId
  revision : c'.revision = c.revision

/-- Everything an operation can do to one connection. The bindings of a shared connection may
change in any way; a local connection has none. -/
inductive ConnectionStep (listing : List (ConnectionProfile × ℤ)) (db db' : Database) (id : Uuid) :
    Prop
  | kept (hrow : db'.connections.get id = db.connections.get id)
      (hbindings : ∀ u, db'.bindings.get (id, u) = db.bindings.get (id, u))
  | created (c' : Connection) (hrow : db.connections.get id = none)
      (hrow' : db'.connections.get id = some c') (hlocal' : c'.remote = false)
      (hbindings : ∀ u, db'.bindings.get (id, u) = db.bindings.get (id, u))
  | edited (c c' : Connection) (hrow : db.connections.get id = some c) (hlocal : c.remote = false)
      (hrow' : db'.connections.get id = some c') (hlocal' : c'.remote = false)
      (hrevision : c.revision < c'.revision)
      (hbindings : ∀ u, db'.bindings.get (id, u) = db.bindings.get (id, u))
  | claimed (c : Connection) (user : UserId) (hrow : db.connections.get id = some c)
      (hlocal : c.remote = false) (howner : c.accountUserId = none)
      (hteam : c.workspaceId ≠ personalWorkspaceId)
      (hrow' : db'.connections.get id = some { c with accountUserId := some user })
      (hbindings : ∀ u, db'.bindings.get (id, u) = db.bindings.get (id, u))
  | shared (c c' : Connection) (hrow : db.connections.get id = some c) (hremote : c.remote = true)
      (hrow' : db'.connections.get id = some c') (hsame : SameTemplate c c')
  | dropped (c : Connection) (hrow : db.connections.get id = some c) (hremote : c.remote = true)
      (hrow' : ∀ c', db'.connections.get id = some c' → SameTemplate c c')
      (hbindings : ∀ u, db'.bindings.get (id, u) = none)
  | listed (c' : Connection) (entry : ConnectionProfile × ℤ) (hentry : entry ∈ listing)
      (hid : entry.1.id = id) (hrow' : db'.connections.get id = some c')
      (hremote' : c'.remote = true) (haccess' : c'.workspaceAccess ≠ .local_)
      (hredacted : c'.toConnectionProfile.redacted = entry.1.redacted)
      (hrevision : c'.revision = entry.2)
      (hplace : ∀ c, db.connections.get id = some c →
        c'.workspaceId = c.workspaceId ∧ c'.accountUserId = c.accountUserId)

theorem ConnectionStep.of_eq {listing : List (ConnectionProfile × ℤ)} {db db' : Database}
    {id : Uuid} (hconnections : db'.connections = db.connections)
    (hbindings : db'.bindings = db.bindings) : ConnectionStep listing db db' id :=
  .kept (by rw [hconnections]) fun u => by rw [hbindings]

/-! ### Memberships -/

/-- Only the Personal Workspace is personal, and no account is a member of it. -/
structure MembersOk (db : Database) : Prop where
  personalOnly : ∀ id w, db.workspaces.get id = some w → w.kind = .personal →
    id = personalWorkspaceId
  noMembers : ∀ user, db.members.get (personalWorkspaceId, user) = none

theorem MembersOk.ne_personal {db : Database} (h : MembersOk db) {id : Uuid} {user : UserId}
    (hmember : db.activeMember id user = true) : id ≠ personalWorkspaceId := by
  rintro rfl
  obtain ⟨m, hm, -⟩ := activeMember_iff.1 hmember
  rw [h.noMembers user] at hm
  cases hm

theorem membersOk_archiveMemberships {user : UserId} {db : Database} (h : MembersOk db) :
    MembersOk (archiveMemberships user db) := by
  refine ⟨h.personalOnly, fun u => ?_⟩
  simp only [archiveMemberships]
  rw [Table.get_mapRows, h.noMembers u]
  rfl

theorem membersOk_joinWorkspace {now : DateTime} {user : WorkspaceAuthUser} {db : Database}
    {entry : Uuid × String × WorkspaceRole} (hentry : entry.1 ≠ personalWorkspaceId)
    (h : MembersOk db) : MembersOk (joinWorkspace now user db entry) := by
  constructor
  · intro id w hw hkind
    simp only [joinWorkspace] at hw
    rw [Table.get_upsert] at hw
    split at hw
    · rename_i hid
      cases hold : db.workspaces.get entry.1 with
      | none =>
        rw [hold, Option.elim_none] at hw
        obtain rfl := Option.some.inj hw
        cases hkind
      | some old =>
        rw [hold, Option.elim_some] at hw
        by_cases hteam : old.kind = .team
        · rw [if_pos hteam] at hw
          obtain rfl := Option.some.inj hw
          exact absurd (hteam.symm.trans hkind) (by decide)
        · rw [if_neg hteam] at hw
          obtain rfl := Option.some.inj hw
          rw [hid]
          exact h.personalOnly _ _ hold hkind
    · exact h.personalOnly id w hw hkind
  · intro u
    simp only [joinWorkspace]
    rw [Table.get_upsert, if_neg]
    · exact h.noMembers u
    · intro heq
      exact hentry (Prod.ext_iff.1 heq).1.symm

theorem membersOk_join {now : DateTime} {user : WorkspaceAuthUser}
    {workspaces : List (Uuid × String × WorkspaceRole)} {db : Database}
    (hworkspaces : ∀ entry ∈ workspaces, entry.1 ≠ personalWorkspaceId) (h : MembersOk db) :
    MembersOk (workspaces.foldl (joinWorkspace now user) db) := by
  induction workspaces generalizing db with
  | nil => exact h
  | cons entry workspaces ih =>
    exact ih (fun e he => hworkspaces e (List.mem_cons_of_mem _ he))
      (membersOk_joinWorkspace (hworkspaces entry List.mem_cons_self) h)

/-- Kinds and the absence of members carry over to any later workspaces and members. -/
theorem MembersOk.mono {db db' : Database} (h : MembersOk db)
    (hworkspaces : ∀ id w', db'.workspaces.get id = some w' →
      ∃ w, db.workspaces.get id = some w ∧ w.kind = w'.kind)
    (hmembers : ∀ key, db.members.get key = none → db'.members.get key = none) :
    MembersOk db' := by
  refine ⟨fun id w' hw' hkind => ?_, fun user => hmembers _ (h.noMembers user)⟩
  obtain ⟨w, hw, hsame⟩ := hworkspaces id w' hw'
  exact h.personalOnly id w hw (hsame.trans hkind)

theorem MembersOk.of_eq {db db' : Database} (h : MembersOk db)
    (hworkspaces : db'.workspaces = db.workspaces) (hmembers : db'.members = db.members) :
    MembersOk db' :=
  h.mono (fun id w hw => ⟨w, by rw [← hworkspaces]; exact hw, rfl⟩) fun key hkey => by
    rw [hmembers]
    exact hkey

theorem membersOk_archiveEmptyTeams {now : DateTime} {db : Database} (h : MembersOk db) :
    MembersOk (archiveEmptyTeams now db) := by
  refine h.mono (fun id w' hw' => ?_) fun key hkey => hkey
  simp only [archiveEmptyTeams] at hw'
  rw [Table.get_mapRows] at hw'
  obtain ⟨w, hw, rfl⟩ := Option.map_eq_some_iff.1 hw'
  refine ⟨w, hw, ?_⟩
  split
  · rfl
  · rfl

/-! ### Transactions that touch the scope -/

/-- A transaction that writes no connection, no binding and no membership. -/
structure KeepsResources (db db' : Database) : Prop where
  connections : db'.connections = db.connections
  bindings : db'.bindings = db.bindings
  workspaces : db'.workspaces = db.workspaces
  members : db'.members = db.members

theorem keepsResources_bump {db db' : Database} (h : bumpActiveScopeGeneration db = .ok db') :
    KeepsResources db db' := by
  rw [bumpActiveScopeGeneration_eq_ok h]
  exact ⟨rfl, rfl, rfl, rfl⟩

theorem keepsResources_repairWorkspace {now : DateTime} {accountRepaired : Bool} {current : Uuid}
    {db db' : Database} (h : repairWorkspace now accountRepaired current db = .ok db') :
    KeepsResources db db' := by
  unfold repairWorkspace at h
  split at h
  · split at h
    · exact keepsResources_bump h
    · obtain rfl := Except.ok.inj h
      exact ⟨rfl, rfl, rfl, rfl⟩
  · obtain ⟨h1, h2, h3, h4⟩ := keepsResources_bump h
    exact ⟨h1, h2, h3, h4⟩

theorem keepsResources_repair {now : DateTime} {db db' : Database}
    (h : repairActiveScopeAfterMembershipChange now db = .ok db') : KeepsResources db db' := by
  unfold repairActiveScopeAfterMembershipChange at h
  split at h
  · cases h
  split at h
  · obtain ⟨h1, h2, h3, h4⟩ := keepsResources_repairWorkspace h
    exact ⟨h1, h2, h3, h4⟩
  · exact keepsResources_repairWorkspace h

theorem keepsResources_activateWorkspace {now : DateTime} {id : Uuid} {account : Option UserId}
    {db db' : Database} (h : activateWorkspace now id account db = .ok db') :
    KeepsResources db db' := by
  unfold activateWorkspace at h
  split at h
  · cases h
  · split at h
    · cases h
    split at h
    · cases h
    obtain ⟨h1, h2, h3, h4⟩ := keepsResources_bump h
    exact ⟨h1, h2, h3, h4⟩
  · split at h
    · cases h
    obtain ⟨h1, h2, h3, h4⟩ := keepsResources_bump h
    exact ⟨h1, h2, h3, h4⟩

/-- Removing an account removes its memberships and archives teams; connections stay. -/
theorem removeWorkspaceAccount_resources {now : DateTime} {user : UserId} {db db' : Database}
    (h : removeWorkspaceAccount now user db = .ok db') :
    db'.connections = db.connections ∧ db'.bindings = db.bindings ∧
      (MembersOk db → MembersOk db') := by
  have hfiltered : MembersOk db → MembersOk (archiveEmptyTeams now { db with
      members := db.members.filterRows fun key _ => key.2 ≠ user
      accounts := db.accounts.filterRows fun key _ => key ≠ user }) := by
    intro hok
    refine membersOk_archiveEmptyTeams (hok.mono (fun id w hw => ⟨w, hw, rfl⟩) fun key hkey => ?_)
    rw [Table.get_filterRows, hkey]
    rfl
  unfold removeWorkspaceAccount at h
  dsimp only at h
  split at h
  · split at h
    · obtain ⟨h1, h2, h3, h4⟩ := keepsResources_bump h
      exact ⟨h1, h2, fun hok => (hfiltered hok).of_eq h3 h4⟩
    · obtain ⟨h1, h2, h3, h4⟩ := keepsResources_bump h
      exact ⟨h1, h2, fun hok => (hfiltered hok).of_eq h3 h4⟩
  · obtain rfl := Except.ok.inj h
    exact ⟨rfl, rfl, hfiltered⟩

/-! ### The membership sync -/

/-- What no step of a fold touches is what it was. -/
theorem foldl_keeps {α β : Type} {f : Database → α → Database} (p : Database → β)
    (hf : ∀ db a, p (f db a) = p db) (l : List α) (db : Database) : p (l.foldl f db) = p db := by
  induction l generalizing db with
  | nil => rfl
  | cons a l ih => rw [List.foldl_cons, ih, hf]

/-- Inherited credentials are written as bindings and as nothing else. -/
theorem foldl_inheritBinding (now : DateTime) (user : UserId) (entries : List (Uuid × Connection))
    (db : Database) :
    ∃ bindings, entries.foldl (inheritBinding now user) db = { db with bindings } := by
  induction entries generalizing db with
  | nil => exact ⟨db.bindings, rfl⟩
  | cons entry entries ih =>
    obtain ⟨bindings, hbindings⟩ := ih (inheritBinding now user db entry)
    refine ⟨bindings, ?_⟩
    rw [List.foldl_cons, hbindings]
    unfold inheritBinding
    dsimp only
    split
    · rfl
    · rfl

/-- Only a shared connection can get a binding. -/
theorem bindings_inheritBinding (now : DateTime) (user : UserId) {id : Uuid}
    {entries : List (Uuid × Connection)} (hlocal : ∀ c, (id, c) ∈ entries → c.remote = false)
    (db : Database) (u : UserId) :
    (entries.foldl (inheritBinding now user) db).bindings.get (id, u) =
      db.bindings.get (id, u) := by
  induction entries generalizing db with
  | nil => rfl
  | cons entry entries ih =>
    rw [List.foldl_cons, ih fun c hc => hlocal c (List.mem_cons_of_mem _ hc)]
    unfold inheritBinding
    dsimp only
    split
    · rename_i hshared
      rw [Table.get_upsert, if_neg]
      rintro heq
      obtain ⟨rfl, -⟩ := Prod.mk.inj heq
      rw [hlocal entry.2 List.mem_cons_self] at hshared
      cases hshared.1
    · rfl

theorem keepsResources_claimArtifacts {user : UserId} {db db' : Database}
    (h : claimArtifacts user db = .ok db') : KeepsResources db db' := by
  unfold claimArtifacts at h
  dsimp only at h
  split at h
  · obtain rfl := Except.ok.inj h
    exact ⟨rfl, rfl, rfl, rfl⟩
  · cases h

theorem sameTemplate_clear {c : Connection} (hremote : c.remote = true) (member : Uuid → Bool) :
    SameTemplate c (c.clear member) := by
  unfold Connection.clear
  split
  · exact ⟨hremote, rfl, rfl, rfl, rfl, rfl⟩
  · exact ⟨hremote, rfl, rfl, rfl, rfl, rfl⟩

theorem clear_of_local {c : Connection} {member : Uuid → Bool} (hlocal : c.remote = false) :
    c.clear member = c := if_neg (by simp [hlocal])

theorem claim_of_remote {c : Connection} {member : Uuid → Bool} {user : UserId}
    (hremote : c.remote = true) : c.claim member user = c := if_neg (by simp [hremote])

theorem claim_eq (member : Uuid → Bool) (user : UserId) (c : Connection) :
    c.claim member user = c ∨ c.accountUserId = none ∧ member c.workspaceId = true ∧
      c.claim member user = { c with accountUserId := some user } := by
  by_cases h : c.remote = false ∧ c.accountUserId = none ∧ member c.workspaceId = true
  · exact .inr ⟨h.2.1, h.2.2, if_pos h⟩
  · exact .inl (if_neg h)

/-- A membership sync claims local connections without an owner and clears shared ones. -/
theorem connectionStep_syncMemberships {listing : List (ConnectionProfile × ℤ)} {now : DateTime}
    {user : WorkspaceAuthUser} {workspaces : List (Uuid × String × WorkspaceRole)}
    {db db' : Database} (h : syncMemberships now user workspaces db = .ok db')
    (hworkspaces : ∀ entry ∈ workspaces, entry.1 ≠ personalWorkspaceId) (hok : MembersOk db) :
    MembersOk db' ∧ ∀ id, ConnectionStep listing db db' id := by
  simp only [syncMemberships, Except.bind_eq_ok] at h
  obtain ⟨artifacts, hartifacts, h⟩ := h
  have hconnections := foldl_keeps (f := joinWorkspace now user) (·.connections)
    (fun _ _ => rfl) workspaces (archiveMemberships user.id db)
  have hbindings := foldl_keeps (f := joinWorkspace now user) (·.bindings)
    (fun _ _ => rfl) workspaces (archiveMemberships user.id db)
  have hmembers : MembersOk (workspaces.foldl (joinWorkspace now user)
      (archiveMemberships user.id db)) :=
    membersOk_join hworkspaces (membersOk_archiveMemberships hok)
  generalize List.foldl (joinWorkspace now user) _ workspaces = joined at *
  change joined.connections = db.connections at hconnections
  change joined.bindings = db.bindings at hbindings
  obtain ⟨bindings, hinherit⟩ := foldl_inheritBinding now user.id
    (claimLegacyConnections user.id joined).connections.rows (claimLegacyConnections user.id joined)
  have hinherited : ∀ id, (∀ c, (claimLegacyConnections user.id joined).connections.get id =
      some c → c.remote = false) → ∀ u, bindings.get (id, u) = db.bindings.get (id, u) := by
    intro id hlocal u
    have hget := bindings_inheritBinding now user.id
      (fun c hmem => hlocal c (Table.mem_rows_iff.1 hmem)) (claimLegacyConnections user.id joined) u
    rw [hinherit] at hget
    rw [← hbindings]
    exact hget
  rw [hinherit] at hartifacts
  obtain ⟨hc, hb, hw, hm⟩ := keepsResources_claimArtifacts hartifacts
  obtain ⟨hc', hb', hw', hm'⟩ := keepsResources_repair h
  refine ⟨?_, fun id => ?_⟩
  · have hartifactsOk : MembersOk artifacts := hmembers.of_eq hw hm
    exact MembersOk.of_eq (membersOk_archiveEmptyTeams hartifactsOk) hw' hm'
  have hclaim : (claimLegacyConnections user.id joined).connections.get id =
      (db.connections.get id).map (Connection.claim (joined.activeMember · user.id) user.id) := by
    rw [← hconnections]
    exact Table.get_mapRows _ _ _
  have hrow : db'.connections.get id =
      ((claimLegacyConnections user.id joined).connections.get id).map
        (Connection.clear (joined.activeMember · user.id)) := by
    rw [hc']
    show artifacts.connections.get id = _
    rw [hc]
    exact Table.get_mapRows _ _ _
  have hbindings' : (∀ c, (claimLegacyConnections user.id joined).connections.get id = some c →
      c.remote = false) → ∀ u, db'.bindings.get (id, u) = db.bindings.get (id, u) := by
    intro hlocal u
    rw [hb']
    show artifacts.bindings.get (id, u) = _
    rw [hb]
    exact hinherited id hlocal u
  rw [hclaim] at hrow hbindings'
  cases hold : db.connections.get id with
  | none =>
    rw [hold] at hrow hbindings'
    exact .kept (hrow.trans hold.symm) (hbindings' (by simp))
  | some c =>
    rw [hold, Option.map_some, Option.map_some] at hrow
    rw [hold, Option.map_some] at hbindings'
    cases hremote : c.remote with
    | true =>
      rw [claim_of_remote hremote] at hrow
      exact .shared c _ hold hremote hrow (sameTemplate_clear hremote _)
    | false =>
      rcases claim_eq (joined.activeMember · user.id) user.id c with heq | ⟨howner, hmember, heq⟩
      · rw [heq] at hrow hbindings'
        rw [clear_of_local hremote] at hrow
        refine .kept (hrow.trans hold.symm) (hbindings' ?_)
        rintro c' ⟨⟩
        exact hremote
      · rw [heq] at hrow hbindings'
        have hlocal : { c with accountUserId := some user.id }.remote = false := hremote
        rw [clear_of_local hlocal] at hrow
        refine .claimed c user.id hold hremote howner (hmembers.ne_personal hmember) hrow
          (hbindings' ?_)
        rintro c' ⟨⟩
        exact hremote

theorem connectionStep_of_transaction {listing : List (ConnectionProfile × ℤ)} {call : Call}
    {t : Database → AppResult Database} (ht : t ∈ call.transactions) {db db' : Database}
    (h : t db = .ok db') (hok : MembersOk db) :
    MembersOk db' ∧ ∀ id, ConnectionStep listing db db' id := by
  have hkeeps : KeepsResources db db' → MembersOk db' ∧ ∀ id, ConnectionStep listing db db' id :=
    fun hr => ⟨hok.of_eq hr.workspaces hr.members, fun _ => .of_eq hr.connections hr.bindings⟩
  cases call with
  | open_ now =>
    obtain rfl := List.mem_singleton.1 ht
    exact hkeeps (keepsResources_repair h)
  | rememberWorkspaceAccount now user =>
    obtain rfl := List.mem_singleton.1 ht
    obtain rfl := Except.ok.inj h
    exact hkeeps ⟨rfl, rfl, rfl, rfl⟩
  | syncAccountWorkspaces remembered now user workspaces =>
    rw [Call.transactions] at ht
    split at ht
    · obtain rfl := List.mem_singleton.1 ht
      cases h
    · rename_i hpersonal
      rcases List.mem_cons.1 ht with rfl | ht
      · obtain rfl := Except.ok.inj h
        exact hkeeps ⟨rfl, rfl, rfl, rfl⟩
      · obtain rfl := List.mem_singleton.1 ht
        refine connectionStep_syncMemberships h (fun entry hentry hid => hpersonal ?_) hok
        exact List.any_eq_true.2 ⟨entry, hentry, decide_eq_true hid⟩
  | activateWorkspace now id account =>
    obtain rfl := List.mem_singleton.1 ht
    exact hkeeps (keepsResources_activateWorkspace h)
  | activateWorkspaceAccount now user =>
    obtain rfl := List.mem_singleton.1 ht
    exact hkeeps (keepsResources_activateWorkspace h)
  | removeWorkspaceAccount now user =>
    obtain rfl := List.mem_singleton.1 ht
    obtain ⟨hconnections, hbindings, hmembers⟩ := removeWorkspaceAccount_resources h
    exact ⟨hmembers hok, fun _ => .of_eq hconnections hbindings⟩

/-! ### Operations on connections -/

/-- An operation that leaves the scope and everything it depends on alone. -/
structure KeepsAuthority (db db' : Database) : Prop where
  activeWorkspaceId : db'.activeWorkspaceId = db.activeWorkspaceId
  activeAccountId : db'.activeAccountId = db.activeAccountId
  generation : db'.generation = db.generation
  workspaces : db'.workspaces = db.workspaces
  members : db'.members = db.members
  accounts : db'.accounts = db.accounts

theorem KeepsAuthority.refl (db : Database) : KeepsAuthority db db := ⟨rfl, rfl, rfl, rfl, rfl, rfl⟩

theorem KeepsAuthority.trans {a b c : Database} (h₁ : KeepsAuthority a b)
    (h₂ : KeepsAuthority b c) : KeepsAuthority a c :=
  ⟨h₂.1.trans h₁.1, h₂.2.trans h₁.2, h₂.3.trans h₁.3, h₂.4.trans h₁.4, h₂.5.trans h₁.5,
    h₂.6.trans h₁.6⟩

theorem KeepsAuthority.activeMember {db db' : Database} (h : KeepsAuthority db db') (id : Uuid)
    (user : UserId) : db'.activeMember id user = db.activeMember id user := by
  rw [Database.activeMember, Database.activeMember, h.members]

theorem KeepsAuthority.scopeOk {db db' : Database} (h : KeepsAuthority db db')
    (hok : ScopeOk db) : ScopeOk db' := by
  obtain ⟨id, hid, hvalid⟩ := hok.valid
  obtain ⟨w, hw, hactive, husable⟩ := scopeValid_iff.1 hvalid
  refine ⟨⟨id, h.activeWorkspaceId.trans hid, scopeValid_iff.2 ⟨w, ?_, hactive, ?_⟩⟩, ?_, ?_, ?_⟩
  · rw [h.workspaces]
    exact hw
  · simp only [h.activeAccountId, h.activeMember]
    exact husable
  · rw [h.activeAccountId, h.accounts]
    exact hok.remembered
  · rw [h.generation]
    exact hok.generation
  · rw [Database.PersonalActive, h.workspaces]
    exact hok.personal

theorem KeepsAuthority.advances {db db' : Database} (h : KeepsAuthority db db') :
    Advances db db' :=
  .of_eq (by rw [Database.scope, Database.scope, h.activeWorkspaceId, h.activeAccountId])
    h.generation.symm

/-- An upsert makes a local connection or counts an edit of one. -/
theorem connectionStep_upsertConnection {listing : List (ConnectionProfile × ℤ)} {now : DateTime}
    {p : ConnectionProfile} {db db' : Database} (h : upsertConnection now p db = .ok db') :
    KeepsAuthority db db' ∧ ∀ id, ConnectionStep listing db db' id := by
  simp only [upsertConnection, Except.bind_eq_ok] at h
  obtain ⟨-, -, -, -, h⟩ := h
  split at h
  · cases h
  simp only [Except.bind_eq_ok] at h
  obtain ⟨-, -, h⟩ := h
  have hother : ∀ id row safety, id ≠ p.id → ConnectionStep listing db
      { db with connections := db.connections.put p.id row, safety := safety } id :=
    fun id row safety hne => .kept (Table.get_put_of_ne _ _ hne) fun _ => rfl
  split at h
  · rename_i hnone
    obtain rfl := Except.pure_eq_ok.1 h
    refine ⟨⟨rfl, rfl, rfl, rfl, rfl, rfl⟩, fun id => ?_⟩
    by_cases hid : id = p.id
    · subst hid
      exact .created _ hnone (Table.get_put_self _ _ _) rfl fun _ => rfl
    · exact hother id _ _ hid
  · rename_i c hc
    simp only [Except.bind_eq_ok, refuseIf_eq_ok] at h
    obtain ⟨-, hguard, h⟩ := h
    obtain rfl := Except.pure_eq_ok.1 h
    refine ⟨⟨rfl, rfl, rfl, rfl, rfl, rfl⟩, fun id => ?_⟩
    have hlocal : c.remote = false := by
      cases hremote : c.remote with
      | false => rfl
      | true => exact absurd (.inr (.inr hremote)) hguard
    by_cases hid : id = p.id
    · subst hid
      exact .edited c _ hc hlocal (Table.get_put_self _ _ _) hlocal (Int.lt_succ c.revision)
        fun _ => rfl
    · exact hother id _ _ hid

/-- An edit counts itself on one local row. -/
theorem editConnection_eq_ok {now : DateTime} {workspaceId : Uuid} {edit : Connection → Connection}
    {db db' : Database} {id : Uuid} (h : editConnection now workspaceId edit db id = .ok db') :
    ∃ c, db.connections.get id = some c ∧
      db' = { db with connections := db.connections.put id { edit c with
        revision := c.revision + 1
        syncStatus := "dirty"
        updatedAt := now } } := by
  unfold editConnection at h
  split at h
  · cases h
  · rename_i c hc
    exact ⟨c, (Option.filter_eq_some_iff.1 hc).1, (Except.ok.inj h).symm⟩

/-- What edits of local connections do to every row. -/
structure Edits (db db' : Database) : Prop where
  authority : KeepsAuthority db db'
  bindings : db'.bindings = db.bindings
  row : ∀ id, db'.connections.get id = db.connections.get id ∨ ∃ c c',
    db.connections.get id = some c ∧ c.remote = false ∧ db'.connections.get id = some c' ∧
      c'.remote = false ∧ c.revision < c'.revision

theorem Edits.refl (db : Database) : Edits db db := ⟨.refl db, rfl, fun _ => .inl rfl⟩

theorem Edits.trans {a b c : Database} (h₁ : Edits a b) (h₂ : Edits b c) : Edits a c := by
  refine ⟨h₁.authority.trans h₂.authority, h₂.bindings.trans h₁.bindings, fun id => ?_⟩
  rcases h₁.row id with heq₁ | ⟨x, y, hx, hxl, hy, hyl, hxy⟩
  · rw [← heq₁]
    exact h₂.row id
  · rcases h₂.row id with heq₂ | ⟨y', z, hy', -, hz, hzl, hyz⟩
    · exact .inr ⟨x, y, hx, hxl, heq₂.trans hy, hyl, hxy⟩
    · obtain rfl := Option.some.inj (hy.symm.trans hy')
      exact .inr ⟨x, z, hx, hxl, hz, hzl, hxy.trans hyz⟩

theorem Edits.connectionStep {listing : List (ConnectionProfile × ℤ)} {db db' : Database}
    (h : Edits db db') (id : Uuid) : ConnectionStep listing db db' id := by
  have hbindings : ∀ u, db'.bindings.get (id, u) = db.bindings.get (id, u) :=
    fun u => by rw [h.bindings]
  rcases h.row id with heq | ⟨c, c', hc, hlocal, hc', hlocal', hrevision⟩
  · exact .kept heq hbindings
  · exact .edited c c' hc hlocal hc' hlocal' hrevision hbindings

theorem edits_editConnection {now : DateTime} {workspaceId : Uuid} {edit : Connection → Connection}
    (hedit : ∀ c, (edit c).remote = c.remote) {db db' : Database} {id : Uuid}
    (hlocal : ∀ c, db.connections.get id = some c → c.remote = false)
    (h : editConnection now workspaceId edit db id = .ok db') : Edits db db' := by
  obtain ⟨c, hc, rfl⟩ := editConnection_eq_ok h
  refine ⟨⟨rfl, rfl, rfl, rfl, rfl, rfl⟩, rfl, fun id' => ?_⟩
  by_cases hid : id' = id
  · subst hid
    exact .inr ⟨c, _, hc, hlocal c hc, Table.get_put_self _ _ _, (hedit c).trans (hlocal c hc),
      Int.lt_succ c.revision⟩
  · exact .inl (Table.get_put_of_ne _ _ hid)

/-- Several edits in a row; the rows stay local, so each of them is an edit of a local one. -/
theorem edits_foldlM {now : DateTime} {workspaceId : Uuid} {edit : Connection → Connection}
    (hedit : ∀ c, (edit c).remote = c.remote) {ids : List Uuid} {db db' : Database}
    (hlocal : ∀ id ∈ ids, ∀ c, db.connections.get id = some c → c.remote = false)
    (h : ids.foldlM (editConnection now workspaceId edit) db = .ok db') : Edits db db' := by
  induction ids generalizing db with
  | nil =>
    obtain rfl := Except.pure_eq_ok.1 h
    exact .refl db
  | cons id ids ih =>
    rw [List.foldlM_cons, Except.bind_eq_ok] at h
    obtain ⟨db₁, h₁, h⟩ := h
    have hedits := edits_editConnection hedit (hlocal id List.mem_cons_self) h₁
    refine hedits.trans (ih (fun id' hid' c hc => ?_) h)
    rcases hedits.row id' with heq | ⟨-, c', -, -, hc', hlocal', -⟩
    · exact hlocal id' (List.mem_cons_of_mem _ hid') c (heq.symm.trans hc)
    · rw [Option.some.inj (hc.symm.trans hc')]
      exact hlocal'

theorem edits_setConnectionsSchemaGroup {now : DateTime} {ids : List Uuid}
    {schemaGroup : Option String} {db db' : Database}
    (hlocal : ∀ id ∈ ids, ∀ c, db.connections.get id = some c → c.remote = false)
    (h : setConnectionsSchemaGroup now ids schemaGroup db = .ok db') : Edits db db' := by
  simp only [setConnectionsSchemaGroup, Except.bind_eq_ok] at h
  obtain ⟨_, -, _, -, h⟩ := h
  refine edits_foldlM (fun _ => ?_) hlocal h
  rfl

theorem edits_deleteConnection {now : DateTime} {id : Uuid} {db db' : Database}
    (hlocal : ∀ c, db.connections.get id = some c → c.remote = false)
    (h : deleteConnection now id db = .ok db') : Edits db db' := by
  simp only [deleteConnection, Except.bind_eq_ok] at h
  obtain ⟨_, -, _, -, h⟩ := h
  refine edits_editConnection (fun _ => ?_) hlocal h
  rfl

/-! ### Listings of the server -/

theorem withdrawn_eq_true {workspaceId : Uuid} {listing : List (ConnectionProfile × ℤ)} {id : Uuid}
    {c : Connection} : withdrawn workspaceId listing id c = true ↔
      c.workspaceId = workspaceId ∧ c.remote = true ∧ id ∉ listing.map (·.1.id) := by
  simp [withdrawn]

/-- The row a template is written to, by its id. -/
theorem get_writeTemplate (now : DateTime) (workspaceId : Uuid) (user : UserId) (db : Database)
    (entry : ConnectionProfile × ℤ) (id : Uuid) (hne : id ≠ entry.1.id) :
    (writeTemplate now workspaceId user db entry).connections.get id = db.connections.get id ∧
      ∀ u, (writeTemplate now workspaceId user db entry).bindings.get (id, u) =
        db.bindings.get (id, u) := by
  simp only [writeTemplate]
  refine ⟨by rw [Table.get_upsert, if_neg hne], fun u => ?_⟩
  rw [Table.get_upsert, if_neg]
  rintro heq
  exact hne (Prod.mk.inj heq).1

/-- A row that holds a listed template and keeps the place of the row before it. -/
structure Holds (entry : ConnectionProfile × ℤ) (workspaceId : Uuid) (old : Option Connection)
    (c' : Connection) : Prop where
  remote : c'.remote = true
  access : c'.workspaceAccess = entry.1.workspaceAccess
  redacted : c'.toConnectionProfile.redacted = entry.1.redacted
  revision : c'.revision = entry.2
  workspaceId : c'.workspaceId = workspaceId
  accountUserId : ∀ c, old = some c → c'.accountUserId = c.accountUserId

theorem holds_writeTemplate (now : DateTime) {workspaceId : Uuid} (user : UserId) {db : Database}
    {entry : ConnectionProfile × ℤ}
    (hworkspace : ∀ c, db.connections.get entry.1.id = some c → c.workspaceId = workspaceId) :
    ∃ c', (writeTemplate now workspaceId user db entry).connections.get entry.1.id = some c' ∧
      Holds entry workspaceId (db.connections.get entry.1.id) c' := by
  simp only [writeTemplate]
  rw [Table.get_upsert, if_pos rfl]
  refine ⟨_, rfl, ?_⟩
  cases hold : db.connections.get entry.1.id with
  | none => exact ⟨rfl, rfl, rfl, rfl, rfl, by rintro c ⟨⟩⟩
  | some c =>
    rw [Option.elim_some, if_pos (hworkspace c hold)]
    exact ⟨rfl, rfl, rfl, rfl, hworkspace c hold, by rintro c' ⟨⟩; rfl⟩

/-- After a list of templates a row is untouched, or holds one of the list under its id. -/
theorem get_foldl_writeTemplate (now : DateTime) {workspaceId : Uuid} (user : UserId) {id : Uuid}
    {listing : List (ConnectionProfile × ℤ)} {db : Database}
    (hworkspace : id ∈ listing.map (·.1.id) →
      ∀ c, db.connections.get id = some c → c.workspaceId = workspaceId) :
    id ∉ listing.map (·.1.id) ∧
        (listing.foldl (writeTemplate now workspaceId user) db).connections.get id =
          db.connections.get id ∧
        (∀ u, (listing.foldl (writeTemplate now workspaceId user) db).bindings.get (id, u) =
          db.bindings.get (id, u)) ∨
      ∃ entry ∈ listing, entry.1.id = id ∧ ∃ c',
        (listing.foldl (writeTemplate now workspaceId user) db).connections.get id = some c' ∧
        Holds entry workspaceId (db.connections.get id) c' := by
  induction listing using List.reverseRecOn with
  | nil => exact .inl ⟨by simp, rfl, fun _ => rfl⟩
  | append_singleton listing entry ih =>
    rw [List.foldl_append, List.foldl_cons, List.foldl_nil]
    have hbefore := ih fun hid => hworkspace (by simp [hid])
    by_cases hid : id = entry.1.id
    · subst hid
      have hworkspace := hworkspace (by simp)
      refine .inr ⟨entry, by simp, rfl, ?_⟩
      rcases hbefore with ⟨-, hrow, -⟩ | ⟨earlier, -, -, c, hc, hholds⟩
      · rw [← hrow]
        exact holds_writeTemplate now user fun c hc => hworkspace c (hrow ▸ hc)
      · have hplace : ∀ c'', (listing.foldl (writeTemplate now workspaceId user)
            db).connections.get entry.1.id = some c'' → c''.workspaceId = workspaceId := by
          intro c'' hc''
          rw [← Option.some.inj (hc.symm.trans hc''), hholds.workspaceId]
        obtain ⟨c', hc', h'⟩ := holds_writeTemplate now user hplace
        refine ⟨c', hc', ⟨h'.remote, h'.access, h'.redacted, h'.revision, h'.workspaceId, ?_⟩⟩
        intro old hold
        exact (h'.accountUserId c hc).trans (hholds.accountUserId old hold)
    · obtain ⟨hconnections, hbindings⟩ := get_writeTemplate now workspaceId user
        (listing.foldl (writeTemplate now workspaceId user) db) entry id hid
      rw [hconnections]
      simp only [hbindings]
      refine hbefore.imp ?_ ?_
      · rintro ⟨hnot, hrow, hb⟩
        exact ⟨by simpa [hid] using hnot, hrow, hb⟩
      · rintro ⟨e, he, hrest⟩
        exact ⟨e, by simp [he], hrest⟩

theorem forM_eq_ok {α : Type} {f : α → AppResult Unit} {l : List α} {u : Unit}
    (h : l.forM f = .ok u) : ∀ a ∈ l, f a = .ok () := by
  induction l with
  | nil => simp
  | cons a l ih =>
    obtain ⟨v, hv, h⟩ := Except.bind_eq_ok.1 (show (f a >>= fun _ => l.forM f) = .ok u from h)
    exact List.forall_mem_cons.2 ⟨hv, ih h⟩

/-- What is withdrawn keeps its template and loses its bindings. -/
theorem get_withdraw (now : DateTime) (workspaceId : Uuid)
    (listing : List (ConnectionProfile × ℤ)) (db : Database) (id : Uuid) :
    ((withdraw now workspaceId listing db).connections.get id = db.connections.get id ∧
      ∀ u, (withdraw now workspaceId listing db).bindings.get (id, u) = db.bindings.get (id, u)) ∨
    id ∉ listing.map (·.1.id) ∧ ∃ c, db.connections.get id = some c ∧ c.remote = true ∧
      (∀ c', (withdraw now workspaceId listing db).connections.get id = some c' →
        SameTemplate c c') ∧
      ∀ u, (withdraw now workspaceId listing db).bindings.get (id, u) = none := by
  simp only [withdraw]
  simp only [Table.get_mapRows]
  by_cases hgone : (db.connections.get id).any (withdrawn workspaceId listing id) = true
  · obtain ⟨c, hc, hwithdrawn⟩ := (Option.any_eq_true _ _).1 hgone
    obtain ⟨-, hremote, hnot⟩ := withdrawn_eq_true.1 hwithdrawn
    refine .inr ⟨hnot, c, hc, hremote, ?_, fun u => ?_⟩
    · rw [hc, Option.map_some, if_pos hwithdrawn]
      rintro c' ⟨⟩
      exact ⟨hremote, rfl, rfl, rfl, rfl, rfl⟩
    · exact Table.get_filterRows_of_drop fun _ => by simp [hgone]
  · refine .inl ⟨?_, fun u => ?_⟩
    · cases hc : db.connections.get id with
      | none => rfl
      | some c =>
        rw [hc, Option.any_some] at hgone
        rw [Option.map_some, if_neg hgone]
    · exact Table.get_filterRows_of_keep fun _ => by simp [hgone]

theorem foldl_writeTemplate_authority (now : DateTime) (workspaceId : Uuid) (user : UserId)
    (listing : List (ConnectionProfile × ℤ)) (db : Database) :
    KeepsAuthority db (listing.foldl (writeTemplate now workspaceId user) db) := by
  induction listing generalizing db with
  | nil => exact .refl db
  | cons entry listing ih =>
    have hstep : KeepsAuthority db (writeTemplate now workspaceId user db entry) :=
      ⟨rfl, rfl, rfl, rfl, rfl, rfl⟩
    exact hstep.trans (ih _)

theorem connectionStep_syncRemoteConnections {now : DateTime} {workspaceId : Uuid} {user : UserId}
    {listing : List (ConnectionProfile × ℤ)} {db db' : Database}
    (h : syncRemoteConnections now workspaceId user listing db = .ok db') :
    KeepsAuthority db db' ∧ ∀ id, ConnectionStep listing db db' id := by
  simp only [syncRemoteConnections, Except.bind_eq_ok] at h
  obtain ⟨_, -, _, hentries, h⟩ := h
  obtain rfl := Except.pure_eq_ok.1 h
  have hentry := forM_eq_ok hentries
  simp only [Except.bind_eq_ok, refuseIf_eq_ok] at hentry
  have hwithdraw : KeepsAuthority db (withdraw now workspaceId listing db) :=
    ⟨rfl, rfl, rfl, rfl, rfl, rfl⟩
  refine ⟨hwithdraw.trans (foldl_writeTemplate_authority now workspaceId user listing _),
    fun id => ?_⟩
  -- a listed row is not withdrawn, so it still has the place that was checked
  have hlisted : id ∈ listing.map (·.1.id) →
      (withdraw now workspaceId listing db).connections.get id = db.connections.get id ∧
      ∀ c, db.connections.get id = some c → c.workspaceId = workspaceId := by
    intro hmem
    constructor
    · rcases get_withdraw now workspaceId listing db id with ⟨heq, -⟩ | ⟨hnot, -⟩
      · exact heq
      · exact absurd hmem hnot
    · obtain ⟨entry, he, rfl⟩ := List.mem_map.1 hmem
      intro c hc
      obtain ⟨-, -, hplace⟩ := hentry entry he
      rw [hc] at hplace
      simpa using hplace
  have hplace : id ∈ listing.map (·.1.id) → ∀ c,
      (withdraw now workspaceId listing db).connections.get id = some c →
        c.workspaceId = workspaceId := by
    intro hmem c hc
    exact (hlisted hmem).2 c ((hlisted hmem).1 ▸ hc)
  rcases get_foldl_writeTemplate now user hplace with
    ⟨hnot, hrow, hbindings⟩ | ⟨entry, he, rfl, c', hc', hholds⟩
  · rcases get_withdraw now workspaceId listing db id with
      ⟨hrow', hbindings'⟩ | ⟨-, c, hc, hremote, hsame, hnone⟩
    · exact .kept (hrow.trans hrow') fun u => (hbindings u).trans (hbindings' u)
    · exact .dropped c hc hremote (fun c' hc' => hsame c' (hrow ▸ hc')) fun u =>
        (hbindings u).trans (hnone u)
  · obtain ⟨hsame, hworkspace⟩ := hlisted (List.mem_map.2 ⟨entry, he, rfl⟩)
    refine .listed c' entry he rfl hc' hholds.remote ?_ hholds.redacted hholds.revision ?_
    · obtain ⟨-, haccess, -⟩ := hentry entry he
      rw [hholds.access]
      exact fun hlocal => haccess (.inl hlocal)
    · intro c hc
      exact ⟨hholds.workspaceId.trans (hworkspace c hc).symm,
        hholds.accountUserId c (hsame.trans hc)⟩

/-! ### Bindings and purges -/

theorem connectionStep_bindConnectionCredentials {listing : List (ConnectionProfile × ℤ)}
    {now : DateTime} {id : Uuid} {user : UserId} {username extraParams : String}
    {secretRef : Option String} {db db' : Database}
    (h : bindConnectionCredentials now id user username extraParams secretRef db = .ok db') :
    KeepsAuthority db db' ∧ ∀ id, ConnectionStep listing db db' id := by
  unfold bindConnectionCredentials at h
  split at h
  · cases h
  rename_i c hc
  simp only [Except.bind_eq_ok] at h
  obtain ⟨-, -, -, -, h⟩ := h
  obtain rfl := Except.pure_eq_ok.1 h
  obtain ⟨hc, hshared⟩ := Option.filter_eq_some_iff.1 hc
  simp only [decide_eq_true_eq] at hshared
  refine ⟨⟨rfl, rfl, rfl, rfl, rfl, rfl⟩, fun id' => ?_⟩
  by_cases hid : id' = id
  · subst hid
    exact .shared c c hc hshared.2.1 hc ⟨hshared.2.1, rfl, rfl, rfl, rfl, rfl⟩
  · refine .kept rfl fun u => ?_
    rw [Table.get_upsert, if_neg]
    rintro heq
    exact hid (Prod.mk.inj heq).1

theorem connectionStep_purgeRemoteConnectionCache (listing : List (ConnectionProfile × ℤ))
    (workspaceId connection : Uuid) (db : Database) :
    KeepsAuthority db (purgeRemoteConnectionCache workspaceId connection db) ∧
      ∀ id, ConnectionStep listing db (purgeRemoteConnectionCache workspaceId connection db)
        id := by
  unfold purgeRemoteConnectionCache
  split
  · rename_i hshared
    obtain ⟨c, hc, hplace⟩ := (Option.any_eq_true _ _).1 hshared
    have hremote : c.remote = true := (of_decide_eq_true hplace).2
    refine ⟨⟨rfl, rfl, rfl, rfl, rfl, rfl⟩, fun id => ?_⟩
    by_cases hid : id = connection
    · subst hid
      refine .dropped c hc hremote (fun c' hc' => ?_) fun u => ?_
      · rw [Table.get_filterRows_of_drop fun _ => by simp] at hc'
        cases hc'
      · exact Table.get_filterRows_of_drop fun _ => by simp
    · exact .kept (Table.get_filterRows_of_keep fun _ => by simp [hid]) fun u =>
        Table.get_filterRows_of_keep fun _ => by simp [hid]
  · exact ⟨.refl db, fun id => .of_eq rfl rfl⟩

/-! ### The step and run invariants -/

/-- What holds in every state of a run. -/
structure StoreOk (template : Uuid → ℤ → ConnectionProfile) (db : Database) : Prop where
  scope : ScopeOk db
  members : MembersOk db
  shared : ∀ id c, db.connections.get id = some c → c.remote = true →
    c.workspaceAccess ≠ .local_ ∧ c.toConnectionProfile.redacted = template id c.revision
  bound : ∀ id u b, db.bindings.get (id, u) = some b →
    ∃ c, db.connections.get id = some c ∧ c.remote = true

/-- Everything a committed operation does. -/
structure OpStep (op : Op) (db db' : Database) : Prop where
  scope : ScopeOk db'
  advances : Advances db db'
  members : MembersOk db'
  connection : ∀ id, ConnectionStep op.listing db db' id

section

variable {sha256 : List UInt8 → Vector UInt8 32} {template : Uuid → ℤ → ConnectionProfile}

theorem KeepsAuthority.opStep {op : Op} {db db' : Database} (h : KeepsAuthority db db')
    (hconnection : ∀ id, ConnectionStep op.listing db db' id) (hscope : ScopeOk db)
    (hmembers : MembersOk db) : OpStep op db db' :=
  ⟨h.scopeOk hscope, h.advances, hmembers.of_eq h.workspaces h.members, hconnection⟩

theorem opStep_of_apply {op : Op} {db db' : Database} (hop : op.Assumed template db)
    (hscope : ScopeOk db) (hmembers : MembersOk db) (h : op.apply sha256 db = .ok db') :
    OpStep op db db' := by
  have hartifacts : ∀ {catalogs legacyCatalogs history dashboards}, db' = { db with
      catalogs := catalogs
      legacyCatalogs := legacyCatalogs
      history := history
      dashboards := dashboards } → OpStep op db db' := by
    rintro _ _ _ _ rfl
    exact KeepsAuthority.opStep ⟨rfl, rfl, rfl, rfl, rfl, rfl⟩ (fun _ => .of_eq rfl rfl) hscope
      hmembers
  cases op with
  | scope call index =>
    rw [Op.apply.eq_1] at h
    cases ht : call.transactions[index]? with
    | none =>
      rw [ht] at h
      exact hartifacts (Except.ok.inj h).symm
    | some t =>
      rw [ht] at h
      have hmem := List.mem_of_getElem? ht
      obtain ⟨hscope', hadvances⟩ := respects_of_mem_transactions hmem db db' hscope h
      obtain ⟨hmembers', hconnection⟩ := connectionStep_of_transaction hmem h hmembers
      exact ⟨hscope', hadvances, hmembers', hconnection⟩
  | upsertConnection now p =>
    obtain ⟨hkeeps, hconnection⟩ := connectionStep_upsertConnection h
    exact hkeeps.opStep hconnection hscope hmembers
  | setConnectionsSchemaGroup now ids schemaGroup =>
    have hedits := edits_setConnectionsSchemaGroup hop.editsLocal h
    exact hedits.authority.opStep hedits.connectionStep hscope hmembers
  | deleteConnection now id =>
    have hedits := edits_deleteConnection (hop.editsLocal id (List.mem_singleton_self id)) h
    exact hedits.authority.opStep hedits.connectionStep hscope hmembers
  | syncRemoteConnections now workspaceId user listing =>
    obtain ⟨hkeeps, hconnection⟩ := connectionStep_syncRemoteConnections h
    exact hkeeps.opStep hconnection hscope hmembers
  | bindConnectionCredentials now id user username extraParams secretRef =>
    obtain ⟨hkeeps, hconnection⟩ := connectionStep_bindConnectionCredentials h
    exact hkeeps.opStep hconnection hscope hmembers
  | purgeRemoteConnectionCache workspaceId connection =>
    obtain rfl := Except.ok.inj h
    obtain ⟨hkeeps, hconnection⟩ :=
      connectionStep_purgeRemoteConnectionCache [] workspaceId connection db
    exact hkeeps.opStep hconnection hscope hmembers
  | putCatalogIfCurrent pin snapshot =>
    obtain ⟨⟨outcome, db₁⟩, hput, rfl⟩ := Except.map_eq_ok.1 h
    rcases putCatalogIfCurrent_spec hput with ⟨-, rfl⟩ | ⟨-, row, -, rfl⟩
    · exact hartifacts rfl
    · exact hartifacts rfl
  | insertHistoryIfCurrent pin entry =>
    obtain ⟨-, -, rfl⟩ := insertHistoryIfCurrent_spec h
    exact hartifacts rfl
  | saveDashboardIfCurrent id now pin draft =>
    obtain ⟨⟨row, db₁⟩, hsave, rfl⟩ := Except.map_eq_ok.1 h
    obtain ⟨-, -, -, rfl⟩ := saveDashboardIfCurrent_spec hsave
    exact hartifacts rfl

/-- A row that is shared after the step holds a template of the server, and a binding is one of a
shared row. -/
theorem StoreOk.step {op : Op} {db db' : Database} (hop : op.Assumed template db)
    (hok : StoreOk template db) (h : OpStep op db db') : StoreOk template db' := by
  refine ⟨h.scope, h.members, fun id c' hc' hremote => ?_, fun id u b hb => ?_⟩
  · cases h.connection id with
    | kept hrow _ => exact hok.shared id c' (hrow ▸ hc') hremote
    | created c₁ _ hrow' hlocal' _ =>
      rw [Option.some.inj (hc'.symm.trans hrow'), hlocal'] at hremote
      cases hremote
    | edited c c₁ _ _ hrow' hlocal' _ _ =>
      rw [Option.some.inj (hc'.symm.trans hrow'), hlocal'] at hremote
      cases hremote
    | claimed c user _ hlocal _ _ hrow' _ =>
      rw [Option.some.inj (hc'.symm.trans hrow')] at hremote
      exact absurd (hlocal.symm.trans hremote) Bool.false_ne_true
    | shared c c₁ hrow hremote₀ hrow' hsame =>
      obtain rfl := Option.some.inj (hc'.symm.trans hrow')
      rw [hsame.access, hsame.redacted, hsame.revision]
      exact hok.shared id c hrow hremote₀
    | dropped c hrow hremote₀ hrow' _ =>
      have hsame := hrow' c' hc'
      rw [hsame.access, hsame.redacted, hsame.revision]
      exact hok.shared id c hrow hremote₀
    | listed c₁ entry hentry hid hrow' _ haccess' hredacted hrevision _ =>
      obtain rfl := Option.some.inj (hc'.symm.trans hrow')
      refine ⟨haccess', ?_⟩
      rw [hredacted, hrevision, ← hid]
      exact hop.templates entry hentry
  · -- a local row has no binding before the step, and the step gives it none
    have hlocalNone : ∀ c, db.connections.get id = some c → c.remote = false →
        db'.bindings.get (id, u) = db.bindings.get (id, u) → False := by
      intro c hc hlocal heq
      obtain ⟨c₂, hc₂, hremote⟩ := hok.bound id u b (heq ▸ hb)
      rw [Option.some.inj (hc₂.symm.trans hc), hlocal] at hremote
      cases hremote
    cases h.connection id with
    | kept hrow hbindings =>
      rw [hrow]
      exact hok.bound id u b (hbindings u ▸ hb)
    | created c₁ hrow _ _ hbindings =>
      obtain ⟨c₂, hc₂, -⟩ := hok.bound id u b (hbindings u ▸ hb)
      rw [hrow] at hc₂
      cases hc₂
    | edited c c₁ hrow hlocal _ _ _ hbindings =>
      exact (hlocalNone c hrow hlocal (hbindings u)).elim
    | claimed c user hrow hlocal _ _ _ hbindings =>
      exact (hlocalNone c hrow hlocal (hbindings u)).elim
    | shared c c₁ _ _ hrow' hsame => exact ⟨c₁, hrow', hsame.remote⟩
    | dropped c _ _ _ hnone =>
      rw [hnone u] at hb
      cases hb
    | listed c₁ entry _ _ hrow' hremote' _ _ _ _ => exact ⟨c₁, hrow', hremote'⟩

/-- The run lemma. -/
theorem storeOk_run {ops : List Op} {db : Database}
    (hops : Along (Op.apply sha256) (Op.Assumed template) ops db) (hok : StoreOk template db) :
    StoreOk template (run (Op.apply sha256) ops db) :=
  run_invariant (fun _ _ _ hop hok h => hok.step hop (opStep_of_apply hop hok.scope hok.members h))
    hops hok

theorem storeOk_freshStore (now : DateTime) : StoreOk template (freshStore now) where
  scope := by
    obtain ⟨hok, -⟩ := repair_spec (repairActiveScopeOnOpen_freshStore now)
      (seeded_freshStore now).personal (seeded_freshStore now).generation
    exact hok
  members := by
    refine ⟨fun id w hw _ => ?_, fun user => rfl⟩
    by_contra hne
    rw [freshStore, Table.get_put_of_ne _ _ hne] at hw
    cases hw
  shared := by
    rintro id c ⟨⟩
  bound := by
    rintro id u b ⟨⟩

end

end Store
end AgentDb
