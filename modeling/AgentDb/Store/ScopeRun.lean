import AgentDb.Lib.Commits
import AgentDb.Store.Scope

/-!
# The active scope over any run

`ScopeOk` is what every committed transaction leaves behind: the active workspace is usable with
the selected account, which is remembered. `Advances` is what it does to the generation. Both are
shown for each transaction, and the rules of `Commits` carry them over every sequence of calls,
each of which may stop after any of its transactions.
-/

namespace AgentDb
namespace Store

open Sorting

/-- The active workspace and the selected account. -/
def Database.scope (db : Database) : Option Uuid × Option UserId :=
  (db.activeWorkspaceId, db.activeAccountId)

/-- The Personal Workspace is there, as the migrations put it. -/
def Database.PersonalActive (db : Database) : Prop :=
  ∃ w, db.workspaces.get personalWorkspaceId = some w ∧ w.kind = .personal ∧
    w.lifecycleState = .active

/-- The active scope is usable, and the selected account is remembered. -/
structure ScopeOk (db : Database) : Prop where
  valid : ∃ id, db.activeWorkspaceId = some id ∧ db.scopeValid id db.activeAccountId = true
  remembered : ∀ user, db.activeAccountId = some user → (db.accounts.get user).isSome
  generation : db.generation.isSome
  personal : db.PersonalActive

/-- The generation goes up whenever the scope changes, and never down. -/
structure Advances (db db' : Database) : Prop where
  le : db.generation.getD 0 ≤ db'.generation.getD 0
  lt : db.scope ≠ db'.scope → db.generation.getD 0 < db'.generation.getD 0

theorem Advances.of_eq {db db' : Database} (hscope : db.scope = db'.scope)
    (hgeneration : db.generation = db'.generation) : Advances db db' :=
  ⟨by rw [hgeneration], fun h => absurd hscope h⟩

theorem Advances.of_lt {db db' : Database}
    (h : db.generation.getD 0 < db'.generation.getD 0) : Advances db db' :=
  ⟨h.le, fun _ => h⟩

theorem bumpActiveScopeGeneration_eq_ok {db db' : Database}
    (h : bumpActiveScopeGeneration db = .ok db') :
    db' = { db with generation := some (db.generation.getD 0 + 1) } := by
  unfold bumpActiveScopeGeneration at h
  dsimp only at h
  split at h
  · exact (Except.ok.inj h).symm
  · cases h

/-! ### Queries -/

theorem activeWorkspace_eq_some {db : Database} {id : Uuid} {w : Workspace} :
    db.activeWorkspace id = some w ↔
      db.workspaces.get id = some w ∧ w.lifecycleState = .active := by
  rw [Database.activeWorkspace, Option.filter_eq_some_iff, decide_eq_true_eq]

theorem activeMember_iff {db : Database} {id : Uuid} {user : UserId} :
    db.activeMember id user = true ↔
      ∃ m, db.members.get (id, user) = some m ∧ m.status = .active := by
  rw [Database.activeMember, Option.any_eq_true]
  simp only [decide_eq_true_eq]

theorem scopeValid_iff {db : Database} {id : Uuid} {account : Option UserId} :
    db.scopeValid id account = true ↔ ∃ w, db.workspaces.get id = some w ∧
      w.lifecycleState = .active ∧
      (w.kind = .personal ∨ ∃ user, account = some user ∧ db.activeMember id user = true) := by
  rw [Database.scopeValid, Option.any_eq_true]
  simp only [activeWorkspace_eq_some, decide_eq_true_eq, Option.any_eq_true, and_assoc]

theorem scopeValid_personal {db : Database} (h : db.PersonalActive) (account : Option UserId) :
    db.scopeValid personalWorkspaceId account = true := by
  obtain ⟨w, hw, hkind, hactive⟩ := h
  exact scopeValid_iff.2 ⟨w, hw, hactive, .inl hkind⟩

theorem scopeValid_of_activeMember {db : Database} {id : Uuid} {user : UserId}
    (hmember : db.activeMember id user = true) (hactive : (db.activeWorkspace id).isSome) :
    db.scopeValid id (some user) = true := by
  obtain ⟨w, hw⟩ := Option.isSome_iff_exists.1 hactive
  obtain ⟨hw, hstate⟩ := activeWorkspace_eq_some.1 hw
  exact scopeValid_iff.2 ⟨w, hw, hstate, .inr ⟨user, rfl, hmember⟩⟩

/-- A fallback is a workspace the account can use. -/
theorem scopeValid_fallbackWorkspace {db : Database} {user : UserId} {id : Uuid}
    (h : db.fallbackWorkspace user = some id) : db.scopeValid id (some user) = true := by
  rw [Database.fallbackWorkspace] at h
  rcases (Option.orElse_eq_some _ _ _).1 h with hlast | ⟨-, hfirst⟩
  · obtain ⟨-, hlast⟩ := Option.filter_eq_some_iff.1 hlast
    rw [Bool.and_eq_true] at hlast
    exact scopeValid_of_activeMember hlast.1 hlast.2
  · obtain ⟨⟨id', w⟩, hhead, rfl⟩ := Option.map_eq_some_iff.1 hfirst
    have hmem := (sortBy_perm _ _).subset (List.mem_of_mem_head? hhead)
    obtain ⟨⟨⟨id'', user'⟩, m⟩, hrow, hentry⟩ := List.mem_filterMap.1 hmem
    split_ifs at hentry with hm
    obtain ⟨rfl, hstatus⟩ := hm
    obtain ⟨w', hw', heq⟩ := Option.map_eq_some_iff.1 hentry
    obtain ⟨rfl, rfl⟩ := Prod.mk.inj heq
    exact scopeValid_of_activeMember
      (activeMember_iff.2 ⟨m, Table.mem_rows_iff.1 hrow, hstatus⟩) (Option.isSome_of_mem hw')

theorem isSome_of_lastUsedAccount {db : Database} {user : UserId}
    (h : db.lastUsedAccount = some user) : (db.accounts.get user).isSome := by
  obtain ⟨⟨user', account⟩, hhead, rfl⟩ := Option.map_eq_some_iff.1 h
  have hmem := (sortBy_perm _ _).subset (List.mem_of_mem_head? hhead)
  rw [Table.mem_rows_iff.1 hmem]
  rfl

/-! ### Repair -/

/-- The second half leaves a usable scope, with a new generation if anything was repaired. -/
theorem repairWorkspace_spec {now : DateTime} {accountRepaired : Bool} {current : Uuid}
    {db db' : Database} (h : repairWorkspace now accountRepaired current db = .ok db')
    (hcurrent : db.activeWorkspaceId = some current)
    (hremembered : ∀ user, db.activeAccountId = some user → (db.accounts.get user).isSome)
    (hpersonal : db.PersonalActive) (hgeneration : db.generation.isSome) :
    ScopeOk db' ∧ (db' = db ∧ accountRepaired = false ∨
      db'.generation = some (db.generation.getD 0 + 1)) := by
  unfold repairWorkspace at h
  by_cases hvalid : db.scopeValid current db.activeAccountId = true
  · rw [if_pos hvalid] at h
    cases accountRepaired with
    | true =>
      rw [bumpActiveScopeGeneration_eq_ok h]
      exact ⟨⟨⟨current, hcurrent, hvalid⟩, hremembered, rfl, hpersonal⟩, .inr rfl⟩
    | false =>
      obtain rfl := Except.ok.inj h
      exact ⟨⟨⟨current, hcurrent, hvalid⟩, hremembered, hgeneration, hpersonal⟩,
        .inl ⟨rfl, rfl⟩⟩
  · rw [if_neg hvalid] at h
    rw [bumpActiveScopeGeneration_eq_ok h]
    refine ⟨⟨⟨_, rfl, ?_⟩, ?_, rfl, hpersonal⟩, .inr rfl⟩
    · show db.scopeValid ((db.activeAccountId.bind db.fallbackWorkspace).getD
        personalWorkspaceId) db.activeAccountId = true
      cases hfallback : db.activeAccountId.bind db.fallbackWorkspace with
      | none => exact scopeValid_personal hpersonal _
      | some id =>
        obtain ⟨user, huser, hid⟩ := Option.bind_eq_some_iff.1 hfallback
        rw [huser]
        exact scopeValid_fallbackWorkspace hid
    · intro user huser
      rw [Table.get_mapRows, Option.isSome_map]
      exact hremembered user huser

theorem repair_spec {now : DateTime} {db db' : Database}
    (h : repairActiveScopeAfterMembershipChange now db = .ok db') (hpersonal : db.PersonalActive)
    (hgeneration : db.generation.isSome) : ScopeOk db' ∧ Advances db db' := by
  unfold repairActiveScopeAfterMembershipChange at h
  split at h
  · cases h
  rename_i current hcurrent
  split at h
  · obtain ⟨hok, ⟨-, hfalse⟩ | hnext⟩ :=
      repairWorkspace_spec h hcurrent (by simp) hpersonal hgeneration
    · cases hfalse
    · refine ⟨hok, .of_lt ?_⟩
      rw [hnext]
      exact Nat.lt_succ_self _
  · rename_i hrepaired
    have hremembered : ∀ user, db.activeAccountId = some user → (db.accounts.get user).isSome := by
      intro user huser
      rw [huser, Option.any_some, Option.isNone_iff_eq_none] at hrepaired
      exact Option.isSome_iff_ne_none.2 hrepaired
    obtain ⟨hok, ⟨rfl, -⟩ | hnext⟩ :=
      repairWorkspace_spec h hcurrent hremembered hpersonal hgeneration
    · exact ⟨hok, .of_eq rfl rfl⟩
    · refine ⟨hok, .of_lt ?_⟩
      rw [hnext]
      exact Nat.lt_succ_self _

/-! ### Transactions -/

/-- What every statement of a membership sync leaves alone. -/
structure KeepsScope (db db' : Database) : Prop where
  scope : db'.scope = db.scope
  generation : db'.generation = db.generation
  personal : db.PersonalActive → db'.PersonalActive

theorem KeepsScope.refl (db : Database) : KeepsScope db db := ⟨rfl, rfl, id⟩

theorem KeepsScope.trans {a b c : Database} (h₁ : KeepsScope a b) (h₂ : KeepsScope b c) :
    KeepsScope a c :=
  ⟨h₂.scope.trans h₁.scope, h₂.generation.trans h₁.generation, h₂.personal ∘ h₁.personal⟩

/-- A statement that writes neither the settings nor the workspaces. -/
theorem KeepsScope.of_eq {db db' : Database} (hid : db'.activeWorkspaceId = db.activeWorkspaceId)
    (haccount : db'.activeAccountId = db.activeAccountId)
    (hgeneration : db'.generation = db.generation) (hworkspaces : db'.workspaces = db.workspaces) :
    KeepsScope db db' :=
  ⟨by rw [Database.scope, Database.scope, hid, haccount], hgeneration, fun h => by
    rw [Database.PersonalActive, hworkspaces]
    exact h⟩

theorem keepsScope_archiveMemberships (user : UserId) (db : Database) :
    KeepsScope db (archiveMemberships user db) := .of_eq rfl rfl rfl rfl

theorem keepsScope_claimLegacyConnections (user : UserId) (db : Database) :
    KeepsScope db (claimLegacyConnections user db) := .of_eq rfl rfl rfl rfl

theorem keepsScope_clearGlobalCredentials (user : UserId) (db : Database) :
    KeepsScope db (clearGlobalCredentials user db) := .of_eq rfl rfl rfl rfl

theorem keepsScope_forgetLastWorkspace (user : UserId) (db : Database) :
    KeepsScope db (forgetLastWorkspace user db) := .of_eq rfl rfl rfl rfl

theorem keepsScope_joinWorkspace (now : DateTime) (user : WorkspaceAuthUser) (db : Database)
    (entry : Uuid × String × WorkspaceRole) : KeepsScope db (joinWorkspace now user db entry) := by
  refine ⟨rfl, rfl, ?_⟩
  rintro ⟨w, hw, hkind, hactive⟩
  by_cases hid : personalWorkspaceId = entry.1
  · refine ⟨w, ?_, hkind, hactive⟩
    simp only [joinWorkspace]
    rw [Table.get_upsert, if_pos hid, ← hid, hw, Option.elim_some, if_neg (by simp [hkind])]
  · refine ⟨w, ?_, hkind, hactive⟩
    simp only [joinWorkspace]
    rw [Table.get_upsert, if_neg hid, hw]

theorem keepsScope_inheritBinding (now : DateTime) (user : UserId) (db : Database)
    (entry : Uuid × Connection) : KeepsScope db (inheritBinding now user db entry) := by
  unfold inheritBinding
  dsimp only
  split
  · exact .of_eq rfl rfl rfl rfl
  · exact .refl db

theorem keepsScope_foldl {α : Type} {f : Database → α → Database}
    (hf : ∀ db a, KeepsScope db (f db a)) (l : List α) (db : Database) :
    KeepsScope db (l.foldl f db) := by
  induction l generalizing db with
  | nil => exact .refl db
  | cons a l ih => exact (hf db a).trans (ih (f db a))

theorem keepsScope_claimArtifacts {user : UserId} {db db' : Database}
    (h : claimArtifacts user db = .ok db') : KeepsScope db db' := by
  unfold claimArtifacts at h
  dsimp only at h
  split at h
  · obtain rfl := Except.ok.inj h
    exact .of_eq rfl rfl rfl rfl
  · cases h

theorem keepsScope_archiveEmptyTeams (now : DateTime) (db : Database) :
    KeepsScope db (archiveEmptyTeams now db) := by
  refine ⟨rfl, rfl, ?_⟩
  rintro ⟨w, hw, hkind, hactive⟩
  refine ⟨w, ?_, hkind, hactive⟩
  simp only [archiveEmptyTeams]
  rw [Table.get_mapRows, hw, Option.map_some, if_neg (by simp [hkind])]

theorem syncMemberships_spec {now : DateTime} {user : WorkspaceAuthUser}
    {workspaces : List (Uuid × String × WorkspaceRole)} {db db' : Database}
    (h : syncMemberships now user workspaces db = .ok db') (hok : ScopeOk db) :
    ScopeOk db' ∧ Advances db db' := by
  simp only [syncMemberships, Except.bind_eq_ok] at h
  obtain ⟨claimed, hclaimed, h⟩ := h
  have hjoined := (keepsScope_archiveMemberships user.id db).trans
    (keepsScope_foldl (keepsScope_joinWorkspace now user) workspaces _)
  generalize List.foldl (joinWorkspace now user) _ workspaces = joined at hclaimed hjoined
  have hinherited := (keepsScope_claimLegacyConnections user.id joined).trans
    (keepsScope_foldl (keepsScope_inheritBinding now user.id)
      (claimLegacyConnections user.id joined).connections.rows _)
  have hartifacts := (keepsScope_clearGlobalCredentials user.id _).trans
    (keepsScope_claimArtifacts hclaimed)
  have hforgotten := (keepsScope_archiveEmptyTeams now claimed).trans
    (keepsScope_forgetLastWorkspace user.id _)
  have hkeeps := (hjoined.trans hinherited).trans (hartifacts.trans hforgotten)
  obtain ⟨hrepaired, hadvances⟩ := repair_spec h (hkeeps.personal hok.personal)
    (by rw [hkeeps.generation]; exact hok.generation)
  refine ⟨hrepaired, ?_, ?_⟩
  · rw [← hkeeps.generation]
    exact hadvances.le
  · rw [← hkeeps.generation, ← hkeeps.scope]
    exact hadvances.lt

theorem rememberWorkspaceAccount_spec (now : DateTime) (user : WorkspaceAuthUser) {db : Database}
    (hok : ScopeOk db) : ScopeOk (rememberWorkspaceAccount now user db) ∧
      Advances db (rememberWorkspaceAccount now user db) := by
  refine ⟨⟨hok.valid, ?_, hok.generation, hok.personal⟩, .of_eq rfl rfl⟩
  intro u hu
  simp only [rememberWorkspaceAccount]
  rw [Table.get_upsert]
  split
  · rfl
  · exact hok.remembered u hu

theorem activateWorkspace_spec {now : DateTime} {id : Uuid} {account : Option UserId}
    {db db' : Database} (h : activateWorkspace now id account db = .ok db') (hok : ScopeOk db) :
    ScopeOk db' ∧ Advances db db' := by
  unfold activateWorkspace at h
  split at h
  · cases h
  · rename_i workspace user hworkspace
    obtain ⟨hw, hactive⟩ := activeWorkspace_eq_some.1 hworkspace
    split at h
    · cases h
    rename_i hremembered
    split at h
    · cases h
    rename_i hmember
    rw [bumpActiveScopeGeneration_eq_ok h]
    refine ⟨⟨⟨id, rfl, scopeValid_iff.2 ⟨workspace, hw, hactive, ?_⟩⟩, ?_, rfl, hok.personal⟩,
      .of_lt (Nat.lt_succ_self _)⟩
    · cases hkind : workspace.kind with
      | personal => exact .inl rfl
      | team =>
        have hactiveMember : db.activeMember id user = true := by simpa [hkind] using hmember
        exact .inr ⟨user, rfl, hactiveMember⟩
    · rintro u ⟨⟩
      rw [Table.get_mapRows, Option.isSome_map, Option.isSome_iff_ne_none]
      simpa using hremembered
  · rename_i workspace hworkspace
    obtain ⟨hw, hactive⟩ := activeWorkspace_eq_some.1 hworkspace
    split at h
    · cases h
    rename_i hteam
    rw [bumpActiveScopeGeneration_eq_ok h]
    refine ⟨⟨⟨id, rfl, scopeValid_iff.2 ⟨workspace, hw, hactive, .inl ?_⟩⟩, by simp, rfl,
      hok.personal⟩, .of_lt (Nat.lt_succ_self _)⟩
    cases hkind : workspace.kind with
    | personal => rfl
    | team => exact absurd hkind hteam

/-- Removing another account leaves the memberships of the selected one, so its team stays. -/
theorem removeWorkspaceAccount_spec {now : DateTime} {user : UserId} {db db' : Database}
    (h : removeWorkspaceAccount now user db = .ok db') (hok : ScopeOk db) :
    ScopeOk db' ∧ Advances db db' := by
  unfold removeWorkspaceAccount at h
  dsimp only at h
  have hpersonal := (keepsScope_archiveEmptyTeams now { db with
    members := db.members.filterRows fun key _ => key.2 ≠ user
    accounts := db.accounts.filterRows fun key _ => key ≠ user }).personal hok.personal
  split at h
  · split at h
    · rename_i fallback hfallback
      rw [bumpActiveScopeGeneration_eq_ok h]
      refine ⟨⟨⟨_, rfl, ?_⟩, ?_, rfl, hpersonal⟩, .of_lt (Nat.lt_succ_self _)⟩
      · generalize hchosen : Database.fallbackWorkspace _ fallback = chosen
        cases chosen with
        | none => exact scopeValid_personal hpersonal _
        | some id => exact scopeValid_fallbackWorkspace hchosen
      · rintro u ⟨⟩
        exact isSome_of_lastUsedAccount hfallback
    · rw [bumpActiveScopeGeneration_eq_ok h]
      exact ⟨⟨⟨_, rfl, scopeValid_personal hpersonal _⟩, by simp, rfl, hpersonal⟩,
        .of_lt (Nat.lt_succ_self _)⟩
  · rename_i hother
    obtain rfl := Except.ok.inj h
    have hne : ∀ u, db.activeAccountId = some u → u ≠ user := by
      rintro u hu rfl
      exact hother hu
    obtain ⟨id, hid, hvalid⟩ := hok.valid
    obtain ⟨w, hw, hactive, husable⟩ := scopeValid_iff.1 hvalid
    refine ⟨⟨⟨id, hid, scopeValid_iff.2 ⟨w, ?_, hactive, ?_⟩⟩, ?_, hok.generation, hpersonal⟩,
      .of_eq rfl rfl⟩
    · simp only [archiveEmptyTeams]
      rw [Table.get_mapRows, hw, Option.map_some, if_neg]
      rintro ⟨hteam, hempty⟩
      rcases husable with hkind | ⟨u, hu, hmember⟩
      · rw [hkind] at hteam
        cases hteam
      · obtain ⟨m, hm, hstatus⟩ := activeMember_iff.1 hmember
        refine hempty (Table.any_eq_true.2 ⟨(id, u), m, ?_, by simp [hstatus]⟩)
        rw [Table.get_filterRows, hm]
        simp [hne u hu]
    · refine husable.imp_right ?_
      rintro ⟨u, hu, hmember⟩
      obtain ⟨m, hm, hstatus⟩ := activeMember_iff.1 hmember
      refine ⟨u, hu, activeMember_iff.2 ⟨m, ?_, hstatus⟩⟩
      simp only [archiveEmptyTeams]
      rw [Table.get_filterRows, hm]
      simp [hne u hu]
    · intro u hu
      obtain ⟨a, ha⟩ := Option.isSome_iff_exists.1 (hok.remembered u hu)
      simp only [archiveEmptyTeams]
      rw [Table.get_filterRows, ha]
      simp [hne u hu]

/-! ### Calls -/

/-- `repair_active_scope_on_open`. -/
def repairActiveScopeOnOpen (now : DateTime) (db : Database) : AppResult Database :=
  repairActiveScopeAfterMembershipChange now db

/-- A call of one of the operations that touch the scope, with the times it reads. -/
inductive Call
  | open_ (now : DateTime)
  | rememberWorkspaceAccount (now : DateTime) (user : WorkspaceAuthUser)
  | syncAccountWorkspaces (remembered now : DateTime) (user : WorkspaceAuthUser)
      (workspaces : List (Uuid × String × WorkspaceRole))
  | activateWorkspace (now : DateTime) (id : Uuid) (account : Option UserId)
  | activateWorkspaceAccount (now : DateTime) (user : UserId)
  | removeWorkspaceAccount (now : DateTime) (user : UserId)

/-- The transactions of a call. A membership sync has two, after a check. -/
def Call.transactions : Call → List (Database → AppResult Database)
  | .open_ now => [repairActiveScopeOnOpen now]
  | .rememberWorkspaceAccount now user =>
      [fun db => .ok (Store.rememberWorkspaceAccount now user db)]
  | .syncAccountWorkspaces remembered now user workspaces =>
      if workspaces.any fun entry => entry.1 = personalWorkspaceId then
        [fun _ => .error (.config "remote workspace conflicts with the Personal Workspace")]
      else
        [fun db => .ok (Store.rememberWorkspaceAccount remembered user db),
          syncMemberships now user workspaces]
  | .activateWorkspace now id account => [Store.activateWorkspace now id account]
  | .activateWorkspaceAccount now user => [Store.activateWorkspaceAccount now user]
  | .removeWorkspaceAccount now user => [Store.removeWorkspaceAccount now user]

/-- What the migrations put into a store: the Personal Workspace and the generation. -/
structure Seeded (db : Database) : Prop where
  personal : db.PersonalActive
  generation : db.generation.isSome

/-- A store as the migrations leave it, with the Personal Workspace active. -/
def freshStore (now : DateTime) : Database where
  activeWorkspaceId := some personalWorkspaceId
  activeAccountId := none
  generation := some 0
  workspaces := Table.empty.put personalWorkspaceId
    ⟨"Personal Workspace", .personal, .active, now, now⟩
  members := Table.empty
  accounts := Table.empty
  connections := Table.empty
  bindings := Table.empty
  safety := Table.empty
  legacyCatalogs := []
  catalogs := Table.empty
  history := []
  dashboards := []

theorem seeded_freshStore (now : DateTime) : Seeded (freshStore now) :=
  ⟨⟨_, Table.get_put_self _ _ _, rfl, rfl⟩, rfl⟩

theorem repairActiveScopeOnOpen_freshStore (now : DateTime) :
    repairActiveScopeOnOpen now (freshStore now) = .ok (freshStore now) := by
  show repairWorkspace now false personalWorkspaceId (freshStore now) = _
  unfold repairWorkspace
  rw [if_pos (scopeValid_personal (seeded_freshStore now).personal _)]
  rfl

/-- The states committed after a store is opened, each call stopped after some of its
transactions at the latest. -/
def committedStates (calls : List (Call × ℕ)) (db : Database) : List Database :=
  db :: Commits.history (calls.map fun c => c.1.transactions.take c.2) db

theorem respects_of_mem_transactions {call : Call} {t : Database → AppResult Database}
    (ht : t ∈ call.transactions) : Commits.Respects ScopeOk Advances t := by
  intro db db' hok h
  cases call with
  | open_ now =>
    obtain rfl := List.mem_singleton.1 ht
    exact repair_spec h hok.personal hok.generation
  | rememberWorkspaceAccount now user =>
    obtain rfl := List.mem_singleton.1 ht
    rw [← Except.ok.inj h]
    exact rememberWorkspaceAccount_spec now user hok
  | syncAccountWorkspaces remembered now user workspaces =>
    rw [Call.transactions] at ht
    split at ht
    · obtain rfl := List.mem_singleton.1 ht
      cases h
    · rcases List.mem_cons.1 ht with rfl | ht
      · rw [← Except.ok.inj h]
        exact rememberWorkspaceAccount_spec remembered user hok
      · obtain rfl := List.mem_singleton.1 ht
        exact syncMemberships_spec h hok
  | activateWorkspace now id account =>
    obtain rfl := List.mem_singleton.1 ht
    exact activateWorkspace_spec h hok
  | activateWorkspaceAccount now user =>
    obtain rfl := List.mem_singleton.1 ht
    exact activateWorkspace_spec h hok
  | removeWorkspaceAccount now user =>
    obtain rfl := List.mem_singleton.1 ht
    exact removeWorkspaceAccount_spec h hok

theorem committedStates_spec (calls : List (Call × ℕ)) {db : Database} (hok : ScopeOk db) :
    (∀ s ∈ committedStates calls db, ScopeOk s) ∧
      (committedStates calls db).IsChain Advances := by
  refine Commits.history_spec ?_ hok
  intro ts hts t ht
  obtain ⟨c, -, rfl⟩ := List.mem_map.1 hts
  exact respects_of_mem_transactions (List.mem_of_mem_take ht)

/-! ### Main results -/

/-- A usable scope can be read. -/
theorem ScopeOk.activeResourceScope {db : Database} (hok : ScopeOk db) :
    ∃ scope, db.activeResourceScope = .ok scope := by
  obtain ⟨id, hid, hvalid⟩ := hok.valid
  obtain ⟨generation, hgeneration⟩ := Option.isSome_iff_exists.1 hok.generation
  obtain ⟨w, hw, hactive, husable⟩ := scopeValid_iff.1 hvalid
  have hworkspace : db.activeWorkspace id = some w := activeWorkspace_eq_some.2 ⟨hw, hactive⟩
  rw [Database.activeResourceScope, hid, hgeneration]
  simp only [hworkspace, hvalid, Option.filter_some, if_true]
  cases hkind : w.kind with
  | personal => exact ⟨_, rfl⟩
  | team =>
    rcases husable with hpersonal | ⟨user, huser, -⟩
    · rw [hkind] at hpersonal
      cases hpersonal
    · rw [huser]
      exact ⟨_, rfl⟩

theorem Advances.refl (db : Database) : Advances db db := .of_eq rfl rfl

theorem Advances.trans {a b c : Database} (h₁ : Advances a b) (h₂ : Advances b c) :
    Advances a c := by
  refine ⟨h₁.le.trans h₂.le, fun hne => ?_⟩
  by_cases hab : a.scope = b.scope
  · exact h₁.le.trans_lt (h₂.lt fun hbc => hne (hab.trans hbc))
  · exact (h₁.lt hab).trans_le h₂.le

/-- Between two states with one generation the scope stays what it was. -/
theorem Advances.scope_eq {a b c : Database} (h₁ : Advances a b) (h₂ : Advances b c)
    (hgeneration : a.generation = c.generation) : b.scope = a.scope := by
  by_contra hne
  have hlt := (h₁.lt fun h => hne h.symm).trans_le h₂.le
  rw [hgeneration] at hlt
  exact lt_irrefl _ hlt

/-- **The scope of an opened store stays usable, and no generation stands for two scopes.** -/
theorem committedStates_scopeOk {now : DateTime} {seeded opened : Database}
    (hseeded : Seeded seeded) (hopened : repairActiveScopeOnOpen now seeded = .ok opened)
    (calls : List (Call × ℕ)) :
    (∀ db ∈ committedStates calls opened,
      ScopeOk db ∧ ∃ scope, db.activeResourceScope = .ok scope) ∧
    (committedStates calls opened).IsChain (fun db db' => db.scope ≠ db'.scope →
      db.generation.getD 0 < db'.generation.getD 0) ∧
    ∀ (i j k : ℕ) (a b c : Database), i ≤ j → j ≤ k →
      (committedStates calls opened)[i]? = some a → (committedStates calls opened)[j]? = some b →
      (committedStates calls opened)[k]? = some c →
      a.generation = c.generation → b.scope = a.scope := by
  obtain ⟨hok, -⟩ := repair_spec hopened hseeded.personal hseeded.generation
  obtain ⟨hall, hchain⟩ := committedStates_spec calls hok
  refine ⟨fun db hdb => ⟨hall db hdb, (hall db hdb).activeResourceScope⟩,
    hchain.imp fun _ _ h => h.lt, ?_⟩
  intro i j k a b c hij hjk ha hb hc hgeneration
  have htrans : ∀ a b c : Database, Advances a b → Advances b c → Advances a c :=
    fun _ _ _ => .trans
  have hab : Advances a b := Commits.related_of_le htrans .refl hchain hij ha hb
  have hbc : Advances b c := Commits.related_of_le htrans .refl hchain hjk hb hc
  exact hab.scope_eq hbc hgeneration

/-- An account that joins a team, works there, is removed from it and signs out. -/
def sampleCalls : List (Call × ℕ) :=
  let user : WorkspaceAuthUser := ⟨⟨"7a", by decide, by decide⟩, "ada@example.com", "Ada"⟩
  [(.syncAccountWorkspaces (.ofDay 1) (.ofDay 1) user [(.ofByte 2, "Research", .editor)], 2),
    (.activateWorkspace (.ofDay 2) (.ofByte 2) (some user.id), 1),
    (.syncAccountWorkspaces (.ofDay 3) (.ofDay 3) user [], 2),
    (.removeWorkspaceAccount (.ofDay 4) user.id, 1)]

theorem committedStates_scopeOk_sampleCalls :
    (committedStates sampleCalls (freshStore (.ofDay 0))).map (·.scope.1) =
        ([1, 1, 1, 2, 2, 1, 1].map fun b => some (Uuid.ofByte b)) ∧
      ∀ db ∈ committedStates sampleCalls (freshStore (.ofDay 0)),
        ScopeOk db ∧ ∃ scope, db.activeResourceScope = .ok scope :=
  ⟨by decide +kernel, (committedStates_scopeOk (seeded_freshStore (.ofDay 0))
    (repairActiveScopeOnOpen_freshStore (.ofDay 0)) sampleCalls).1⟩

end Store
end AgentDb
