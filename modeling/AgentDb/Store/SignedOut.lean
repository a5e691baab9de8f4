import AgentDb.Store.Connections
import AgentDb.Store.ScopeRun

/-!
# Accounts that are signed out

`Absent` is what `remove_workspace_account` leaves of an account: it is not remembered, it has no
membership, and it is not the selected one. No other transaction undoes that but one that
remembers the account or writes its memberships.
-/

namespace AgentDb
namespace Store

/-- Nothing in the store is the account's. -/
structure Absent (user : UserId) (db : Database) : Prop where
  account : db.accounts.get user = none
  member : ∀ id, db.members.get (id, user) = none
  inactive : db.activeAccountId ≠ some user

section Absent

variable {u : UserId} {db db' : Database}

theorem Absent.of_eq (h : Absent u db) (haccounts : db'.accounts = db.accounts)
    (hmembers : db'.members = db.members) (hactive : db'.activeAccountId = db.activeAccountId) :
    Absent u db' where
  account := by
    rw [haccounts]
    exact h.account
  member id := by
    rw [hmembers]
    exact h.member id
  inactive := by
    rw [hactive]
    exact h.inactive

/-- An account that is remembered is not the absent one. -/
theorem Absent.ne_of_isSome (h : Absent u db) {user : UserId}
    (huser : (db.accounts.get user).isSome) : user ≠ u := by
  rintro rfl
  rw [h.account] at huser
  cases huser

theorem absent_of_bump (hbump : bumpActiveScopeGeneration db = .ok db') (h : Absent u db) :
    Absent u db' := by
  rw [bumpActiveScopeGeneration_eq_ok hbump]
  exact h.of_eq rfl rfl rfl

theorem absent_of_inactive (haccount : db.accounts.get u = none)
    (hmember : ∀ id, db.members.get (id, u) = none) (hactive : db.activeAccountId = none) :
    Absent u db := by
  refine ⟨haccount, hmember, ?_⟩
  rw [hactive]
  intro h
  cases h

/-- Accounts that are changed under their ids stay absent. -/
theorem Absent.mapAccounts (h : Absent u db) (f : UserId → Account → Account) :
    Absent u { db with accounts := db.accounts.mapRows f } where
  account := by
    rw [Table.get_mapRows, h.account]
    rfl
  member := h.member
  inactive := h.inactive

theorem Absent.archiveEmptyTeams (h : Absent u db) (now : DateTime) :
    Absent u (archiveEmptyTeams now db) := h.of_eq rfl rfl rfl

/-! ### A membership sync of another account -/

theorem Absent.archiveMemberships (h : Absent u db) (user : UserId) :
    Absent u (archiveMemberships user db) where
  account := h.account
  member id := by
    simp only [Store.archiveMemberships]
    rw [Table.get_mapRows, h.member]
    rfl
  inactive := h.inactive

theorem Absent.joinWorkspace (h : Absent u db) (now : DateTime) {user : WorkspaceAuthUser}
    (hne : user.id ≠ u) (entry : Uuid × String × WorkspaceRole) :
    Absent u (joinWorkspace now user db entry) where
  account := h.account
  member id := by
    simp only [Store.joinWorkspace]
    rw [Table.get_upsert, if_neg]
    · exact h.member id
    · intro heq
      exact hne (congrArg Prod.snd heq).symm
  inactive := h.inactive

theorem Absent.inheritBinding (h : Absent u db) (now : DateTime) (user : UserId)
    (entry : Uuid × Connection) : Absent u (inheritBinding now user db entry) := by
  unfold Store.inheritBinding
  dsimp only
  split
  · exact h.of_eq rfl rfl rfl
  · exact h

theorem Absent.claimArtifacts (h : Absent u db) {user : UserId}
    (hclaim : claimArtifacts user db = .ok db') : Absent u db' := by
  unfold Store.claimArtifacts at hclaim
  dsimp only at hclaim
  split at hclaim
  · obtain rfl := Except.ok.inj hclaim
    exact h.of_eq rfl rfl rfl
  · cases hclaim

theorem Absent.foldl {α : Type} {f : Database → α → Database}
    (hf : ∀ db a, Absent u db → Absent u (f db a)) (l : List α) (h : Absent u db) :
    Absent u (l.foldl f db) := by
  induction l generalizing db with
  | nil => exact h
  | cons a l ih => exact ih (hf db a h)

theorem absent_of_repairWorkspace {now : DateTime} {accountRepaired : Bool} {current : Uuid}
    (hrepair : repairWorkspace now accountRepaired current db = .ok db') (h : Absent u db) :
    Absent u db' := by
  unfold Store.repairWorkspace at hrepair
  split at hrepair
  · split at hrepair
    · exact absent_of_bump hrepair h
    · obtain rfl := Except.ok.inj hrepair
      exact h
  · exact absent_of_bump hrepair ((h.mapAccounts _).of_eq rfl rfl rfl)

theorem Absent.repair (h : Absent u db) {now : DateTime}
    (hrepair : repairActiveScopeAfterMembershipChange now db = .ok db') : Absent u db' := by
  unfold repairActiveScopeAfterMembershipChange at hrepair
  split at hrepair
  · cases hrepair
  · split at hrepair
    · exact absent_of_repairWorkspace hrepair (absent_of_inactive h.account h.member rfl)
    · exact absent_of_repairWorkspace hrepair h

theorem Absent.syncMemberships (h : Absent u db) {now : DateTime} {user : WorkspaceAuthUser}
    (hne : user.id ≠ u) {workspaces : List (Uuid × String × WorkspaceRole)}
    (hsync : syncMemberships now user workspaces db = .ok db') : Absent u db' := by
  simp only [Store.syncMemberships, Except.bind_eq_ok] at hsync
  obtain ⟨claimed, hclaimed, hrepaired⟩ := hsync
  have hjoined := Absent.foldl (fun _ entry h => h.joinWorkspace now hne entry) workspaces
    (h.archiveMemberships user.id)
  generalize List.foldl (Store.joinWorkspace now user) _ workspaces = joined at hclaimed hjoined
  have hlocal : Absent u (claimLegacyConnections user.id joined) := hjoined.of_eq rfl rfl rfl
  have hinherited := Absent.foldl (fun _ entry h => h.inheritBinding now user.id entry)
    (claimLegacyConnections user.id joined).connections.rows hlocal
  generalize List.foldl (Store.inheritBinding now user.id) _ _ = inherited at hclaimed hinherited
  have hcleared : Absent u (clearGlobalCredentials user.id inherited) :=
    hinherited.of_eq rfl rfl rfl
  have harchived := (hcleared.claimArtifacts hclaimed).archiveEmptyTeams now
  exact Absent.repair (harchived.mapAccounts _) hrepaired

/-! ### The other transactions -/

theorem Absent.rememberWorkspaceAccount (h : Absent u db) (now : DateTime)
    {user : WorkspaceAuthUser} (hne : user.id ≠ u) :
    Absent u (rememberWorkspaceAccount now user db) where
  account := by
    simp only [Store.rememberWorkspaceAccount]
    rw [Table.get_upsert, if_neg (Ne.symm hne)]
    exact h.account
  member := h.member
  inactive := h.inactive

/-- Only a remembered account can be selected. -/
theorem Absent.activateWorkspace (h : Absent u db) {now : DateTime} {id : Uuid}
    {account : Option UserId} (hactivate : activateWorkspace now id account db = .ok db') :
    Absent u db' := by
  unfold Store.activateWorkspace at hactivate
  split at hactivate
  · cases hactivate
  · rename_i workspace user hworkspace
    split at hactivate
    · cases hactivate
    rename_i hremembered
    split at hactivate
    · cases hactivate
    have hne : user ≠ u := h.ne_of_isSome (by simpa [Option.isSome_iff_ne_none] using hremembered)
    refine absent_of_bump hactivate ⟨(h.mapAccounts _).account, h.member, fun heq => ?_⟩
    exact hne (Option.some.inj heq)
  · split at hactivate
    · cases hactivate
    · exact absent_of_bump hactivate (absent_of_inactive h.account h.member rfl)

/-- What is left of an account that is removed; and the removal of another account selects one
that is remembered. -/
theorem absent_removeWorkspaceAccount {now : DateTime} {user : UserId}
    (hremove : removeWorkspaceAccount now user db = .ok db') (h : user = u ∨ Absent u db) :
    Absent u db' := by
  unfold Store.removeWorkspaceAccount at hremove
  dsimp only at hremove
  have haccount : (db.accounts.filterRows fun key _ => key ≠ user).get u = none := by
    rcases h with rfl | h
    · exact Table.get_filterRows_of_drop (by simp)
    · rw [Table.get_filterRows, h.account]
      rfl
  have hmember : ∀ id, (db.members.filterRows fun key _ => key.2 ≠ user).get (id, u) = none := by
    intro id
    rcases h with rfl | h
    · exact Table.get_filterRows_of_drop (by simp)
    · rw [Table.get_filterRows, h.member]
      rfl
  split at hremove
  · split at hremove
    · rename_i fallback hfallback
      refine absent_of_bump hremove ⟨haccount, hmember, fun heq => ?_⟩
      have hsome := isSome_of_lastUsedAccount hfallback
      rw [Option.some.inj heq] at hsome
      cases (Option.isSome_iff_ne_none.1 hsome) haccount
    · exact absent_of_bump hremove (absent_of_inactive haccount hmember rfl)
  · rename_i hother
    obtain rfl := Except.ok.inj hremove
    refine ⟨haccount, hmember, ?_⟩
    rcases h with rfl | h
    · exact hother
    · exact h.inactive

theorem Absent.syncRemoteConnections (h : Absent u db) {now : DateTime} {workspaceId : Uuid}
    {user : UserId} {listing : List (ConnectionProfile × ℤ)}
    (hsync : syncRemoteConnections now workspaceId user listing db = .ok db') : Absent u db' := by
  simp only [Store.syncRemoteConnections, Except.bind_eq_ok] at hsync
  obtain ⟨-, -, -, -, hwritten⟩ := hsync
  obtain rfl := Except.ok.inj hwritten
  have hwithdrawn : Absent u (withdraw now workspaceId listing db) := h.of_eq rfl rfl rfl
  have hwrites : ∀ db entry, Absent u db → Absent u (writeTemplate now workspaceId user db entry) :=
    fun _ _ h => h.of_eq rfl rfl rfl
  exact Absent.foldl hwrites listing hwithdrawn

end Absent

end Store
end AgentDb
