import AgentDb.Services.ConnectionEdits
import AgentDb.SqlScript.Parts
import AgentDb.Store.Edited

/-!
# One engine for each schema group

Connections of a schema group are compared with each other, so a group must not mix engines. The
check of `connection_service.rs` runs before the write, on the connections as they will stand after
it: with the one that is saved, or with a whole batch that is moved at once.
-/

namespace AgentDb
namespace Services

open ScopeGate Store

/-! ### Groups -/

/-- Two groups are equal after trimming and ASCII case folding. -/
def SameGroup (g h : Option String) : Prop :=
  ∃ a b, g = some a ∧ h = some b ∧ eqIgnoreAsciiCase (trim a) (trim b) = true

/-- What the check looks at. -/
structure SameCard (p q : ConnectionProfile) : Prop where
  id : p.id = q.id
  schemaGroup : p.schemaGroup = q.schemaGroup
  engine : p.engine = q.engine

/-- Connections of one group have one engine. -/
def Agree (l : List ConnectionProfile) : Prop :=
  ∀ p ∈ l, ∀ q ∈ l, SameGroup p.schemaGroup q.schemaGroup → p.engine = q.engine

/-- The visible connections of one group have one engine. -/
def GroupsAgree (db : Database) : Prop := ∀ l, db.listConnections = .ok l → Agree l

theorem SameGroup.symm {g h : Option String} (hg : SameGroup g h) : SameGroup h g := by
  obtain ⟨a, b, rfl, rfl, heq⟩ := hg
  exact ⟨b, a, rfl, rfl, decide_eq_true (of_decide_eq_true heq).symm⟩

theorem Agree.mono {l l' : List ConnectionProfile} (h : Agree l)
    (hcards : ∀ p ∈ l', ∃ q ∈ l, SameCard p q) : Agree l' := by
  intro p hp q hq hgroup
  obtain ⟨p', hp', hcard⟩ := hcards p hp
  obtain ⟨q', hq', hcard'⟩ := hcards q hq
  rw [hcard.schemaGroup, hcard'.schemaGroup] at hgroup
  rw [hcard.engine, hcard'.engine]
  exact h p' hp' q' hq' hgroup

/-! ### The check -/

theorem trim_trim (s : String) : trim (trim s) = trim s := by
  have htrim : ∀ s : String, trim s = String.ofList (SqlScript.trim s.toList) := fun _ => rfl
  rw [htrim (trim s), htrim s, String.toList_ofList, SqlScript.trim_trim]

/-- A group that is saved is trimmed. -/
theorem trim_of_normalizeSchemaGroup {schemaGroup : Option String} {group : String}
    (h : normalizeSchemaGroup schemaGroup = some group) : trim group = group := by
  obtain ⟨hmap, -⟩ := Option.filter_eq_some_iff.1 h
  obtain ⟨s, -, rfl⟩ := Option.map_eq_some_iff.1 hmap
  exact trim_trim s

/-- What the check has compared. -/
theorem validateSchemaGroupEngine_eq_ok {profile : ConnectionProfile}
    {connections : List ConnectionProfile}
    (hnormal : ∀ group, profile.schemaGroup = some group → trim group = group)
    (h : validateSchemaGroupEngine profile connections = .ok ()) :
    ∀ q ∈ connections, q.id ≠ profile.id → SameGroup q.schemaGroup profile.schemaGroup →
      q.engine = profile.engine := by
  rintro q hq hid ⟨candidate, group, hcandidate, hgroup, heq⟩
  simp only [validateSchemaGroupEngine, hgroup, refuseIf_eq_ok, List.any_eq_true,
    decide_eq_true_eq, not_exists, not_and] at h
  by_contra hengine
  rw [hnormal group hgroup] at heq
  have hgroups : (q.schemaGroup.any fun candidate =>
      eqIgnoreAsciiCase (trim candidate) group) = true := by
    rw [hcandidate, Option.any_some]
    exact heq
  exact h q hq hid hgroups hengine

/-- A connection that passed the check can join the others. -/
theorem Agree.insert {profile : ConnectionProfile} {l : List ConnectionProfile} (h : Agree l)
    (hvalid : ∀ q ∈ l, q.id ≠ profile.id → SameGroup q.schemaGroup profile.schemaGroup →
      q.engine = profile.engine) :
    Agree (profile :: l.filter fun q => q.id ≠ profile.id) := by
  have hother : ∀ q ∈ l.filter (fun q => q.id ≠ profile.id), q ∈ l ∧ q.id ≠ profile.id :=
    fun q hq => ⟨(List.mem_filter.1 hq).1, by simpa using (List.mem_filter.1 hq).2⟩
  intro p hp q hq hgroup
  obtain rfl | hp := List.mem_cons.1 hp
  · obtain rfl | hq := List.mem_cons.1 hq
    · rfl
    · exact (hvalid q (hother q hq).1 (hother q hq).2 hgroup.symm).symm
  · obtain rfl | hq := List.mem_cons.1 hq
    · exact hvalid p (hother p hp).1 (hother p hp).2 hgroup
    · exact h p (hother p hp).1 q (hother q hq).1 hgroup

/-! ### A batch -/

/-- The connections with a batch moved to a group. -/
def moved (schemaGroup : Option String) (ids : List Uuid) (l : List ConnectionProfile) :
    List ConnectionProfile :=
  l.map fun p => if p.id ∈ ids then { p with schemaGroup } else p

@[simp] theorem map_id_moved (schemaGroup : Option String) (ids : List Uuid)
    (l : List ConnectionProfile) : (moved schemaGroup ids l).map (·.id) = l.map (·.id) := by
  rw [moved, List.map_map]
  refine List.map_congr_left fun p _ => ?_
  rw [Function.comp_apply]
  split <;> rfl

/-- One connection of the list is moved. -/
theorem regroup_eq_ok {schemaGroup : Option String} {id : Uuid} {l l' : List ConnectionProfile}
    (hnodup : (l.map (·.id)).Nodup) (h : regroup schemaGroup id l = .ok l') :
    l' = moved schemaGroup [id] l := by
  induction l generalizing l' with
  | nil => cases h
  | cons p l ih =>
      obtain ⟨hp, hl⟩ := List.nodup_cons.1 hnodup
      unfold regroup at h
      split at h
      case isTrue hid =>
        obtain ⟨-, -, h⟩ := Except.bind_eq_ok.1 h
        obtain rfl := Except.pure_eq_ok.1 h
        have hrest : l.map (fun p => if p.id ∈ [id] then { p with schemaGroup } else p) = l := by
          refine (List.map_congr_left fun q hq => ?_).trans (List.map_id l)
          refine if_neg fun hmem => hp (List.mem_map.2 ⟨q, hq, ?_⟩)
          exact (List.mem_singleton.1 hmem).trans hid.symm
        rw [moved, List.map_cons, hrest, if_pos (List.mem_singleton.2 hid)]
      case isFalse hid =>
        obtain ⟨rest, hrest, h⟩ := Except.bind_eq_ok.1 h
        obtain rfl := Except.pure_eq_ok.1 h
        rw [ih hl hrest, moved, moved, List.map_cons,
          if_neg fun hmem => hid (List.mem_singleton.1 hmem)]

theorem moved_moved (schemaGroup : Option String) (id : Uuid) (ids : List Uuid)
    (l : List ConnectionProfile) :
    moved schemaGroup ids (moved schemaGroup [id] l) = moved schemaGroup (id :: ids) l := by
  rw [moved, moved, moved, List.map_map]
  refine List.map_congr_left fun p _ => ?_
  rw [Function.comp_apply]
  by_cases hid : p.id = id
  · simp [hid]
  · simp [hid]

theorem foldlM_regroup_eq_ok {schemaGroup : Option String} {ids : List Uuid}
    {l l' : List ConnectionProfile} (hnodup : (l.map (·.id)).Nodup)
    (h : ids.foldlM (fun l id => regroup schemaGroup id l) l = .ok l') :
    l' = moved schemaGroup ids l := by
  induction ids generalizing l with
  | nil =>
      obtain rfl := Except.pure_eq_ok.1 h
      exact ((List.map_congr_left fun p _ => if_neg (by simp)).trans (List.map_id l)).symm
  | cons id ids ih =>
      rw [List.foldlM_cons, Except.bind_eq_ok] at h
      obtain ⟨l₁, h₁, h⟩ := h
      obtain rfl := regroup_eq_ok hnodup h₁
      rw [ih (by rwa [map_id_moved]) h, moved_moved]

/-- A batch that passed the check can be moved. -/
theorem Agree.moved {schemaGroup : Option String} {ids : List Uuid} {l : List ConnectionProfile}
    (h : Agree l) (hnodup : (l.map (·.id)).Nodup)
    (hvalid : ∀ p ∈ moved schemaGroup ids l, p.id ∈ ids → ∀ q ∈ moved schemaGroup ids l,
      q.id ≠ p.id → SameGroup q.schemaGroup p.schemaGroup → q.engine = p.engine) :
    Agree (moved schemaGroup ids l) := by
  have hids : ((Services.moved schemaGroup ids l).map (·.id)).Nodup := by rwa [map_id_moved]
  intro p hp q hq hgroup
  by_cases hsame : q.id = p.id
  · rw [List.inj_on_of_nodup_map hids hp hq hsame.symm]
  · by_cases hp' : p.id ∈ ids
    · exact (hvalid p hp hp' q hq hsame hgroup.symm).symm
    · by_cases hq' : q.id ∈ ids
      · exact hvalid q hq hq' p hp (Ne.symm hsame) hgroup
      · -- Neither of the two has moved.
        have hstill : ∀ r ∈ Services.moved schemaGroup ids l, r.id ∉ ids → r ∈ l :=
          fun r hr hnot => by
            obtain ⟨s, hs, rfl⟩ := List.mem_map.1 hr
            split at hnot
            case isTrue hmem => exact absurd hmem hnot
            case isFalse hmem => rwa [if_neg hmem]
        exact h p (hstill p hp hp') q (hstill q hq hq') hgroup

/-! ### Visible connections -/

theorem sameCard_withBinding (c : Connection) (binding : Option Binding) :
    SameCard (c.withBinding binding) c.toConnectionProfile := by
  unfold Connection.withBinding
  split
  · exact ⟨rfl, rfl, rfl⟩
  · dsimp only
    split <;> exact ⟨rfl, rfl, rfl⟩

theorem SameCard.symm {p q : ConnectionProfile} (h : SameCard p q) : SameCard q p :=
  ⟨h.id.symm, h.schemaGroup.symm, h.engine.symm⟩

theorem SameCard.trans {p q r : ConnectionProfile} (h₁ : SameCard p q) (h₂ : SameCard q r) :
    SameCard p r :=
  ⟨h₁.id.trans h₂.id, h₁.schemaGroup.trans h₂.schemaGroup, h₁.engine.trans h₂.engine⟩

/-- A row is visible in the active scope. -/
def InView (db : Database) (c : Connection) : Prop :=
  ∃ workspaceId workspace, db.usableWorkspace = some (workspaceId, workspace) ∧
    c.visible workspaceId workspace db.activeAccountId = true

section

variable {db db' : Database} {l : List ConnectionProfile}

/-- A visible row is listed. -/
theorem exists_listed (hl : db.listConnections = .ok l) {id : Uuid} {c : Connection}
    (hget : db.connections.get id = some c) (hview : InView db c) :
    ∃ p ∈ l, SameCard c.toConnectionProfile p := by
  obtain ⟨workspaceId, workspace, husable, -, rfl⟩ := listConnections_eq_ok.1 hl
  obtain ⟨_, _, husable', hvisible⟩ := hview
  rw [husable] at husable'
  cases husable'
  exact ⟨_, mem_connectionRows.2 ⟨id, c, hget, hvisible, rfl⟩, (sameCard_withBinding c _).symm⟩

theorem nodup_listed (hkeyed : db.Keyed) (hl : db.listConnections = .ok l) :
    (l.map (·.id)).Nodup := by
  obtain ⟨workspaceId, workspace, -, -, rfl⟩ := listConnections_eq_ok.1 hl
  exact nodup_ids_connectionRows hkeyed _ _ _

/-- Connections agree when each visible row looks like one of a list that agrees. -/
theorem groupsAgree_of_rows (hauthority : KeepsAuthority db db')
    (known : List ConnectionProfile → List ConnectionProfile)
    (hknown : ∀ l, db.listConnections = .ok l → Agree (known l))
    (hrows : ∀ l, db.listConnections = .ok l → ∀ id c', db'.connections.get id = some c' →
      InView db c' → ∃ p ∈ known l, SameCard c'.toConnectionProfile p) : GroupsAgree db' := by
  intro l' hl'
  obtain ⟨workspaceId, workspace, husable, haccount, rfl⟩ := listConnections_eq_ok.1 hl'
  rw [hauthority.usableWorkspace] at husable
  rw [hauthority.activeAccountId] at haccount ⊢
  have hl := listConnections_eq_ok.2 ⟨workspaceId, workspace, husable, haccount, rfl⟩
  refine (hknown _ hl).mono fun p hp => ?_
  obtain ⟨id, c', hget, hvisible, rfl⟩ := mem_connectionRows.1 hp
  obtain ⟨q, hq, hcard⟩ := hrows _ hl id c' hget ⟨workspaceId, workspace, husable, hvisible⟩
  exact ⟨q, hq, (sameCard_withBinding c' _).trans hcard⟩

/-- Where no row has changed but for what is hidden, connections agree as before. -/
theorem groupsAgree_of_same (hauthority : KeepsAuthority db db') (h : GroupsAgree db)
    (hrows : ∀ id c', db'.connections.get id = some c' → InView db c' →
      ∃ c, db.connections.get id = some c ∧ InView db c ∧
        SameCard c'.toConnectionProfile c.toConnectionProfile) : GroupsAgree db' := by
  refine groupsAgree_of_rows hauthority id h fun l hl id c' hget hview => ?_
  obtain ⟨c, hc, hview', hcard⟩ := hrows id c' hget hview
  obtain ⟨p, hp, hcard'⟩ := exists_listed hl hc hview'
  exact ⟨p, hp, hcard.trans hcard'⟩

end

/-! ### The calls -/

section

variable {parseUuid : String → Option Uuid} {validateDriver : ConnectionProfile → AppResult Unit}
  {f : Faults} {now : DateTime} {e e' : Estate} {credentialId : Uuid} {answer : AppResult ℤ}

theorem groupsAgree_upsert {r : ConnectionUpsertRequest} {result : AppResult ConnectionProfile}
    (hkeyed : e.db.Keyed) (h : GroupsAgree e.db)
    (hcall : upsert parseUuid validateDriver f now credentialId r e = (result, e')) :
    e'.db.Keyed ∧ GroupsAgree e'.db := by
  obtain ⟨error, -, hdb, -⟩ | ⟨profile, p, db, -, hdone⟩ := upsert_cases hcall
  · rw [hdb]
    exact ⟨hkeyed, h⟩
  obtain ⟨workspaceId, workspace, row, hup⟩ := upsertConnection_spec hdone.saved
  obtain ⟨l, hlist, hp, hvalid, -, -⟩ := prepareUpsert_eq_ok hdone.prepared
  obtain ⟨legacyCatalogs, catalogs, hclear⟩ := tryClearSchemaCache_eq profile.id db
  have hconnections : e'.db.connections = e.db.connections.put profile.id row := by
    rw [hdone.db_eq, hclear]
    exact hup.connections
  have hauthority : KeepsAuthority e.db e'.db := by
    rw [hdone.db_eq, hclear]
    exact hup.authority.trans ⟨rfl, rfl, rfl, rfl, rfl, rfl⟩
  have hcard : SameCard row.toConnectionProfile p.profile := by
    rw [hup.profile, hdone.profile_eq]
    exact ⟨rfl, rfl, rfl⟩
  have hid : profile.id = p.profile.id := by rw [hdone.profile_eq]
  have hnormal : ∀ group, p.profile.schemaGroup = some group → trim group = group :=
    fun group hgroup => trim_of_normalizeSchemaGroup (by rw [hp] at hgroup; exact hgroup)
  refine ⟨hkeyed.of_put hconnections (by rw [hup.profile]), groupsAgree_of_rows hauthority
    (fun l => p.profile :: l.filter fun q => q.id ≠ p.profile.id) (fun l' hl' => ?_)
    fun l' hl' id c' hget hview => ?_⟩
  · rw [hlist] at hl'
    cases hl'
    exact (h l hlist).insert (validateSchemaGroupEngine_eq_ok hnormal hvalid)
  · rw [hconnections, Table.get_put] at hget
    split at hget
    · cases hget
      exact ⟨p.profile, List.mem_cons_self, hcard⟩
    · rename_i hne
      obtain ⟨q, hq, hcard'⟩ := exists_listed hl' hget hview
      refine ⟨q, List.mem_cons_of_mem _ (List.mem_filter.2 ⟨hq, ?_⟩), hcard'⟩
      rw [← hcard'.id, hkeyed.id_of_get hget, ← hid]
      exact decide_eq_true hne

theorem mapM_eq_ok {α β : Type} {g : α → AppResult β} {l : List α} {found : List β}
    (h : l.mapM g = .ok found) : ∀ a ∈ l, ∃ b ∈ found, g a = .ok b := by
  induction l generalizing found with
  | nil => simp
  | cons a l ih =>
      rw [List.mapM_cons] at h
      obtain ⟨b, hb, h⟩ := Except.bind_eq_ok.1 h
      obtain ⟨rest, hrest, h⟩ := Except.bind_eq_ok.1 h
      obtain rfl := Except.pure_eq_ok.1 h
      refine List.forall_mem_cons.2 ⟨⟨b, List.mem_cons_self, hb⟩, fun a' ha' => ?_⟩
      obtain ⟨b', hb', heq⟩ := ih hrest a' ha'
      exact ⟨b', List.mem_cons_of_mem _ hb', heq⟩

/-- What the check of a batch has compared: each of the batch with all connections as moved. -/
theorem groupedProfiles_eq_ok {ids : List Uuid} {schemaGroup : Option String} {db : Database}
    {updated : List ConnectionProfile} (hkeyed : db.Keyed)
    (hnormal : ∀ group, schemaGroup = some group → trim group = group)
    (h : groupedProfiles f ids schemaGroup db = .ok updated) :
    ∃ l, db.listConnections = .ok l ∧ ∀ p ∈ moved schemaGroup ids l, p.id ∈ ids →
      ∀ q ∈ moved schemaGroup ids l, q.id ≠ p.id → SameGroup q.schemaGroup p.schemaGroup →
        q.engine = p.engine := by
  simp only [groupedProfiles, Except.bind_eq_ok, request_eq_ok] at h
  obtain ⟨l, ⟨-, hl⟩, l', hmoved, found, hfound, _, hvalid, h⟩ := h
  have hnodup := nodup_listed hkeyed hl
  obtain rfl := foldlM_regroup_eq_ok hnodup hmoved
  refine ⟨l, hl, fun p hp hid q hq => ?_⟩
  -- The profile that was found for the id of `p` is `p`.
  have hmem : p ∈ found := by
    obtain ⟨p', hp', hfind⟩ := mapM_eq_ok hfound p.id hid
    have hsome : (moved schemaGroup ids l).find? (fun q => q.id = p.id) = some p' := by
      unfold findProfile at hfind
      split at hfind
      · rw [‹List.find? _ _ = some _›]
        cases hfind
        rfl
      · cases hfind
    have hnodup' : ((moved schemaGroup ids l).map (·.id)).Nodup := by rwa [map_id_moved]
    have hsame : p'.id = p.id := by simpa using List.find?_some hsome
    rwa [← List.inj_on_of_nodup_map hnodup' (List.mem_of_find?_eq_some hsome) hp hsame]
  refine validateSchemaGroupEngine_eq_ok (fun group hgroup => ?_) (forM_eq_ok hvalid p hmem) q hq
  obtain ⟨p₀, hp₀, rfl⟩ := List.mem_map.1 hp
  split at hgroup
  case isTrue => exact hnormal group hgroup
  case isFalse hnot => rw [if_neg hnot] at hid; exact absurd hid hnot

theorem regrouped_card {schemaGroup : Option String} {c c' : Connection}
    (h : Regrouped schemaGroup c c') {p : ConnectionProfile}
    (hcard : SameCard c.toConnectionProfile p) :
    SameCard c'.toConnectionProfile { p with schemaGroup } := by
  rw [h.profile]
  exact ⟨hcard.id, rfl, hcard.engine⟩

theorem groupsAgree_setSchemaGroup {ids : List Uuid} {schemaGroup : Option String}
    {result : AppResult (List ConnectionProfile)} (hkeyed : e.db.Keyed) (h : GroupsAgree e.db)
    (hcall : setSchemaGroup f now ids schemaGroup e = (result, e')) :
    e'.db.Keyed ∧ GroupsAgree e'.db := by
  obtain rfl | ⟨updated, db, hchecked, hwritten, -, rfl⟩ := setSchemaGroup_cases hcall
  · exact ⟨hkeyed, h⟩
  obtain ⟨l, hl, hvalid⟩ := groupedProfiles_eq_ok hkeyed
    (fun group hgroup => trim_of_normalizeSchemaGroup hgroup) hchecked
  have hre := setConnectionsSchemaGroup_spec hwritten
  refine ⟨fun entry hentry => ?_, groupsAgree_of_rows hre.authority
    (moved (normalizeSchemaGroup schemaGroup) ids.eraseDups) (fun l' hl' => ?_)
    fun l' hl' id c' hget hview => ?_⟩
  · obtain ⟨id, c'⟩ := entry
    have hget := Table.mem_rows_iff.1 hentry
    by_cases hid : id ∈ ids.eraseDups
    · obtain ⟨c, c₁, hc, hc₁, hrow⟩ := hre.row id hid
      rw [hget] at hc₁
      cases hc₁
      rw [hrow.profile]
      exact hkeyed.id_of_get hc
    · rw [hre.other id hid] at hget
      exact hkeyed.id_of_get hget
  · rw [hl] at hl'
    cases hl'
    exact (h l hl).moved (nodup_listed hkeyed hl) hvalid
  · by_cases hid : id ∈ ids.eraseDups
    · obtain ⟨c, c₁, hc, hc₁, hrow⟩ := hre.row id hid
      rw [hget] at hc₁
      cases hc₁
      have hview' : InView e.db c := by
        obtain ⟨workspaceId, workspace, husable, hvisible⟩ := hview
        refine ⟨workspaceId, workspace, husable, ?_⟩
        unfold Connection.visible at hvisible ⊢
        rwa [hrow.workspaceId, hrow.deletedAt, hrow.remote, hrow.accountUserId] at hvisible
      obtain ⟨p, hp, hcard⟩ := exists_listed hl' hc hview'
      refine ⟨_, List.mem_map.2 ⟨p, hp, if_pos ?_⟩, regrouped_card hrow hcard⟩
      rwa [← hcard.id, hkeyed.id_of_get hc]
    · rw [hre.other id hid] at hget
      obtain ⟨p, hp, hcard⟩ := exists_listed hl' hget hview
      refine ⟨p, List.mem_map.2 ⟨p, hp, if_neg ?_⟩, hcard⟩
      rwa [← hcard.id, hkeyed.id_of_get hget]

theorem groupsAgree_delete {id : Uuid} {result : AppResult Unit} (hkeyed : e.db.Keyed)
    (h : GroupsAgree e.db) (hcall : delete parseUuid f now id answer e = (result, e')) :
    e'.db.Keyed ∧ GroupsAgree e'.db := by
  obtain ⟨error, -, rfl⟩ | ⟨pin, db, -, -, -, hdeleted, hdb, -⟩ := delete_cases hcall
  · exact ⟨hkeyed, h⟩
  obtain ⟨c, c', hc, -, htomb, hprofile, -, rfl⟩ := deleteConnection_spec hdeleted
  have hauthority : KeepsAuthority e.db { e.db with connections := e.db.connections.put id c' } :=
    ⟨rfl, rfl, rfl, rfl, rfl, rfl⟩
  rw [hdb]
  refine ⟨hkeyed.of_put rfl ((congrArg _ hprofile).trans (hkeyed.id_of_get hc)),
    groupsAgree_of_same hauthority h fun id' c₁ hget hview => ?_⟩
  dsimp only at hget
  rw [Table.get_put] at hget
  split at hget
  · -- A tombstone is not visible.
    cases hget
    obtain ⟨workspaceId, workspace, -, hvisible⟩ := hview
    have hnone := (of_decide_eq_true hvisible).2.1
    rw [htomb] at hnone
    cases hnone
  · exact ⟨c₁, hget, hview, rfl, rfl, rfl⟩

theorem groupsAgree_bindCredentials {r : WorkspaceCredentialBindingRequest}
    {result : AppResult ConnectionProfile} (hkeyed : e.db.Keyed) (h : GroupsAgree e.db)
    (hcall : bindCredentials parseUuid f now credentialId answer r e = (result, e')) :
    e'.db.Keyed ∧ GroupsAgree e'.db := by
  obtain ⟨error, -, hdb, -⟩ | ⟨profile, p, -, -, hbound, -⟩ := bindCredentials_cases hcall
  · rw [hdb]
    exact ⟨hkeyed, h⟩
  · obtain ⟨b, -, -, -, hdb⟩ := bindConnectionCredentials_spec hbound
    have hauthority : KeepsAuthority e.db e'.db := by
      rw [hdb]
      exact ⟨rfl, rfl, rfl, rfl, rfl, rfl⟩
    have hconnections : e'.db.connections = e.db.connections := by rw [hdb]
    refine ⟨fun entry hentry => hkeyed entry (hconnections ▸ hentry),
      groupsAgree_of_same hauthority h fun id c' hget hview => ?_⟩
    exact ⟨c', hconnections ▸ hget, hview, rfl, rfl, rfl⟩

end

/-! ### Runs -/

/-- The state after some calls. -/
def runEdits (parseUuid : String → Option Uuid)
    (validateDriver : ConnectionProfile → AppResult Unit) (calls : List EditCall) (e : Estate) :
    Estate :=
  calls.foldl (fun e call => (call.perform parseUuid validateDriver e).2) e

theorem groupsAgree_perform {parseUuid : String → Option Uuid}
    {validateDriver : ConnectionProfile → AppResult Unit} (call : EditCall) {e : Estate}
    (hkeyed : e.db.Keyed) (h : GroupsAgree e.db) :
    (call.perform parseUuid validateDriver e).2.db.Keyed ∧
      GroupsAgree (call.perform parseUuid validateDriver e).2.db := by
  cases call with
  | upsert f now credentialId r =>
      generalize hcall : upsert parseUuid validateDriver f now credentialId r e = out
      simp only [EditCall.perform, hcall]
      exact groupsAgree_upsert hkeyed h hcall
  | setSchemaGroup f now ids schemaGroup =>
      generalize hcall : setSchemaGroup f now ids schemaGroup e = out
      simp only [EditCall.perform, hcall]
      exact groupsAgree_setSchemaGroup hkeyed h hcall
  | delete f now id answer =>
      generalize hcall : delete parseUuid f now id answer e = out
      simp only [EditCall.perform, hcall]
      exact groupsAgree_delete hkeyed h hcall
  | bindCredentials f now credentialId answer r =>
      generalize hcall : bindCredentials parseUuid f now credentialId answer r e = out
      simp only [EditCall.perform, hcall]
      exact groupsAgree_bindCredentials hkeyed h hcall

/-- **Schema groups.** Whatever calls are made and whatever fails, the visible connections of a
group keep one engine, and a batch that is rejected changes nothing. -/
theorem groupsAgree_runEdits (parseUuid : String → Option Uuid)
    (validateDriver : ConnectionProfile → AppResult Unit) (calls : List EditCall) {e : Estate}
    (hkeyed : e.db.Keyed) (h : GroupsAgree e.db) :
    GroupsAgree (runEdits parseUuid validateDriver calls e).db ∧
      ∀ (f : Faults) (now : DateTime) (ids : List Uuid) (schemaGroup : Option String)
        (e : Estate) (error : AppError),
        (setSchemaGroup f now ids schemaGroup e).1 = .error error →
        (setSchemaGroup f now ids schemaGroup e).2 = e := by
  constructor
  · have hrun : ∀ (calls : List EditCall) (e : Estate), e.db.Keyed → GroupsAgree e.db →
        GroupsAgree (runEdits parseUuid validateDriver calls e).db := fun calls => by
      induction calls with
      | nil => exact fun e _ h => h
      | cons call calls ih =>
          intro e hkeyed h
          obtain ⟨hkeyed', h'⟩ := groupsAgree_perform call hkeyed h
          exact ih _ hkeyed' h'
    exact hrun calls e hkeyed h
  · intro f now ids schemaGroup e error herror
    generalize hcall : setSchemaGroup f now ids schemaGroup e = out at herror ⊢
    obtain ⟨result, e'⟩ := out
    obtain hsame | ⟨updated, db, -, -, rfl, -⟩ := setSchemaGroup_cases hcall
    · exact hsame
    · cases herror

/-- A local connection of a group. -/
def localProfile (n : UInt8) (engine : Engine) (schemaGroup : Option String) :
    ConnectionProfile :=
  ⟨.ofByte n, "Warehouse", engine, .auto, none, "localhost", 5432, "app", "", "prefer", "{}", true,
    false, none, none, schemaGroup, .local_, .local_⟩

/-- A MySQL connection cannot join a group of PostgreSQL ones, saved or moved. -/
def groupEdits : List EditCall :=
  [.upsert {} (.ofDay 1) (.ofByte 8) ⟨localProfile 3 .postgres (some " Sales "), none⟩,
    .upsert {} (.ofDay 1) (.ofByte 8) ⟨localProfile 4 .mysql (some "sales"), none⟩,
    .upsert {} (.ofDay 1) (.ofByte 8) ⟨localProfile 4 .mysql none, none⟩,
    .setSchemaGroup {} (.ofDay 2) [.ofByte 4, .ofByte 3] (some "SALES"),
    .setSchemaGroup {} (.ofDay 2) [.ofByte 3] (some "SALES")]

theorem groupEdits_agree :
    let e := runEdits (fun _ => none) (fun _ => .ok ()) groupEdits ⟨freshStore (.ofDay 0), .empty⟩
    GroupsAgree e.db ∧
      e.db.listConnections.toOption.map (·.map fun p => (p.engine, p.schemaGroup)) =
        some [(.postgres, some "SALES"), (.mysql, none)] := by
  have hagree : GroupsAgree (freshStore (.ofDay 0)) := fun l hl p hp => by
    obtain ⟨workspaceId, workspace, -, -, rfl⟩ := listConnections_eq_ok.1 hl
    obtain ⟨id, c, hc, -⟩ := mem_connectionRows.1 hp
    cases hc
  refine ⟨(groupsAgree_runEdits (fun _ => none) (fun _ => .ok ()) groupEdits
    (fun _ h => absurd h List.not_mem_nil) hagree).1, by decide +kernel⟩

end Services
end AgentDb
