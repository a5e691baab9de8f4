import AgentDb.Lib.Sha256
import AgentDb.Store.ConnectionRun

/-!
# What an accepted pin promises

A pin is taken in some state of a run and checked in a later one. In between, the pinned
connection is either as it was (`SharedSame`, `LocalSame`) or dead for the pin (`SharedDead`,
`LocalDead`): its revision is past the pinned one, or no binding carries the pinned time any more.
Dead connections stay dead and are never accepted, so an accepted pin names a connection that was
the same in every state since.

A listing of the server can break this in two ways: when it is older than one that was already
written, and when it turns a local connection into a shared one. `Op.Careful` excludes both.
-/

namespace AgentDb
namespace Store

open Commits Protocol

/-! ### Times of binding writes -/

/-- A binding that is there after a step and was not before it. -/
def Writes (db db' : Database) (key : Uuid × UserId) (b : Binding) : Prop :=
  db'.bindings.get key = some b ∧ db.bindings.get key ≠ some b

section

variable (sha256 : List UInt8 → Vector UInt8 32)

/-- A binding with this time is written somewhere in the run. -/
inductive Stamped : List Op → Database → String → Prop
  | here {op : Op} {ops : List Op} {db : Database} {key : Uuid × UserId} {b : Binding}
      (h : Writes db (settle (Op.apply sha256) db op) key b) : Stamped (op :: ops) db b.updatedAt
  | later {op : Op} {ops : List Op} {db : Database} {t : String}
      (h : Stamped ops (settle (Op.apply sha256) db op) t) : Stamped (op :: ops) db t

/-- No two operations of the run write bindings with the same time. -/
def DistinctStamps : List Op → Database → Prop
  | [], _ => True
  | op :: ops, db =>
      (∀ key b, Writes db (settle (Op.apply sha256) db op) key b →
        ¬ Stamped sha256 ops (settle (Op.apply sha256) db op) b.updatedAt) ∧
      DistinctStamps ops (settle (Op.apply sha256) db op)

variable {sha256}

theorem DistinctStamps.not_stamped {ops more : List Op} {db : Database}
    (h : DistinctStamps sha256 (ops ++ more) db) {t : String} (ht : Stamped sha256 ops db t) :
    ¬ Stamped sha256 more (run (Op.apply sha256) ops db) t := by
  have hmore : ∀ {ops : List Op} {db : Database}, Stamped sha256 more
      (run (Op.apply sha256) ops db) t → Stamped sha256 (ops ++ more) db t := by
    intro ops db hstamped
    induction ops generalizing db with
    | nil => exact hstamped
    | cons op ops ih => exact .later (ih hstamped)
  induction ht with
  | here hwrites => exact fun hstamped => h.1 _ _ hwrites (hmore hstamped)
  | later _ ih => exact ih h.2 hmore

/-- A binding was there at the start, or some operation wrote it. -/
theorem stamped_of_binding {ops : List Op} {db : Database} {key : Uuid × UserId} {b : Binding}
    (hb : (run (Op.apply sha256) ops db).bindings.get key = some b) :
    db.bindings.get key = some b ∨ Stamped sha256 ops db b.updatedAt := by
  induction ops generalizing db with
  | nil => exact .inl hb
  | cons op ops ih =>
    rcases ih hb with hsettled | hstamped
    · by_cases hbefore : db.bindings.get key = some b
      · exact .inl hbefore
      · exact .inr (.here ⟨hsettled, hbefore⟩)
    · exact .inr (.later hstamped)

end

/-! ### Where the times come from -/

/-- The time an operation writes bindings with. -/
def Op.stamp : Op → Option String
  | .scope (.syncAccountWorkspaces _ now _ _) 1 => some now.toRfc3339
  | .syncRemoteConnections now _ _ _ => some now.toRfc3339
  | .bindConnectionCredentials now _ _ _ _ _ => some now.toRfc3339
  | _ => none

/-- Every binding after the step was there before it, or carries the time. -/
def WritesAt (t : String) (db db' : Database) : Prop :=
  ∀ key b, db'.bindings.get key = some b → db.bindings.get key = some b ∨ b.updatedAt = t

theorem WritesAt.of_eq {t : String} {db db' : Database} (h : db'.bindings = db.bindings) :
    WritesAt t db db' := fun _ _ hb => .inl (h ▸ hb)

theorem WritesAt.trans {t : String} {a b c : Database} (h₁ : WritesAt t a b)
    (h₂ : WritesAt t b c) : WritesAt t a c := by
  intro key x hx
  rcases h₂ key x hx with hb | ht
  · exact h₁ key x hb
  · exact .inr ht

theorem WritesAt.foldl {α : Type} {t : String} {f : Database → α → Database}
    (hf : ∀ db a, WritesAt t db (f db a)) (l : List α) (db : Database) :
    WritesAt t db (l.foldl f db) := by
  induction l generalizing db with
  | nil => exact .of_eq rfl
  | cons a l ih => exact (hf db a).trans (ih (f db a))

/-- A binding that is written over a row keeps the row or carries the time. -/
theorem writesAt_upsert {t : String} {db db' : Database} {key : Uuid × UserId} {new : Binding}
    {onConflict : Binding → Binding} (h : db'.bindings = db.bindings.upsert key new onConflict)
    (hnew : new.updatedAt = t) (hconflict : ∀ b, onConflict b = b ∨ (onConflict b).updatedAt = t) :
    WritesAt t db db' := by
  intro key' b hb
  rw [h, Table.get_upsert] at hb
  split at hb
  · rename_i heq
    subst heq
    cases hold : db.bindings.get key' with
    | none =>
      rw [hold, Option.elim_none] at hb
      obtain rfl := Option.some.inj hb
      exact .inr hnew
    | some old =>
      rw [hold, Option.elim_some] at hb
      obtain rfl := Option.some.inj hb
      rcases hconflict old with hkept | hstamp
      · rw [hkept]
        exact .inl rfl
      · exact .inr hstamp
  · exact .inl hb

theorem writesAt_filter {t : String} {db db' : Database}
    (h : ∃ p, db'.bindings = db.bindings.filterRows p) : WritesAt t db db' := by
  obtain ⟨p, h⟩ := h
  intro key b hb
  rw [h, Table.get_filterRows] at hb
  exact .inl (Option.filter_eq_some_iff.1 hb).1

theorem writesAt_inheritBinding (now : DateTime) (user : UserId) (db : Database)
    (entry : Uuid × Connection) : WritesAt now.toRfc3339 db (inheritBinding now user db entry) := by
  unfold inheritBinding
  dsimp only
  split
  · exact writesAt_upsert rfl rfl fun b => .inl rfl
  · exact .of_eq rfl

theorem writesAt_writeTemplate (now : DateTime) (workspaceId : Uuid) (user : UserId)
    (db : Database) (entry : ConnectionProfile × ℤ) :
    WritesAt now.toRfc3339 db (writeTemplate now workspaceId user db entry) := by
  refine writesAt_upsert rfl rfl fun b => ?_
  unfold listedBinding
  dsimp only
  split
  · exact .inr rfl
  · exact .inl rfl

theorem writesAt_syncMemberships {now : DateTime} {user : WorkspaceAuthUser}
    {workspaces : List (Uuid × String × WorkspaceRole)} {db db' : Database}
    (h : syncMemberships now user workspaces db = .ok db') : WritesAt now.toRfc3339 db db' := by
  simp only [syncMemberships, Except.bind_eq_ok] at h
  obtain ⟨artifacts, hartifacts, h⟩ := h
  have hjoined : WritesAt now.toRfc3339 db
      (workspaces.foldl (joinWorkspace now user) (archiveMemberships user.id db)) :=
    .of_eq (foldl_keeps (f := joinWorkspace now user) (·.bindings) (fun _ _ => rfl) workspaces
      (archiveMemberships user.id db))
  generalize List.foldl (joinWorkspace now user) _ workspaces = joined at *
  have hinherited := WritesAt.foldl (writesAt_inheritBinding now user.id)
    (claimLegacyConnections user.id joined).connections.rows (claimLegacyConnections user.id joined)
  have hclaimed : WritesAt now.toRfc3339 joined (claimLegacyConnections user.id joined) :=
    .of_eq rfl
  have hrest : db'.bindings = ((claimLegacyConnections user.id joined).connections.rows.foldl
      (inheritBinding now user.id) (claimLegacyConnections user.id joined)).bindings :=
    (keepsResources_repair h).bindings.trans (keepsResources_claimArtifacts hartifacts).bindings
  exact hjoined.trans (hclaimed.trans (hinherited.trans (.of_eq hrest)))

theorem bindings_of_transaction {call : Call} {index : ℕ} {t : Database → AppResult Database}
    (ht : call.transactions[index]? = some t) {db db' : Database} (h : t db = .ok db') :
    db'.bindings = db.bindings ∨
      ∃ s, (Op.scope call index).stamp = some s ∧ WritesAt s db db' := by
  have hmem := List.mem_of_getElem? ht
  cases call with
  | open_ now =>
    obtain rfl := List.mem_singleton.1 hmem
    exact .inl (keepsResources_repair h).bindings
  | rememberWorkspaceAccount now user =>
    obtain rfl := List.mem_singleton.1 hmem
    obtain rfl := Except.ok.inj h
    exact .inl rfl
  | syncAccountWorkspaces remembered now user workspaces =>
    rw [Call.transactions] at ht
    split at ht
    · obtain rfl := List.mem_singleton.1 (List.mem_of_getElem? ht)
      cases h
    · rcases index with _ | _ | n
      · obtain rfl := Option.some.inj ht
        obtain rfl := Except.ok.inj h
        exact .inl rfl
      · obtain rfl := Option.some.inj ht
        exact .inr ⟨_, rfl, writesAt_syncMemberships h⟩
      · simp at ht
  | activateWorkspace now id account =>
    obtain rfl := List.mem_singleton.1 hmem
    exact .inl (keepsResources_activateWorkspace h).bindings
  | activateWorkspaceAccount now user =>
    obtain rfl := List.mem_singleton.1 hmem
    exact .inl (keepsResources_activateWorkspace h).bindings
  | removeWorkspaceAccount now user =>
    obtain rfl := List.mem_singleton.1 hmem
    exact .inl (removeWorkspaceAccount_resources h).2.1

theorem bindings_upsertConnection {now : DateTime} {p : ConnectionProfile} {db db' : Database}
    (h : upsertConnection now p db = .ok db') : db'.bindings = db.bindings := by
  simp only [upsertConnection, Except.bind_eq_ok] at h
  obtain ⟨-, -, -, -, h⟩ := h
  split at h
  · cases h
  simp only [Except.bind_eq_ok] at h
  obtain ⟨-, -, h⟩ := h
  split at h
  · obtain rfl := Except.pure_eq_ok.1 h
    rfl
  · obtain ⟨-, -, h⟩ := Except.bind_eq_ok.1 h
    obtain rfl := Except.pure_eq_ok.1 h
    rfl

theorem bindings_foldlM_editConnection {now : DateTime} {workspaceId : Uuid}
    {edit : Connection → Connection} {ids : List Uuid} {db db' : Database}
    (h : ids.foldlM (editConnection now workspaceId edit) db = .ok db') :
    db'.bindings = db.bindings := by
  induction ids generalizing db with
  | nil =>
    obtain rfl := Except.pure_eq_ok.1 h
    rfl
  | cons id ids ih =>
    rw [List.foldlM_cons, Except.bind_eq_ok] at h
    obtain ⟨db₁, h₁, h⟩ := h
    obtain ⟨c, -, rfl⟩ := editConnection_eq_ok h₁
    have hrest := ih h
    exact hrest

theorem bindings_of_apply {sha256 : List UInt8 → Vector UInt8 32} {op : Op} {db db' : Database}
    (h : op.apply sha256 db = .ok db') :
    (∃ t, WritesAt t db db' ∧ op.stamp = some t) ∨ ∀ t, WritesAt t db db' := by
  cases op with
  | scope call index =>
    rw [Op.apply.eq_1] at h
    cases ht : call.transactions[index]? with
    | none =>
      rw [ht] at h
      obtain rfl := Except.ok.inj h
      exact .inr fun _ => .of_eq rfl
    | some transaction =>
      rw [ht] at h
      rcases bindings_of_transaction ht h with heq | ⟨t, hstamp, hwrites⟩
      · exact .inr fun _ => .of_eq heq
      · exact .inl ⟨t, hwrites, hstamp⟩
  | upsertConnection now p => exact .inr fun _ => .of_eq (bindings_upsertConnection h)
  | setConnectionsSchemaGroup now ids schemaGroup =>
    obtain ⟨_, -, h⟩ := Except.bind_eq_ok.1 h
    obtain ⟨_, -, h⟩ := Except.bind_eq_ok.1 h
    exact .inr fun _ => .of_eq (bindings_foldlM_editConnection h)
  | deleteConnection now id =>
    obtain ⟨_, -, h⟩ := Except.bind_eq_ok.1 h
    obtain ⟨_, -, h⟩ := Except.bind_eq_ok.1 h
    obtain ⟨c, -, rfl⟩ := editConnection_eq_ok h
    exact .inr fun _ => .of_eq rfl
  | syncRemoteConnections now workspaceId user listing =>
    obtain ⟨_, -, h⟩ := Except.bind_eq_ok.1 h
    obtain ⟨_, -, h⟩ := Except.bind_eq_ok.1 h
    obtain rfl := Except.pure_eq_ok.1 h
    have hwithdraw : WritesAt now.toRfc3339 db (withdraw now workspaceId listing db) :=
      writesAt_filter ⟨fun key _ =>
        ¬ (db.connections.get key.1).any (withdrawn workspaceId listing key.1), rfl⟩
    exact .inl ⟨_, hwithdraw.trans
      (WritesAt.foldl (writesAt_writeTemplate now workspaceId user) listing _), rfl⟩
  | bindConnectionCredentials now id user username extraParams secretRef =>
    change bindConnectionCredentials now id user username extraParams secretRef db = _ at h
    unfold bindConnectionCredentials at h
    split at h
    · cases h
    simp only [Except.bind_eq_ok] at h
    obtain ⟨-, -, -, -, h⟩ := h
    obtain rfl := Except.pure_eq_ok.1 h
    refine .inl ⟨_, writesAt_upsert rfl rfl fun b => ?_, rfl⟩
    unfold boundBinding
    split
    · exact .inr rfl
    · exact .inl rfl
  | purgeRemoteConnectionCache workspaceId connection =>
    obtain rfl := Except.ok.inj h
    refine .inr fun t => ?_
    unfold purgeRemoteConnectionCache
    split
    · exact writesAt_filter ⟨fun key _ => key.1 ≠ connection, rfl⟩
    · exact .of_eq rfl
  | putCatalogIfCurrent pin snapshot =>
    obtain ⟨⟨outcome, db₁⟩, hput, rfl⟩ := Except.map_eq_ok.1 h
    rcases putCatalogIfCurrent_spec hput with ⟨-, rfl⟩ | ⟨-, row, -, rfl⟩
    · exact .inr fun _ => .of_eq rfl
    · exact .inr fun _ => .of_eq rfl
  | insertHistoryIfCurrent pin entry =>
    obtain ⟨-, -, rfl⟩ := insertHistoryIfCurrent_spec h
    exact .inr fun _ => .of_eq rfl
  | saveDashboardIfCurrent id now pin draft =>
    obtain ⟨⟨row, db₁⟩, hsave, rfl⟩ := Except.map_eq_ok.1 h
    obtain ⟨-, -, -, rfl⟩ := saveDashboardIfCurrent_spec hsave
    exact .inr fun _ => .of_eq rfl

section

variable {sha256 : List UInt8 → Vector UInt8 32}

/-- A written binding carries the time of its operation. -/
theorem stamp_of_writes {op : Op} {db : Database} {key : Uuid × UserId} {b : Binding}
    (h : Writes db (settle (Op.apply sha256) db op) key b) : op.stamp = some b.updatedAt := by
  unfold settle at h
  cases hop : op.apply sha256 db with
  | error e =>
    rw [hop] at h
    exact absurd h.1 h.2
  | ok db' =>
    rw [hop] at h
    rcases bindings_of_apply hop with ⟨t, hwrites, hstamp⟩ | hwrites
    · rcases hwrites key b h.1 with hbefore | rfl
      · exact absurd hbefore h.2
      · exact hstamp
    -- a step that writes with any time writes nothing
    · rcases hwrites (b.updatedAt ++ "x") key b h.1 with hbefore | heq
      · exact absurd hbefore h.2
      · have hlength := congrArg String.length heq
        simp at hlength

theorem stamp_mem_of_stamped {ops : List Op} {db : Database} {t : String}
    (h : Stamped sha256 ops db t) : t ∈ ops.filterMap Op.stamp := by
  induction h with
  | here hwrites =>
    rw [List.filterMap_cons, stamp_of_writes hwrites]
    exact List.mem_cons_self
  | later _ ih =>
    rw [List.filterMap_cons]
    split
    · exact ih
    · exact List.mem_cons_of_mem _ ih

/-- Distinct times of the clock are enough. -/
theorem distinctStamps_of_nodup {ops : List Op} (h : (ops.filterMap Op.stamp).Nodup)
    (db : Database) : DistinctStamps sha256 ops db := by
  induction ops generalizing db with
  | nil => trivial
  | cons op ops ih =>
    refine ⟨fun key b hwrites hstamped => ?_, ih ?_ _⟩
    · rw [List.filterMap_cons, stamp_of_writes hwrites, List.nodup_cons] at h
      exact h.1 (stamp_mem_of_stamped hstamped)
    · exact h.sublist ((List.sublist_cons_self op ops).filterMap Op.stamp)

end

/-! ### One step of the pinned connection -/

/-- The operation lists the connection only as the shared one it is, and not under a revision that
is behind its row. -/
def Op.Careful (connection : Uuid) (op : Op) (db : Database) : Prop :=
  ∀ entry ∈ op.listing, entry.1.id = connection → ∀ c, db.connections.get connection = some c →
    c.remote = true ∧ c.revision ≤ entry.2

/-- The template, its place and its revision are the same. -/
structure SharedAs (c c' : Connection) : Prop where
  remote : c'.remote = true
  redacted : c'.toConnectionProfile.redacted = c.toConnectionProfile.redacted
  workspaceId : c'.workspaceId = c.workspaceId
  accountUserId : c'.accountUserId = c.accountUserId
  revision : c'.revision = c.revision

theorem SameTemplate.sharedAs {c c' : Connection} (h : SameTemplate c c') : SharedAs c c' :=
  ⟨h.remote, h.redacted, h.workspaceId, h.accountUserId, h.revision⟩

theorem SharedAs.refl {c : Connection} (hremote : c.remote = true) : SharedAs c c :=
  ⟨hremote, rfl, rfl, rfl, rfl⟩

theorem SharedAs.trans {a b c : Connection} (h₁ : SharedAs a b) (h₂ : SharedAs b c) :
    SharedAs a c :=
  ⟨h₂.remote, h₂.redacted.trans h₁.redacted, h₂.workspaceId.trans h₁.workspaceId,
    h₂.accountUserId.trans h₁.accountUserId, h₂.revision.trans h₁.revision⟩

section

variable {template : Uuid → ℤ → ConnectionProfile} {op : Op} {db db' : Database} {id : Uuid}

/-- A shared connection stays the same, moves to a later revision or loses its bindings. -/
theorem shared_step (hstore : StoreOk template db) (hop : op.Assumed template db)
    (hcareful : op.Careful id db) (h : OpStep op db db') {c : Connection}
    (hc : db.connections.get id = some c) (hremote : c.remote = true) :
    (∀ u, db'.bindings.get (id, u) = none) ∨ ∃ c', db'.connections.get id = some c' ∧
      (SharedAs c c' ∨ c'.remote = true ∧ c.revision < c'.revision) := by
  have hnotLocal : ∀ c₁, db.connections.get id = some c₁ → c₁.remote = false → False := by
    intro c₁ hc₁ hlocal
    rw [Option.some.inj (hc.symm.trans hc₁), hlocal] at hremote
    cases hremote
  cases h.connection id with
  | kept hrow _ => exact .inr ⟨c, hrow.trans hc, .inl (.refl hremote)⟩
  | created _ hrow _ _ _ =>
    rw [hc] at hrow
    cases hrow
  | edited c₁ _ hrow hlocal _ _ _ _ => exact (hnotLocal c₁ hrow hlocal).elim
  | claimed c₁ _ hrow hlocal _ _ _ _ => exact (hnotLocal c₁ hrow hlocal).elim
  | shared c₁ c' hrow _ hrow' hsame =>
    obtain rfl := Option.some.inj (hc.symm.trans hrow)
    exact .inr ⟨c', hrow', .inl hsame.sharedAs⟩
  | dropped _ _ _ _ hnone => exact .inl hnone
  | listed c' entry hentry hid hrow' hremote' _ hredacted hrevision hplace =>
    refine .inr ⟨c', hrow', ?_⟩
    obtain ⟨-, hle⟩ := hcareful entry hentry hid c hc
    obtain ⟨hworkspaceId, haccountUserId⟩ := hplace c hc
    rcases Int.lt_or_eq_of_le hle with hlt | heq
    · exact .inr ⟨hremote', hlt.trans_eq hrevision.symm⟩
    -- one revision has one content
    · refine .inl ⟨hremote', ?_, hworkspaceId, haccountUserId, hrevision.trans heq.symm⟩
      rw [hredacted, hop.templates entry hentry, (hstore.shared id c hc hremote).2, hid, heq]

/-- A local connection stays local: it is the same, was edited, or got its first owner. -/
theorem local_step (hcareful : op.Careful id db) (h : OpStep op db db') {c : Connection}
    (hc : db.connections.get id = some c) (hlocal : c.remote = false) :
    ∃ c', db'.connections.get id = some c' ∧ c'.remote = false ∧
      (c' = c ∨ c.revision < c'.revision ∨ c.accountUserId = none ∧
        c.workspaceId ≠ personalWorkspaceId ∧ c'.revision = c.revision) := by
  have hnotShared : ∀ c₁, db.connections.get id = some c₁ → c₁.remote = true → False := by
    intro c₁ hc₁ hremote
    rw [Option.some.inj (hc.symm.trans hc₁), hremote] at hlocal
    cases hlocal
  cases h.connection id with
  | kept hrow _ => exact ⟨c, hrow.trans hc, hlocal, .inl rfl⟩
  | created _ hrow _ _ _ =>
    rw [hc] at hrow
    cases hrow
  | edited c₁ c' hrow _ hrow' hlocal' hrevision _ =>
    obtain rfl := Option.some.inj (hc.symm.trans hrow)
    exact ⟨c', hrow', hlocal', .inr (.inl hrevision)⟩
  | claimed c₁ user hrow _ howner hteam hrow' _ =>
    obtain rfl := Option.some.inj (hc.symm.trans hrow)
    exact ⟨_, hrow', hlocal, .inr (.inr ⟨howner, hteam, rfl⟩)⟩
  | shared c₁ _ hrow hremote _ _ => exact (hnotShared c₁ hrow hremote).elim
  | dropped c₁ hrow hremote _ _ => exact (hnotShared c₁ hrow hremote).elim
  | listed c' entry hentry hid _ _ _ _ _ _ =>
    exact (hnotShared c hc (hcareful entry hentry hid c hc).1).elim

end

/-! ### The pinned connection over a run -/

/-- No operation of the run writes a binding with this time. -/
def Op.Fresh (sha256 : List UInt8 → Vector UInt8 32) (t : String) (op : Op) (db : Database) :
    Prop :=
  ∀ key b, Writes db (settle (Op.apply sha256) db op) key b → b.updatedAt ≠ t

/-- What is assumed of every operation after the pin. -/
structure Op.Quiet (sha256 : List UInt8 → Vector UInt8 32)
    (template : Uuid → ℤ → ConnectionProfile) (id : Uuid) (t : String) (op : Op) (db : Database) :
    Prop where
  assumed : op.Assumed template db
  careful : op.Careful id db
  fresh : op.Fresh sha256 t db

section

variable {sha256 : List UInt8 → Vector UInt8 32} {template : Uuid → ℤ → ConnectionProfile}
  {id : Uuid} {u : UserId} {t : String} {c₀ : Connection} {b₀ : Binding}

theorem along_fresh {ops : List Op} {db : Database} (h : ¬ Stamped sha256 ops db t) :
    Along (Op.apply sha256) (Op.Fresh sha256 t) ops db := by
  induction ops generalizing db with
  | nil => trivial
  | cons op ops ih =>
    refine ⟨?_, ih fun hlater => h (.later hlater)⟩
    rintro key b hwrites rfl
    exact h (.here hwrites)

theorem along_quiet {ops : List Op} {db : Database}
    (hassumed : Along (Op.apply sha256) (Op.Assumed template) ops db)
    (hcareful : Along (Op.apply sha256) (Op.Careful id) ops db)
    (hfresh : ¬ Stamped sha256 ops db t) :
    Along (Op.apply sha256) (Op.Quiet sha256 template id t) ops db := by
  have hboth := (hassumed.and hcareful).and (along_fresh hfresh)
  clear hassumed hcareful hfresh
  induction ops generalizing db with
  | nil => trivial
  | cons op ops ih =>
    obtain ⟨⟨⟨hassumed, hcareful⟩, hfresh⟩, hrest⟩ := hboth
    exact ⟨⟨hassumed, hcareful, hfresh⟩, ih hrest⟩

/-- The shared connection and the account's binding are those that were pinned. -/
structure SharedSame (template : Uuid → ℤ → ConnectionProfile) (id : Uuid) (u : UserId)
    (c₀ : Connection) (b₀ : Binding) (db : Database) : Prop where
  store : StoreOk template db
  row : ∃ c, db.connections.get id = some c ∧ SharedAs c₀ c
  binding : db.bindings.get (id, u) = some b₀

/-- No binding carries the pinned time, or the row is past the pinned revision. -/
structure SharedDead (template : Uuid → ℤ → ConnectionProfile) (id : Uuid) (u : UserId) (r : ℤ)
    (t : String) (db : Database) : Prop where
  store : StoreOk template db
  dead : (∀ b, db.bindings.get (id, u) = some b → b.updatedAt ≠ t) ∨
    ∃ c, db.connections.get id = some c ∧ c.remote = true ∧ r < c.revision

/-- After a fresh write the binding is the one of before or has another time. -/
theorem binding_of_fresh {op : Op} {db db' : Database} (hfresh : op.Fresh sha256 t db)
    (h : op.apply sha256 db = .ok db') {b : Binding} (hb : db'.bindings.get (id, u) = some b) :
    db.bindings.get (id, u) = some b ∨ b.updatedAt ≠ t := by
  by_cases hbefore : db.bindings.get (id, u) = some b
  · exact .inl hbefore
  · refine .inr (hfresh (id, u) b ⟨?_, hbefore⟩)
    rw [settle, h]
    exact hb

theorem sharedSame_step {op : Op} {db db' : Database}
    (hop : op.Quiet sha256 template id b₀.updatedAt db) (hsame : SharedSame template id u c₀ b₀ db)
    (h : op.apply sha256 db = .ok db') : SharedSame template id u c₀ b₀ db' ∨
      SharedDead template id u c₀.revision b₀.updatedAt db' := by
  have hstep := opStep_of_apply hop.assumed hsame.store.scope hsame.store.members h
  have hstore := hsame.store.step hop.assumed hstep
  obtain ⟨c, hc, hshared⟩ := hsame.row
  rcases shared_step hsame.store hop.assumed hop.careful hstep hc hshared.remote with
    hnone | ⟨c', hc', hshared' | ⟨hremote', hrevision⟩⟩
  · refine .inr ⟨hstore, .inl fun b hb => ?_⟩
    rw [hnone u] at hb
    cases hb
  · by_cases hkept : db'.bindings.get (id, u) = some b₀
    · exact .inl ⟨hstore, ⟨c', hc', hshared.trans hshared'⟩, hkept⟩
    · refine .inr ⟨hstore, .inl fun b hb => ?_⟩
      rcases binding_of_fresh hop.fresh h hb with hbefore | hne
      · rw [Option.some.inj (hbefore.symm.trans hsame.binding)] at hb
        exact absurd hb hkept
      · exact hne
  · rw [← hshared.revision]
    exact .inr ⟨hstore, .inr ⟨c', hc', hremote', hrevision⟩⟩

theorem sharedDead_step {op : Op} {db db' : Database} {r : ℤ}
    (hop : op.Quiet sha256 template id t db) (hdead : SharedDead template id u r t db)
    (h : op.apply sha256 db = .ok db') : SharedDead template id u r t db' := by
  have hstep := opStep_of_apply hop.assumed hdead.store.scope hdead.store.members h
  refine ⟨hdead.store.step hop.assumed hstep, ?_⟩
  rcases hdead.dead with hnone | ⟨c, hc, hremote, hrevision⟩
  · refine .inl fun b hb => ?_
    rcases binding_of_fresh hop.fresh h hb with hbefore | hne
    · exact hnone b hbefore
    · exact hne
  · rcases shared_step hdead.store hop.assumed hop.careful hstep hc hremote with
      hgone | ⟨c', hc', hshared | ⟨hremote', hlt⟩⟩
    · refine .inl fun b hb => ?_
      rw [hgone u] at hb
      cases hb
    · refine .inr ⟨c', hc', hshared.remote, ?_⟩
      rw [hshared.revision]
      exact hrevision
    · exact .inr ⟨c', hc', hremote', hrevision.trans hlt⟩

/-- The local connection is the pinned one. -/
structure LocalSame (template : Uuid → ℤ → ConnectionProfile) (id : Uuid) (c₀ : Connection)
    (db : Database) : Prop where
  store : StoreOk template db
  row : db.connections.get id = some c₀

/-- The local connection was edited since. -/
structure LocalDead (template : Uuid → ℤ → ConnectionProfile) (id : Uuid) (r : ℤ)
    (db : Database) : Prop where
  store : StoreOk template db
  dead : ∃ c, db.connections.get id = some c ∧ c.remote = false ∧ r < c.revision

theorem localSame_step {op : Op} {db db' : Database} (hlocal : c₀.remote = false)
    (howner : c₀.accountUserId = none → c₀.workspaceId = personalWorkspaceId)
    (hop : op.Assumed template db ∧ op.Careful id db) (hsame : LocalSame template id c₀ db)
    (h : op.apply sha256 db = .ok db') :
    LocalSame template id c₀ db' ∨ LocalDead template id c₀.revision db' := by
  have hstep := opStep_of_apply hop.1 hsame.store.scope hsame.store.members h
  have hstore := hsame.store.step hop.1 hstep
  obtain ⟨c', hc', hlocal', rfl | hrevision | ⟨hnone, hteam, -⟩⟩ :=
    local_step hop.2 hstep hsame.row hlocal
  · exact .inl ⟨hstore, hc'⟩
  · exact .inr ⟨hstore, c', hc', hlocal', hrevision⟩
  · exact absurd (howner hnone) hteam

theorem localDead_step {op : Op} {db db' : Database} {r : ℤ}
    (hop : op.Assumed template db ∧ op.Careful id db) (hdead : LocalDead template id r db)
    (h : op.apply sha256 db = .ok db') : LocalDead template id r db' := by
  have hstep := opStep_of_apply hop.1 hdead.store.scope hdead.store.members h
  refine ⟨hdead.store.step hop.1 hstep, ?_⟩
  obtain ⟨c, hc, hlocal, hrevision⟩ := hdead.dead
  obtain ⟨c', hc', hlocal', rfl | hlt | ⟨-, -, heq⟩⟩ := local_step hop.2 hstep hc hlocal
  · exact ⟨c', hc', hlocal', hrevision⟩
  · exact ⟨c', hc', hlocal', hrevision.trans hlt⟩
  · exact ⟨c', hc', hlocal', heq ▸ hrevision⟩

end

/-! ### What stays the same -/

/-- The material of a connection: what the active account connects with, and whose it is. -/
structure Material where
  profile : ConnectionProfile
  workspaceId : Uuid
  accountUserId : Option UserId
  remote : Bool
  deriving DecidableEq

/-- The material of a connection for the selected account. -/
def Database.material (db : Database) (id : Uuid) : Option Material :=
  (db.connections.get id).map fun c =>
    ⟨c.withBinding (db.binding id db.activeAccountId), c.workspaceId, c.accountUserId, c.remote⟩

/-- The scope, the material of the connection and the binding of the account are the same. -/
structure SamePinned (id : Uuid) (db db' : Database) : Prop where
  scope : db'.scope = db.scope
  material : db'.material id = db.material id
  binding : db'.binding id db'.activeAccountId = db.binding id db.activeAccountId

/-- Two rows of one template show the same profile with the same binding. -/
theorem withBinding_eq {c c' : Connection} (h : SharedAs c c') (hc : c.workspaceAccess ≠ .local_)
    (hc' : c'.workspaceAccess ≠ .local_) (binding : Option Binding) :
    c'.withBinding binding = c.withBinding binding := by
  have hredacted := h.redacted
  simp only [ConnectionProfile.redacted, ConnectionProfile.mk.injEq, true_and] at hredacted
  obtain ⟨h1, h2, h3, h4, h5, h6, h7, h8, h9, h10, h11, h12, h13⟩ := hredacted
  unfold Connection.withBinding
  rw [if_neg hc, if_neg hc']
  simp only [h1, h2, h3, h4, h5, h6, h7, h8, h9, h10, h11, h12, h13]
  split
  · rfl
  · rfl

section

variable {sha256 : List UInt8 → Vector UInt8 32} {template : Uuid → ℤ → ConnectionProfile}
  {id : Uuid} {db db' : Database}

theorem activeAccountId_of_scope (hscope : db'.scope = db.scope) :
    db'.activeAccountId = db.activeAccountId := (Prod.ext_iff.1 hscope).2

theorem samePinned_of_shared {u : UserId} {c₀ : Connection} {b₀ : Binding}
    (hscope : db'.scope = db.scope) (haccount : db.activeAccountId = some u)
    (hsame : SharedSame template id u c₀ b₀ db) (hsame' : SharedSame template id u c₀ b₀ db') :
    SamePinned id db db' := by
  have haccount' := (activeAccountId_of_scope hscope).trans haccount
  obtain ⟨c, hc, hshared⟩ := hsame.row
  obtain ⟨c', hc', hshared'⟩ := hsame'.row
  have hb : db.binding id db.activeAccountId = some b₀ := by
    rw [haccount]
    exact hsame.binding
  have hb' : db'.binding id db'.activeAccountId = some b₀ := by
    rw [haccount']
    exact hsame'.binding
  have hprofile : c'.withBinding (some b₀) = c.withBinding (some b₀) := by
    refine withBinding_eq ⟨hshared'.remote, ?_, ?_, ?_, ?_⟩ ?_ ?_ _
    · exact hshared'.redacted.trans hshared.redacted.symm
    · exact hshared'.workspaceId.trans hshared.workspaceId.symm
    · exact hshared'.accountUserId.trans hshared.accountUserId.symm
    · exact hshared'.revision.trans hshared.revision.symm
    · exact (hsame.store.shared id c hc hshared.remote).1
    · exact (hsame'.store.shared id c' hc' hshared'.remote).1
  refine ⟨hscope, ?_, hb'.trans hb.symm⟩
  rw [Database.material, Database.material, hc, hc', hb, hb', Option.map_some, Option.map_some,
    hprofile, hshared'.workspaceId, hshared'.accountUserId, hshared'.remote, hshared.workspaceId,
    hshared.accountUserId, hshared.remote]

/-- A local connection has no binding. -/
theorem binding_eq_none {c : Connection} (hstore : StoreOk template db)
    (hc : db.connections.get id = some c) (hlocal : c.remote = false) (account : Option UserId) :
    db.binding id account = none := by
  rw [Database.binding, Option.bind_eq_none_iff]
  intro u _
  by_contra hne
  obtain ⟨b, hb⟩ := Option.ne_none_iff_exists'.1 hne
  obtain ⟨c', hc', hremote⟩ := hstore.bound id u b hb
  rw [Option.some.inj (hc'.symm.trans hc), hlocal] at hremote
  cases hremote

theorem samePinned_of_local {c₀ : Connection} (hlocal : c₀.remote = false)
    (hscope : db'.scope = db.scope) (hsame : LocalSame template id c₀ db)
    (hsame' : LocalSame template id c₀ db') : SamePinned id db db' := by
  have hb := binding_eq_none hsame.store hsame.row hlocal db.activeAccountId
  have hb' := binding_eq_none hsame'.store hsame'.row hlocal db'.activeAccountId
  refine ⟨hscope, ?_, hb'.trans hb.symm⟩
  rw [Database.material, Database.material, hsame.row, hsame'.row, hb, hb']

/-- A pinned local connection has an owner, or is personal. -/
theorem workspaceId_of_no_owner {r : ScopedConnection} (hmembers : MembersOk db)
    (hr : r.Of db id) (hlocal : r.connection.remote = false)
    (howner : r.connection.accountUserId = none) :
    r.connection.workspaceId = personalWorkspaceId := by
  have hvisible := hr.visible
  simp only [Connection.visible, decide_eq_true_eq] at hvisible
  obtain ⟨hworkspace, -, hpersonal | hremote | ⟨hne, hown⟩⟩ := hvisible
  · rw [hworkspace]
    exact hmembers.personalOnly _ _ (activeWorkspace_eq_some.1 hr.workspace).1 hpersonal
  · rw [hlocal] at hremote
    cases hremote
  · exact absurd (hown.symm.trans howner) hne

/-- A pinned shared connection has a binding of the selected account, written at the pinned time. -/
theorem binding_of_pinned {pin : PinnedConnection} {r : ScopedConnection} (hpin : pin.Of db id r)
    (hremote : r.connection.remote = true) : ∃ u b, db.activeAccountId = some u ∧
      db.bindings.get (id, u) = some b ∧ b.updatedAt = pin.bindingUpdatedAt := by
  obtain ⟨-, hne⟩ := hpin.bound hremote
  have hstamp := hpin.bindingUpdatedAt
  rw [Connection.bindingUpdatedAt, if_pos hremote] at hstamp
  cases hb : db.binding id db.activeAccountId with
  | none =>
    rw [hb] at hstamp
    exact absurd hstamp hne
  | some b =>
    rw [hb] at hstamp
    obtain ⟨u, hu, hget⟩ := Option.bind_eq_some_iff.1 hb
    exact ⟨u, b, hu, hget, hstamp.symm⟩

/-- A dead shared connection does not pass the check. -/
theorem not_sharedDead {pin : PinnedConnection} {r : ScopedConnection} {u : UserId}
    (hcurrent : pin.CurrentIn db r) (hid : pin.connectionId = id)
    (haccount : pin.scope.selectedAccountId = some u) (hbound : 1 ≤ pin.bindingRevision) :
    ¬ SharedDead template id u pin.connectionRevision pin.bindingUpdatedAt db := by
  subst hid
  intro hdead
  have hr := scopedConnection_spec hcurrent.resolved
  have hrevision := hcurrent.bindingRevision
  have hstamp := hcurrent.bindingUpdatedAt
  rw [Connection.bindingRevision] at hrevision
  rw [Connection.bindingUpdatedAt] at hstamp
  cases hremote : r.connection.remote with
  | false =>
    rw [hremote, if_neg Bool.false_ne_true] at hrevision
    omega
  | true =>
    rw [hremote, if_pos rfl] at hrevision hstamp
    rw [hcurrent.account, haccount] at hrevision hstamp
    rcases hdead.dead with hnone | ⟨c, hc, -, hlt⟩
    · cases hb : db.binding pin.connectionId (some u) with
      | none =>
        rw [hb] at hrevision
        simp only [Option.map_none, Option.getD_none] at hrevision
        omega
      | some b =>
        rw [hb] at hstamp
        exact hnone b hb hstamp
    · rw [Option.some.inj (hc.symm.trans hr.connection), hcurrent.connectionRevision] at hlt
      exact lt_irrefl _ hlt

theorem not_localDead {pin : PinnedConnection} {r : ScopedConnection}
    (hcurrent : pin.CurrentIn db r) (hid : pin.connectionId = id) :
    ¬ LocalDead template id pin.connectionRevision db := by
  subst hid
  rintro ⟨-, c, hc, -, hlt⟩
  have hr := scopedConnection_spec hcurrent.resolved
  rw [Option.some.inj (hc.symm.trans hr.connection), hcurrent.connectionRevision] at hlt
  exact lt_irrefl _ hlt

end

/-! ### A sample run -/

theorem sampleId_ne_empty : "7a" ≠ "" := by decide

theorem sampleId_ne_personal : "7a" ≠ "personal" := by decide

def sampleUser : WorkspaceAuthUser :=
  ⟨⟨"7a", sampleId_ne_empty, sampleId_ne_personal⟩, "ada@example.com", "Ada"⟩

/-- A template on the given host. -/
def sampleProfile (host : String) : ConnectionProfile :=
  ⟨.ofByte 3, "Warehouse", .postgres, .auto, none, host, 5432, "app", "", "require", "{}",
    true, false, none, none, none, .read, .memberLocal⟩

/-- The server moves the template to another host with its second revision. -/
def sampleTemplates (_ : Uuid) (revision : ℤ) : ConnectionProfile :=
  (sampleProfile (if revision = 2 then "b.example.com" else "a.example.com")).redacted

/-- A listing of the template under one of its revisions. -/
def listSample (day : Fin 32) (host : String) (revision : ℤ) : Op :=
  .syncRemoteConnections (.ofDay day) (.ofByte 2) sampleUser.id [(sampleProfile host, revision)]

/-- An account joins a team, works there, and gets the list of its connections. -/
def sampleBefore : List Op :=
  let join : Call := .syncAccountWorkspaces (.ofDay 1) (.ofDay 1) sampleUser
    [(.ofByte 2, "Research", .editor)]
  [.scope join 0, .scope join 1, .scope (.activateWorkspace (.ofDay 2) (.ofByte 2)
    (some sampleUser.id)) 0, listSample 3 "a.example.com" 1]

/-- The list with the second revision is written, and then one that was fetched before it. -/
def sampleStale : List Op := [listSample 4 "b.example.com" 2, listSample 5 "a.example.com" 1]

def samplePin : PinnedConnection :=
  ⟨⟨.ofByte 2, .team, some sampleUser.id, .workspaceUser sampleUser.id, 1⟩, .ofByte 3, 1, 1,
    (DateTime.ofDay 3).toRfc3339, sampleProfile "a.example.com", true, .persistent⟩

theorem assumed_listSample {day : Fin 32} {host : String} {revision : ℤ}
    (h : (sampleProfile host).redacted = sampleTemplates (.ofByte 3) revision) (db : Database) :
    (listSample day host revision).Assumed sampleTemplates db where
  editsLocal := by
    rintro id ⟨⟩
  templates := by
    intro entry hentry
    obtain rfl := List.mem_singleton.1 hentry
    exact h

theorem assumed_scope (call : Call) (index : ℕ) (db : Database) :
    (Op.scope call index).Assumed sampleTemplates db where
  editsLocal := by
    rintro id ⟨⟩
  templates := by
    rintro entry ⟨⟩

theorem assumed_sampleBefore : ∀ op ∈ sampleBefore, ∀ db, op.Assumed sampleTemplates db := by
  simp only [sampleBefore, List.forall_mem_cons, List.not_mem_nil, false_imp_iff, implies_true,
    and_true]
  exact ⟨assumed_scope _ _, assumed_scope _ _, assumed_scope _ _, assumed_listSample (by decide)⟩

theorem pin_sampleBefore :
    (run (Op.apply Sha256.sha256) sampleBefore (freshStore (.ofDay 0))).pinConnectionWithAccess
      (.ofByte 3) true = .ok samplePin := by decide +kernel

/-- The list that is fetched again is written under the revision the row has. -/
def sampleRefresh : List Op := [listSample 4 "a.example.com" 1]

theorem careful_sampleRefresh : Along (Op.apply Sha256.sha256) (Op.Careful (.ofByte 3))
    sampleRefresh (run (Op.apply Sha256.sha256) sampleBefore (freshStore (.ofDay 0))) := by
  refine ⟨fun entry hentry _ c hc => ?_, trivial⟩
  obtain rfl := List.mem_singleton.1 hentry
  have hall : ((run (Op.apply Sha256.sha256) sampleBefore
      (freshStore (.ofDay 0))).connections.get (.ofByte 3)).all
        (fun c => c.remote = true ∧ c.revision ≤ 1) = true := by decide +kernel
  rw [hc] at hall
  exact of_decide_eq_true hall

/-! ### Main results -/

/-- The rows written under the pin carry its workspace, account scope, connection and revisions. -/
structure WritesAsPinned (sha256 : List UInt8 → Vector UInt8 32) (db : Database)
    (pin : PinnedConnection) : Prop where
  catalog : ∀ snapshot db', putCatalogIfCurrent sha256 pin snapshot db = .ok (.stored, db') →
    ∃ row : CatalogRow, row.Matches pin snapshot ∧ db'.catalogs = db.catalogs.put
      (pin.scope.workspaceId, pin.scope.accountScope.storageKey, pin.connectionId) row
  history : ∀ entry db', insertHistoryIfCurrent pin entry db = .ok db' →
    entry.connectionId = pin.connectionId ∧
      db'.history = db.history ++ [⟨entry, pin.scope.accountScope.storageKey⟩]
  dashboard : ∀ id now draft row db',
    saveDashboardIfCurrent id now pin draft db = .ok (row, db') →
      row.connectionId = pin.connectionId ∧ row.workspaceId = pin.scope.workspaceId ∧
        db'.dashboards = db.dashboards ++ [row]

theorem writesAsPinned (sha256 : List UInt8 → Vector UInt8 32) (db : Database)
    (pin : PinnedConnection) : WritesAsPinned sha256 db pin where
  catalog := by
    intro snapshot db' h
    rcases putCatalogIfCurrent_spec h with ⟨hne, -⟩ | ⟨-, row, hmatches, rfl⟩
    · exact absurd rfl hne
    · exact ⟨row, hmatches, rfl⟩
  history := by
    intro entry db' h
    obtain ⟨-, hconnection, rfl⟩ := insertHistoryIfCurrent_spec h
    exact ⟨hconnection, rfl⟩
  dashboard := by
    intro id now draft row db' h
    obtain ⟨-, hconnection, hworkspace, rfl⟩ := saveDashboardIfCurrent_spec h
    exact ⟨hconnection, hworkspace, rfl⟩

section

variable {sha256 : List UInt8 → Vector UInt8 32} {template : Uuid → ℤ → ConnectionProfile}

theorem advances_run {ops : List Op} {db : Database}
    (hops : Along (Op.apply sha256) (Op.Assumed template) ops db) (hok : StoreOk template db) :
    Advances db (run (Op.apply sha256) ops db) := by
  have hboth : StoreOk template (run (Op.apply sha256) ops db) ∧
      Advances db (run (Op.apply sha256) ops db) := by
    refine run_invariant (I := fun s => StoreOk template s ∧ Advances db s) ?_ hops ⟨hok, .refl db⟩
    rintro op s s' hop ⟨hs, hadvances⟩ h
    have hstep := opStep_of_apply hop hs.scope hs.members h
    exact ⟨hs.step hop hstep, hadvances.trans hstep.advances⟩
  exact hboth.2

/-- **An accepted pin names a scope and a connection that never changed since it was taken.** -/
theorem samePinned_of_accepts {now : DateTime} {before after : List Op} {pinned final : Database}
    {id : Uuid} {requireRead : Bool} {pin : PinnedConnection}
    (hbefore : run (Op.apply sha256) before (freshStore now) = pinned)
    (hafter : run (Op.apply sha256) after pinned = final)
    (hassumed : Along (Op.apply sha256) (Op.Assumed template) (before ++ after) (freshStore now))
    (hstamps : DistinctStamps sha256 (before ++ after) (freshStore now))
    (hcareful : Along (Op.apply sha256) (Op.Careful id) after pinned)
    (hpin : pinned.pinConnectionWithAccess id requireRead = .ok pin)
    (haccepts : Accepts sha256 final pin) :
    (∀ mid rest, after = mid ++ rest → SamePinned id pinned (run (Op.apply sha256) mid pinned)) ∧
      WritesAsPinned sha256 final pin := by
  obtain ⟨hassumed₀, hassumed⟩ := along_append.1 hassumed
  have hstore := storeOk_run hassumed₀ (storeOk_freshStore now)
  have hstamped : ∀ key b, (run (Op.apply sha256) before (freshStore now)).bindings.get key =
      some b → ¬ Stamped sha256 after (run (Op.apply sha256) before (freshStore now))
        b.updatedAt := by
    intro key b hb
    rcases stamped_of_binding hb with ⟨⟨⟩⟩ | hearlier
    exact hstamps.not_stamped hearlier
  rw [hbefore] at hstore hstamped hassumed
  refine ⟨?_, writesAsPinned _ _ _⟩
  rintro mid rest rfl
  obtain ⟨r, hr⟩ := pinConnectionWithAccess_spec hpin
  obtain ⟨allowView, hallow⟩ := haccepts.isPinCurrentWithAccess
  obtain ⟨r', hcurrent⟩ := isPinCurrentWithAccess_spec hallow
  have hrow := scopedConnection_spec hr.resolved
  have hrow' := scopedConnection_spec hcurrent.resolved
  obtain ⟨-, hgeneration, haccount⟩ := activeResourceScope_spec hr.scope
  -- the generation is the pinned one at both ends, so the scope is the pinned one throughout
  have hscope : (run (Op.apply sha256) mid pinned).scope = pinned.scope := by
    obtain ⟨hmid, hrest⟩ := along_append.1 hassumed
    have hadvances := advances_run hrest (storeOk_run hmid hstore)
    rw [← run_append, hafter] at hadvances
    refine (advances_run hmid hstore).scope_eq hadvances ?_
    rw [hgeneration, hrow'.generation, hcurrent.generation]
  rw [← hafter] at hcurrent
  cases hremote : r.connection.remote with
  | false =>
    have howner := workspaceId_of_no_owner hstore.members hrow hremote
    have hsame : LocalSame template id r.connection pinned := ⟨hstore, hrow.connection⟩
    have hmid := stays_of_not_dead (fun _ _ _ => localSame_step hremote howner)
      (fun _ _ _ => localDead_step) (hassumed.and hcareful) hsame ?_
    · exact samePinned_of_local hremote hscope hsame hmid
    · rw [← hr.connectionRevision]
      exact not_localDead hcurrent hr.connectionId
  | true =>
    obtain ⟨u, b, hu, hb, hstamp⟩ := binding_of_pinned hr hremote
    have hquiet := along_quiet hassumed hcareful (hstamped _ b hb)
    have hsame : SharedSame template id u r.connection b pinned :=
      ⟨hstore, ⟨_, hrow.connection, .refl hremote⟩, hb⟩
    have hmid := stays_of_not_dead (fun _ _ _ => sharedSame_step) (fun _ _ _ => sharedDead_step)
      hquiet hsame ?_
    · exact samePinned_of_shared hscope hu hsame hmid
    · rw [hstamp, ← hr.connectionRevision]
      exact not_sharedDead hcurrent hr.connectionId (haccount.symm.trans hu) (hr.bound hremote).1

end

theorem samePinned_of_accepts_sampleRefresh :
    SamePinned (.ofByte 3) (run (Op.apply Sha256.sha256) sampleBefore (freshStore (.ofDay 0)))
        (run (Op.apply Sha256.sha256) sampleRefresh
          (run (Op.apply Sha256.sha256) sampleBefore (freshStore (.ofDay 0)))) ∧
      WritesAsPinned Sha256.sha256 (run (Op.apply Sha256.sha256) sampleRefresh
        (run (Op.apply Sha256.sha256) sampleBefore (freshStore (.ofDay 0)))) samplePin := by
  have hassumed : ∀ op ∈ sampleBefore ++ sampleRefresh, ∀ db, op.Assumed sampleTemplates db := by
    refine List.forall_mem_append.2 ⟨assumed_sampleBefore, ?_⟩
    simp only [sampleRefresh, List.forall_mem_cons, List.not_mem_nil, false_imp_iff, implies_true,
      and_true]
    exact assumed_listSample (by decide)
  have hsame := samePinned_of_accepts rfl rfl (along_of_forall hassumed)
    (distinctStamps_of_nodup (by decide +kernel) _) careful_sampleRefresh pin_sampleBefore
    (.current (by decide +kernel))
  exact ⟨hsame.1 sampleRefresh [] rfl, hsame.2⟩

/-- **Without care** a late listing brings back an old revision, and with it the pin: in between
the connection was on another host. -/
theorem not_samePinned_of_accepts :
    ¬ ∀ (template : Uuid → ℤ → ConnectionProfile) (now : DateTime) (before after : List Op)
      (pinned final : Database) (id : Uuid) (requireRead : Bool) (pin : PinnedConnection),
      run (Op.apply Sha256.sha256) before (freshStore now) = pinned →
      run (Op.apply Sha256.sha256) after pinned = final →
      Along (Op.apply Sha256.sha256) (Op.Assumed template) (before ++ after) (freshStore now) →
      DistinctStamps Sha256.sha256 (before ++ after) (freshStore now) →
      pinned.pinConnectionWithAccess id requireRead = .ok pin →
      Accepts Sha256.sha256 final pin →
      ∀ mid rest, after = mid ++ rest →
        SamePinned id pinned (run (Op.apply Sha256.sha256) mid pinned) := by
  intro h
  have hassumed : ∀ op ∈ sampleBefore ++ sampleStale, ∀ db, op.Assumed sampleTemplates db := by
    refine List.forall_mem_append.2 ⟨assumed_sampleBefore, ?_⟩
    simp only [sampleStale, List.forall_mem_cons, List.not_mem_nil, false_imp_iff, implies_true,
      and_true]
    exact ⟨assumed_listSample (by decide), assumed_listSample (by decide)⟩
  have hsame := h sampleTemplates (.ofDay 0) sampleBefore sampleStale _ _ (.ofByte 3) true samplePin
    rfl rfl (along_of_forall hassumed) (distinctStamps_of_nodup (by decide +kernel) _)
    pin_sampleBefore (.current (by decide +kernel)) [listSample 4 "b.example.com" 2]
    [listSample 5 "a.example.com" 1] rfl
  exact absurd hsame.material (by decide +kernel)

end Store
end AgentDb
