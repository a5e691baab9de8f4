import AgentDb.Lib.CopyOnWrite
import AgentDb.Services.ConnectionService
import AgentDb.Services.ScopeGate
import AgentDb.Store.Listing

/-!
# Editing connections: `services/connection_service.rs` and `services/workspace_service.rs`

A connection lives in two places without a common transaction: its row in the store, and its
password as an item of the credential vault that the row names. `upsert`, `set_schema_group` and
`delete` edit the local connections, and `bind_connection_credentials` the account's binding of a
shared one. Any request to the store or the vault may fail.
-/

namespace AgentDb
namespace Services

open Connection Protocol ScopeGate Store

/-! ### The store and the vault -/

/-- The store, and the items of the vault by their credential ids. -/
structure Estate where
  db : Database
  vault : Table Uuid String

/-- What fails of the requests of a call. A request to the vault that fails may have left something
under the id; a deletion may leave the item. -/
structure Faults where
  scope : Option AppError := none
  list : Option AppError := none
  begin_ : Option AppError := none
  store : Option (AppError × Option String) := none
  commit : Option AppError := none
  undeleted : Bool := false

/-- A request to the store that may fail without having done anything. -/
def request {α : Type} (fault : Option AppError) (m : AppResult α) : AppResult α :=
  match fault with
  | some e => .error e
  | none => m

theorem request_eq_ok {α : Type} {fault : Option AppError} {m : AppResult α} {a : α} :
    request fault m = .ok a ↔ fault = none ∧ m = .ok a := by
  cases fault <;> simp [request]

namespace Estate

variable (e : Estate) (f : Faults)

/-- `ConnectionCredentialVault::store`. -/
def store (id : Uuid) (secret : String) : AppResult Unit × Estate :=
  match f.store with
  | none => (.ok (), { e with vault := e.vault.put id secret })
  | some (error, none) => (.error error, e)
  | some (error, some left) => (.error error, { e with vault := e.vault.put id left })

/-- `delete_secret_best_effort`. -/
def deleteSecret (id : Uuid) : Estate :=
  if f.undeleted then e else { e with vault := e.vault.filterRows fun k _ => k ≠ id }

end Estate

/-- `MAX_CONNECTION_CREDENTIAL_BYTES`. -/
def maxConnectionCredentialBytes : ℕ := 2 ^ 16

/-! ### Schema groups -/

/-- `eq_ignore_ascii_case`. -/
def eqIgnoreAsciiCase (a b : String) : Bool :=
  a.toList.map Char.toLower = b.toList.map Char.toLower

/-- `validate_schema_group_engine`. -/
def validateSchemaGroupEngine (profile : ConnectionProfile) (connections : List ConnectionProfile) :
    AppResult Unit :=
  match profile.schemaGroup with
  | none => .ok ()
  | some group =>
      refuseIf (connections.any fun connection =>
          connection.id ≠ profile.id ∧
            (connection.schemaGroup.any fun candidate => eqIgnoreAsciiCase (trim candidate) group) ∧
            connection.engine ≠ profile.engine)
        (.config ("schema group '" ++ group ++ "' already contains a different database engine"))

/-- Give the listed connection of an id a group. -/
def regroup (schemaGroup : Option String) (id : Uuid) :
    List ConnectionProfile → AppResult (List ConnectionProfile)
  | [] => .error (.notFound ("connection " ++ id.toText))
  | profile :: rest =>
      if profile.id = id then do
        refuseIf (profile.workspaceAccess ≠ .local_)
          (.blocked "shared template metadata must be changed through the workspace service")
        pure ({ profile with schemaGroup } :: rest)
      else do
        let rest ← regroup schemaGroup id rest
        pure (profile :: rest)

/-- The listed connection of an id. -/
def findProfile (connections : List ConnectionProfile) (id : Uuid) : AppResult ConnectionProfile :=
  match connections.find? fun profile => profile.id = id with
  | some profile => .ok profile
  | none => .error (.notFound ("connection " ++ id.toText))

/-- What `set_schema_group` checks and answers before it writes. -/
def groupedProfiles (f : Faults) (ids : List Uuid) (schemaGroup : Option String) (db : Database) :
    AppResult (List ConnectionProfile) := do
  let listed ← request f.list db.listConnections
  let connections ← ids.foldlM (fun connections id => regroup schemaGroup id connections) listed
  let updated ← ids.mapM (findProfile connections)
  updated.forM fun profile => validateSchemaGroupEngine profile connections
  pure updated

/-- `ConnectionService::set_schema_group`. -/
def setSchemaGroup (f : Faults) (now : DateTime) (ids : List Uuid) (schemaGroup : Option String)
    (e : Estate) : AppResult (List ConnectionProfile) × Estate :=
  let ids := ids.eraseDups
  if ids = [] then (.ok [], e)
  else
    let schemaGroup := normalizeSchemaGroup schemaGroup
    match groupedProfiles f ids schemaGroup e.db with
    | .error error => (.error error, e)
    | .ok updated =>
        match request f.commit (setConnectionsSchemaGroup now ids schemaGroup e.db) with
        | .error error => (.error error, e)
        | .ok db => (.ok updated, { e with db })

end Services

/-! ### Saving a connection -/

namespace Store

/-- `ensure_connection_write_scope`. -/
def Database.ensureConnectionWriteScope (db : Database) (id : Uuid) : AppResult Unit := do
  let (workspaceId, workspace) ← db.activeWorkspaceRow
  match db.connections.get id with
  | none => pure ()
  | some c =>
      refuseIf (c.workspaceId ≠ workspaceId ∨
          (workspace.kind = .team ∧ c.accountUserId ≠ db.activeAccountId) ∨ c.remote)
        (.notFound ("connection " ++ id.toText))

end Store

namespace Services

open Connection Protocol ScopeGate Store

/-- `ConnectionUpsertRequest`. -/
structure ConnectionUpsertRequest where
  profile : ConnectionProfile
  password : Option String

/-- What `upsert` knows before it writes: the profile without its reference, the credential the
stored row names, and the new password. -/
structure PreparedUpsert where
  profile : ConnectionProfile
  existing : Option Uuid
  password : Option String

section

variable (parseUuid : String → Option Uuid) (validateDriver : ConnectionProfile → AppResult Unit)

/-- A stored reference as the id of its item. -/
def parseReference (invalid : AppError) : Option String → AppResult (Option Uuid)
  | none => .ok none
  | some reference =>
      match parseUuid reference with
      | some id => .ok (some id)
      | none => .error invalid

/-- The part of `upsert` that only reads. -/
def prepareUpsert (f : Faults) (r : ConnectionUpsertRequest) (db : Database) :
    AppResult PreparedUpsert := do
  refuseIf (r.profile.workspaceAccess ≠ .local_)
    (.blocked
      "shared templates are edited by workspace editors; bind credentials separately")
  let profile := { r.profile with schemaGroup := normalizeSchemaGroup r.profile.schemaGroup }
  validateDriver profile
  request f.scope (db.ensureConnectionWriteScope profile.id)
  let connections ← request f.list db.listConnections
  validateSchemaGroupEngine profile connections
  let stored := (connections.find? fun connection => connection.id = profile.id).bind (·.secretRef)
  let existing ← parseReference parseUuid
    (.config "stored connection secret reference is invalid") stored
  let password := r.password.filter (· ≠ "")
  refuseIf (password.any fun value => value.utf8ByteSize > maxConnectionCredentialBytes)
    (.config "connection credential exceeds the size limit")
  pure ⟨profile, existing, password⟩

/-- `ConnectionService::upsert`; `credentialId` is the id of the item it makes for a password. -/
def upsert (f : Faults) (now : DateTime) (credentialId : Uuid) (r : ConnectionUpsertRequest)
    (e : Estate) : AppResult ConnectionProfile × Estate :=
  match prepareUpsert parseUuid validateDriver f r e.db with
  | .error error => (.error error, e)
  | .ok p =>
      match p.password with
      | none =>
          let profile := { p.profile with secretRef := p.existing.map Uuid.toText }
          match request f.commit (upsertConnection now profile e.db) with
          | .error error => (.error error, e)
          | .ok db => (.ok profile, { e with db := tryClearSchemaCache profile.id db })
      | some password =>
          let profile := { p.profile with secretRef := some credentialId.toText }
          match e.store f credentialId password with
          | (.error error, e) => (.error error, e)
          | (.ok _, e) =>
              match request f.commit (upsertConnection now profile e.db) with
              | .error error => (.error error, e.deleteSecret f credentialId)
              | .ok db =>
                  let e := { e with db := tryClearSchemaCache profile.id db }
                  (.ok profile, p.existing.elim e (e.deleteSecret f))

/-! ### Deleting a connection -/

/-- The part of `delete` up to its commit; `answer` is what the control plane says. -/
def deletedReference (f : Faults) (now : DateTime) (id : Uuid) (answer : AppResult ℤ)
    (db : Database) : AppResult (Option String × Database) := do
  let pin ← request f.begin_ (beginConnectionMutation id .read answer db)
  refuseIf (pin.profile.workspaceAccess ≠ .local_)
    (.blocked "shared connections can only be removed by a workspace administrator")
  let db ← request f.commit (deleteConnection now id db)
  pure (pin.profile.secretRef, db)

/-- `ConnectionService::delete`; a reference that is no id is passed over. -/
def delete (f : Faults) (now : DateTime) (id : Uuid) (answer : AppResult ℤ) (e : Estate) :
    AppResult Unit × Estate :=
  match deletedReference f now id answer e.db with
  | .error error => (.error error, e)
  | .ok (reference, db) =>
      let e := { e with db }
      (.ok (), (reference.bind parseUuid).elim e (e.deleteSecret f))

/-! ### Binding the credentials of an account -/

/-- `WorkspaceCredentialBindingRequest`. -/
structure WorkspaceCredentialBindingRequest where
  connectionId : Uuid
  username : String
  password : String

/-- What `bind_connection_credentials` knows before it writes. -/
structure PreparedBinding where
  profile : ConnectionProfile
  username : String
  account : UserId
  previous : Option Uuid

/-- The part of `bind_connection_credentials` that only reads. -/
def prepareBinding (f : Faults) (answer : AppResult ℤ) (r : WorkspaceCredentialBindingRequest)
    (db : Database) : AppResult PreparedBinding := do
  let username := trim r.username
  refuseIf (username.utf8ByteSize > 320 ∨ username.toList.any isControl)
    (.config "username is invalid")
  refuseIf (r.password = "" ∨ r.password.utf8ByteSize > maxConnectionCredentialBytes)
    (.config "connection credential is empty or exceeds the size limit")
  let pin ← request f.begin_ (beginConnectionMutation r.connectionId .read answer db)
  refuseIf (pin.profile.workspaceAccess = .local_)
    (.config "connection is not a shared workspace template")
  refuseIf (pin.profile.credentialMode ≠ .memberLocal)
    (.blocked "this shared connection uses automatically managed credentials")
  refuseIf (¬ pin.profile.workspaceAccess.canRead)
    (.blocked "your workspace role cannot execute this connection")
  match pin.scope.selectedAccountId with
  | none => throw (.config "no active workspace account")
  | some account =>
      let previous ← parseReference parseUuid (.config "connection secret reference is invalid")
        pin.profile.secretRef
      pure ⟨pin.profile, username, account, previous⟩

/-- `WorkspaceService::bind_connection_credentials`. -/
def bindCredentials (f : Faults) (now : DateTime) (credentialId : Uuid) (answer : AppResult ℤ)
    (r : WorkspaceCredentialBindingRequest) (e : Estate) : AppResult ConnectionProfile × Estate :=
  match prepareBinding parseUuid f answer r e.db with
  | .error error => (.error error, e)
  | .ok p =>
      let secretRef := some credentialId.toText
      match e.store f credentialId r.password with
      | (.error error, e) => (.error error, e)
      | (.ok _, e) =>
          match request f.commit (Store.bindConnectionCredentials now r.connectionId p.account
            p.username p.profile.extraParams secretRef e.db) with
          | .error error => (.error error, e.deleteSecret f credentialId)
          | .ok db =>
              let e := { e with db }
              (.ok { p.profile with username := p.username, secretRef := secretRef },
                p.previous.elim e (e.deleteSecret f))

/-! ### What a call finds and leaves -/

section Specs

variable {parseUuid validateDriver}
variable {f : Faults} {now : DateTime} {e e' : Estate} {credentialId : Uuid} {answer : AppResult ℤ}

/-- A failed request to store an item leaves the rows and every other item. -/
theorem store_eq_error {secret : String} {error : AppError}
    (h : e.store f credentialId secret = (.error error, e')) :
    e'.db = e.db ∧ ∀ id, id ≠ credentialId → e'.vault.get id = e.vault.get id := by
  unfold Estate.store at h
  split at h
  · cases h
  · cases h
    exact ⟨rfl, fun _ _ => rfl⟩
  · cases h
    exact ⟨rfl, fun id hid => Table.get_put_of_ne _ _ hid⟩

theorem store_eq_ok {secret : String} {u : Unit}
    (h : e.store f credentialId secret = (.ok u, e')) :
    e' = { e with vault := e.vault.put credentialId secret } := by
  unfold Estate.store at h
  split at h <;> cases h
  rfl

@[simp] theorem deleteSecret_db (id : Uuid) : (e.deleteSecret f id).db = e.db := by
  unfold Estate.deleteSecret
  split <;> rfl

theorem deleteSecret_get {deleted id : Uuid} (h : id ≠ deleted) :
    (e.deleteSecret f deleted).vault.get id = e.vault.get id := by
  unfold Estate.deleteSecret
  split
  · rfl
  · exact (Table.get_filterRows_ne _ _ _).trans (if_neg h)

theorem deleteSecret_get_none {deleted id : Uuid} (h : e.vault.get id = none) :
    (e.deleteSecret f deleted).vault.get id = none := by
  unfold Estate.deleteSecret
  split
  · exact h
  · exact (Table.get_filterRows_ne _ _ _).trans (by rw [h, ite_self])

/-- Of the items that may be removed, only the named one is, and none is added. -/
theorem elim_deleteSecret (deleted : Option Uuid) :
    (deleted.elim e (e.deleteSecret f)).db = e.db ∧
      (∀ id, deleted ≠ some id → (deleted.elim e (e.deleteSecret f)).vault.get id =
        e.vault.get id) ∧
      ∀ id, e.vault.get id = none → (deleted.elim e (e.deleteSecret f)).vault.get id = none := by
  cases deleted with
  | none => exact ⟨rfl, fun _ _ => rfl, fun _ h => h⟩
  | some d =>
      exact ⟨deleteSecret_db d, fun id hid => deleteSecret_get fun heq => hid (heq ▸ rfl),
        fun id h => deleteSecret_get_none h⟩

/-- Clearing a cache writes the caches only. -/
theorem tryClearSchemaCache_eq (id : Uuid) (db : Database) : ∃ legacyCatalogs catalogs,
    tryClearSchemaCache id db = { db with legacyCatalogs, catalogs } := by
  unfold tryClearSchemaCache
  split
  case h_1 db' h =>
    obtain ⟨pin, -, h⟩ := Except.bind_eq_ok.1 h
    exact ⟨_, _, (Except.pure_eq_ok.1 h).symm⟩
  case h_2 => exact ⟨_, _, rfl⟩

theorem prepareUpsert_eq_ok {r : ConnectionUpsertRequest} {p : PreparedUpsert} {db : Database}
    (h : prepareUpsert parseUuid validateDriver f r db = .ok p) :
    ∃ l, db.listConnections = .ok l ∧
      p.profile = { r.profile with schemaGroup := normalizeSchemaGroup r.profile.schemaGroup } ∧
      validateSchemaGroupEngine p.profile l = .ok () ∧
      parseReference parseUuid (.config "stored connection secret reference is invalid")
        ((l.find? fun connection => connection.id = p.profile.id).bind (·.secretRef)) =
          .ok p.existing ∧
      p.password = r.password.filter (· ≠ "") := by
  simp only [prepareUpsert, Except.bind_eq_ok, request_eq_ok] at h
  obtain ⟨-, -, -, -, -, -, l, ⟨-, hlist⟩, _, hvalid, existing, hexisting, -, -, h⟩ := h
  obtain rfl := Except.pure_eq_ok.1 h
  exact ⟨l, hlist, rfl, hvalid, hexisting, rfl⟩

/-- What an upsert that went through has done. -/
structure UpsertDone (parseUuid : String → Option Uuid)
    (validateDriver : ConnectionProfile → AppResult Unit) (f : Faults) (now : DateTime)
    (credentialId : Uuid) (r : ConnectionUpsertRequest) (e e' : Estate)
    (profile : ConnectionProfile) (p : PreparedUpsert) (db : Database) : Prop where
  prepared : prepareUpsert parseUuid validateDriver f r e.db = .ok p
  profile_eq : profile = { p.profile with
    secretRef := p.password.elim (p.existing.map Uuid.toText) fun _ => some credentialId.toText }
  saved : upsertConnection now profile e.db = .ok db
  db_eq : e'.db = tryClearSchemaCache profile.id db
  kept : p.password = none → e'.vault = e.vault
  rotated : ∀ password, p.password = some password → ∀ id, p.existing ≠ some id →
    e'.vault.get id = if id = credentialId then some password else e.vault.get id
  absent : ∀ id, id ≠ credentialId → e.vault.get id = none → e'.vault.get id = none

/-- An upsert fails and leaves the rows and all items but its own, or it is done. -/
theorem upsert_cases {r : ConnectionUpsertRequest} {result : AppResult ConnectionProfile}
    (h : upsert parseUuid validateDriver f now credentialId r e = (result, e')) :
    (∃ error, result = .error error ∧ e'.db = e.db ∧
      ∀ id, id ≠ credentialId → e'.vault.get id = e.vault.get id) ∨
    ∃ profile p db, result = .ok profile ∧
      UpsertDone parseUuid validateDriver f now credentialId r e e' profile p db := by
  unfold upsert at h
  split at h
  case h_1 error _ =>
    cases h
    exact .inl ⟨error, rfl, rfl, fun _ _ => rfl⟩
  case h_2 p hp =>
    split at h
    case h_1 hpassword =>
      dsimp only at h
      split at h
      case h_1 error _ =>
        cases h
        exact .inl ⟨error, rfl, rfl, fun _ _ => rfl⟩
      case h_2 db hdb =>
        cases h
        refine .inr ⟨_, p, db, rfl, hp, ?_, (request_eq_ok.1 hdb).2, rfl, fun _ => rfl,
          fun password hsome => ?_, fun _ _ h => h⟩
        · rw [hpassword]
          rfl
        · rw [hpassword] at hsome
          cases hsome
    case h_2 password hpassword =>
      dsimp only at h
      split at h
      case h_1 error stored hstore =>
        cases h
        exact .inl ⟨error, rfl, store_eq_error hstore⟩
      case h_2 stored hstore =>
        obtain rfl := store_eq_ok hstore
        split at h
        case h_1 error _ =>
          cases h
          refine .inl ⟨error, rfl, deleteSecret_db _, fun id hid => ?_⟩
          exact (deleteSecret_get hid).trans (Table.get_put_of_ne _ _ hid)
        case h_2 db hdb =>
          cases h
          obtain ⟨hrows, hitems, hnone⟩ := elim_deleteSecret (f := f) (e :=
            { e with
              db := tryClearSchemaCache p.profile.id db
              vault := e.vault.put credentialId password }) p.existing
          refine .inr ⟨_, p, db, rfl, hp, ?_, (request_eq_ok.1 hdb).2, hrows, fun hnone => ?_,
            fun password' hsome id hid => ?_, fun id hid h => hnone id ?_⟩
          · rw [hpassword]
            rfl
          · rw [hpassword] at hnone
            cases hnone
          · rw [hpassword] at hsome
            cases hsome
            exact (hitems id hid).trans (Table.get_put _ _ _ _)
          · exact (Table.get_put_of_ne _ _ hid).trans h

theorem setSchemaGroup_cases {ids : List Uuid} {schemaGroup : Option String}
    {result : AppResult (List ConnectionProfile)}
    (h : setSchemaGroup f now ids schemaGroup e = (result, e')) :
    e' = e ∨ ∃ updated db,
      groupedProfiles f ids.eraseDups (normalizeSchemaGroup schemaGroup) e.db = .ok updated ∧
      setConnectionsSchemaGroup now ids.eraseDups (normalizeSchemaGroup schemaGroup) e.db =
        .ok db ∧ result = .ok updated ∧ e' = { e with db } := by
  unfold setSchemaGroup at h
  dsimp only at h
  split at h
  · cases h
    exact .inl rfl
  · split at h
    case h_1 =>
      cases h
      exact .inl rfl
    case h_2 updated hupdated =>
      split at h
      case h_1 =>
        cases h
        exact .inl rfl
      case h_2 db hdb =>
        cases h
        exact .inr ⟨updated, db, hupdated, (request_eq_ok.1 hdb).2, rfl, rfl⟩

/-- A deletion fails and leaves everything, or it leaves a tombstone and may remove the item. -/
theorem delete_cases {id : Uuid} {result : AppResult Unit}
    (h : delete parseUuid f now id answer e = (result, e')) :
    (∃ error, result = .error error ∧ e' = e) ∨
    ∃ pin db, result = .ok () ∧ beginConnectionMutation id .read answer e.db = .ok pin ∧
      pin.profile.workspaceAccess = .local_ ∧ deleteConnection now id e.db = .ok db ∧
      e'.db = db ∧ (∀ item, pin.profile.secretRef.bind parseUuid ≠ some item →
        e'.vault.get item = e.vault.get item) ∧
      ∀ item, e.vault.get item = none → e'.vault.get item = none := by
  unfold delete at h
  split at h
  case h_1 error _ =>
    cases h
    exact .inl ⟨error, rfl, rfl⟩
  case h_2 reference db hdb =>
    cases h
    simp only [deletedReference, Except.bind_eq_ok, refuseIf_eq_ok, not_not,
      request_eq_ok] at hdb
    obtain ⟨pin, ⟨-, hpin⟩, -, hlocal, db', ⟨-, hdeleted⟩, h⟩ := hdb
    obtain ⟨rfl, rfl⟩ := Prod.mk.inj (Except.pure_eq_ok.1 h)
    obtain ⟨hrows, hitems, hnone⟩ := elim_deleteSecret (f := f) (e := { e with db := db' })
      (pin.profile.secretRef.bind parseUuid)
    exact .inr ⟨pin, db', rfl, hpin, hlocal, hdeleted, hrows, hitems, hnone⟩

theorem prepareBinding_eq_ok {r : WorkspaceCredentialBindingRequest} {p : PreparedBinding}
    {db : Database} (h : prepareBinding parseUuid f answer r db = .ok p) :
    ∃ pin, beginConnectionMutation r.connectionId .read answer db = .ok pin ∧
      pin.profile = p.profile ∧ p.profile.workspaceAccess ≠ .local_ ∧
      p.profile.credentialMode = .memberLocal ∧ pin.scope.selectedAccountId = some p.account ∧
      parseReference parseUuid (.config "connection secret reference is invalid")
        p.profile.secretRef = .ok p.previous := by
  simp only [prepareBinding, Except.bind_eq_ok, refuseIf_eq_ok, not_not, request_eq_ok] at h
  obtain ⟨-, -, -, -, pin, ⟨-, hpin⟩, -, hshared, -, hmode, -, -, h⟩ := h
  split at h
  · cases h
  rename_i account haccount
  obtain ⟨previous, hprevious, h⟩ := Except.bind_eq_ok.1 h
  obtain rfl := Except.pure_eq_ok.1 h
  exact ⟨pin, hpin, rfl, hshared, hmode, haccount, hprevious⟩

/-- A binding fails and leaves the rows and all items but its own, or it is saved with a new
item. -/
theorem bindCredentials_cases {r : WorkspaceCredentialBindingRequest}
    {result : AppResult ConnectionProfile}
    (h : bindCredentials parseUuid f now credentialId answer r e = (result, e')) :
    (∃ error, result = .error error ∧ e'.db = e.db ∧
      ∀ id, id ≠ credentialId → e'.vault.get id = e.vault.get id) ∨
    ∃ profile p, result = .ok profile ∧ prepareBinding parseUuid f answer r e.db = .ok p ∧
      Store.bindConnectionCredentials now r.connectionId p.account p.username
        p.profile.extraParams (some credentialId.toText) e.db = .ok e'.db ∧
      (∀ id, p.previous ≠ some id →
        e'.vault.get id = if id = credentialId then some r.password else e.vault.get id) ∧
      ∀ id, id ≠ credentialId → e.vault.get id = none → e'.vault.get id = none := by
  unfold bindCredentials at h
  split at h
  case h_1 error _ =>
    cases h
    exact .inl ⟨error, rfl, rfl, fun _ _ => rfl⟩
  case h_2 p hp =>
    dsimp only at h
    split at h
    case h_1 error stored hstore =>
      cases h
      exact .inl ⟨error, rfl, store_eq_error hstore⟩
    case h_2 stored hstore =>
      obtain rfl := store_eq_ok hstore
      split at h
      case h_1 error _ =>
        cases h
        refine .inl ⟨error, rfl, deleteSecret_db _, fun id hid => ?_⟩
        exact (deleteSecret_get hid).trans (Table.get_put_of_ne _ _ hid)
      case h_2 db hdb =>
        cases h
        obtain ⟨hrows, hitems, hnone⟩ := elim_deleteSecret (f := f) (e :=
          { e with db := db, vault := e.vault.put credentialId r.password }) p.previous
        refine .inr ⟨_, p, rfl, hp, ?_, fun id hid => ?_, fun id hid h => hnone id ?_⟩
        · rw [hrows]
          exact (request_eq_ok.1 hdb).2
        · exact (hitems id hid).trans (Table.get_put _ _ _ _)
        · exact (Table.get_put_of_ne _ _ hid).trans h

end Specs

/-! ### Calls -/

/-- A call, with the time it reads, the id it makes, what it is answered and what fails. -/
inductive EditCall
  | upsert (f : Faults) (now : DateTime) (credentialId : Uuid) (r : ConnectionUpsertRequest)
  | setSchemaGroup (f : Faults) (now : DateTime) (ids : List Uuid) (schemaGroup : Option String)
  | delete (f : Faults) (now : DateTime) (id : Uuid) (answer : AppResult ℤ)
  | bindCredentials (f : Faults) (now : DateTime) (credentialId : Uuid) (answer : AppResult ℤ)
      (r : WorkspaceCredentialBindingRequest)

/-- Whether the call went through, and what it leaves. -/
def EditCall.perform (call : EditCall) (e : Estate) : AppResult Unit × Estate :=
  match call with
  | .upsert f now credentialId r =>
      let (answer, e) := Services.upsert parseUuid validateDriver f now credentialId r e
      (answer.map fun _ => (), e)
  | .setSchemaGroup f now ids schemaGroup =>
      let (answer, e) := Services.setSchemaGroup f now ids schemaGroup e
      (answer.map fun _ => (), e)
  | .delete f now id answer => Services.delete parseUuid f now id answer e
  | .bindCredentials f now credentialId answer r =>
      let (answer, e) := Services.bindCredentials parseUuid f now credentialId answer r e
      (answer.map fun _ => (), e)

end

end Services
end AgentDb
