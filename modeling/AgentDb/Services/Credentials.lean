import AgentDb.Services.ConnectionEdits
import AgentDb.Store.Edited
import AgentDb.Store.PinRun

/-!
# The credential of each connection

A password is kept as an item of the vault, and the id of the item as a reference in the store: in
the row of a local connection, or in the account's binding of a shared one. The store and the vault
have no common transaction. Credentials are therefore replaced copy on write: the new item first,
then the reference, then the old item.
-/

namespace AgentDb
namespace Services

open Connection Protocol ScopeGate Store

/-! ### References -/

/-- Who may have a credential: a connection, or an account for a shared connection. -/
inductive Holder
  | connection (id : Uuid)
  | binding (id : Uuid) (user : UserId)
  deriving DecidableEq

/-- The reference of a holder; a deleted connection has none. -/
def reference (db : Database) : Holder → Option String
  | .connection id =>
      (db.connections.get id).bind fun c => if c.deletedAt = none then c.secretRef else none
  | .binding id user => (db.bindings.get (id, user)).bind (·.secretRef)

/-- The item a holder points to. -/
def pointer (parseUuid : String → Option Uuid) (db : Database) (h : Holder) : Option Uuid :=
  (reference db h).bind parseUuid

/-- The password last supplied for each holder. -/
abbrev Passwords := Holder → Option String

/-- What holds of the store, the vault and the passwords after every call. -/
structure CredentialsOk (parseUuid : String → Option Uuid) (e : Estate) (supplied : Passwords) :
    Prop where
  keyed : e.db.Keyed
  localAccess : ∀ id c, e.db.connections.get id = some c → c.remote = false →
    c.workspaceAccess = .local_
  boundAccess : ∀ key b, e.db.bindings.get key = some b → b.workspaceAccess ≠ .local_
  parses : ∀ h text, reference e.db h = some text → ∃ id, parseUuid text = some id
  sound : CopyOnWrite.Sound (pointer parseUuid e.db) e.vault.get supplied

theorem reference_connection {db : Database} {id : Uuid} {c : Connection}
    (hget : db.connections.get id = some c) (hdeleted : c.deletedAt = none) :
    reference db (.connection id) = c.secretRef := by
  rw [reference, hget, Option.bind_some, if_pos hdeleted]

/-- Holders whose rows are the same have the same reference. -/
theorem reference_congr {db db' : Database} {h : Holder}
    (hconnection : ∀ id, h = .connection id →
      db'.connections.get id = db.connections.get id)
    (hbinding : ∀ id user, h = .binding id user →
      db'.bindings.get (id, user) = db.bindings.get (id, user)) :
    reference db' h = reference db h := by
  cases h with
  | connection id => rw [reference, reference, hconnection id rfl]
  | binding id user => rw [reference, reference, hbinding id user rfl]

/-- A connection that is shown as a local one is shown as its row has it. -/
theorem withBinding_of_local {c : Connection} {binding : Option Binding}
    (hbinding : ∀ b, binding = some b → b.workspaceAccess ≠ .local_)
    (h : (c.withBinding binding).workspaceAccess = .local_) :
    c.withBinding binding = c.toConnectionProfile := by
  unfold Connection.withBinding at h ⊢
  split
  · rfl
  · rename_i hshared
    rw [if_neg hshared] at h
    dsimp only at h
    cases binding with
    | none => cases h
    | some b => exact absurd h (hbinding b rfl)

/-- The credential of a shared connection is the one of the account's binding. -/
theorem withBinding_secretRef {c : Connection} {binding : Option Binding}
    (hshared : (c.withBinding binding).workspaceAccess ≠ .local_)
    (hmode : (c.withBinding binding).credentialMode = .memberLocal) :
    (c.withBinding binding).secretRef = binding.bind (·.secretRef) := by
  unfold Connection.withBinding at hshared hmode ⊢
  split
  case isTrue h =>
    rw [if_pos h] at hshared
    exact absurd h hshared
  case isFalse h =>
    rw [if_neg h] at hmode
    dsimp only at hmode ⊢
    split
    case isTrue => rfl
    case isFalse hmanaged =>
      rw [if_neg hmanaged] at hmode
      exact absurd hmode hmanaged

section

variable {parseUuid : String → Option Uuid} {validateDriver : ConnectionProfile → AppResult Unit}
variable {f : Faults} {now : DateTime} {e e' : Estate} {credentialId : Uuid} {answer : AppResult ℤ}
variable {supplied : Passwords}

theorem parseReference_eq_ok {invalid : AppError} {stored : Option String} {found : Option Uuid}
    (h : parseReference parseUuid invalid stored = .ok found) : found = stored.bind parseUuid := by
  unfold parseReference at h
  split at h
  · exact (Except.ok.inj h).symm
  · split at h
    · rename_i hparse
      rw [Option.bind_some, hparse]
      exact (Except.ok.inj h).symm
    · cases h

/-- An item that somebody points to is in the vault. -/
theorem CredentialsOk.item_of_pointer (hok : CredentialsOk parseUuid e supplied) {h : Holder}
    {id : Uuid} (hpointer : pointer parseUuid e.db h = some id) : e.vault.get id ≠ none := by
  obtain ⟨v, hv, -⟩ := hok.sound.usable h id hpointer
  rw [hv]
  exact Option.some_ne_none v

/-- Nothing changes but items that nobody points to. -/
theorem CredentialsOk.of_items (hok : CredentialsOk parseUuid e supplied) (hdb : e'.db = e.db)
    (hitems : ∀ id, e.vault.get id ≠ none → e'.vault.get id = e.vault.get id) :
    CredentialsOk parseUuid e' supplied := by
  refine ⟨hdb ▸ hok.keyed, hdb ▸ hok.localAccess, hdb ▸ hok.boundAccess, hdb ▸ hok.parses, ?_⟩
  rw [hdb]
  exact hok.sound.frame (fun _ _ h => h) (fun h id hid => hitems id (hok.item_of_pointer hid))
    fun _ _ _ => rfl

/-- Items other than a new one are the items before it. -/
theorem items_of_new (hnew : e.vault.get credentialId = none)
    (hitems : ∀ id, id ≠ credentialId → e'.vault.get id = e.vault.get id) :
    ∀ id, e.vault.get id ≠ none → e'.vault.get id = e.vault.get id :=
  fun id hid => hitems id fun heq => hid (heq ▸ hnew)

/-! ### Calls -/

/-- The reference an upsert keeps is the one of its connection. -/
theorem existing_pointer (hok : CredentialsOk parseUuid e supplied) {r : ConnectionUpsertRequest}
    {p : PreparedUpsert} (h : prepareUpsert parseUuid validateDriver f r e.db = .ok p)
    (hlocal : ∀ c, e.db.connections.get p.profile.id = some c → c.remote = false) {id : Uuid}
    (hid : p.existing = some id) :
    pointer parseUuid e.db (.connection p.profile.id) = some id := by
  obtain ⟨l, hlist, -, -, hparse, -⟩ := prepareUpsert_eq_ok h
  rw [parseReference_eq_ok hparse] at hid
  obtain ⟨text, htext, hitem⟩ := Option.bind_eq_some_iff.1 hid
  obtain ⟨q, hq, hsecret⟩ := Option.bind_eq_some_iff.1 htext
  have hsame : q.id = p.profile.id := by simpa using List.find?_some hq
  obtain ⟨workspaceId, workspace, -, -, rfl⟩ := listConnections_eq_ok.1 hlist
  obtain ⟨id', c, hget, hvisible, rfl⟩ := mem_connectionRows.1 (List.mem_of_find?_eq_some hq)
  rw [Connection.withBinding_id, hok.keyed.id_of_get hget] at hsame
  subst hsame
  have haccess := hok.localAccess _ c hget (hlocal c hget)
  rw [Connection.withBinding, if_pos haccess] at hsecret
  rw [pointer, reference_connection hget (of_decide_eq_true hvisible).2.1, hsecret,
    Option.bind_some, hitem]

/-- The row that was written points to the given item, and the others point where they did. -/
theorem credentialsOk_upsert (hparse : ∀ id, parseUuid id.toText = some id)
    (hok : CredentialsOk parseUuid e supplied) (hnew : e.vault.get credentialId = none)
    {r : ConnectionUpsertRequest} {profile : ConnectionProfile} {p : PreparedUpsert}
    {db : Database}
    (hdone : UpsertDone parseUuid validateDriver f now credentialId r e e' profile p db) :
    CredentialsOk parseUuid e' ((r.password.filter (· ≠ "")).elim supplied fun password =>
      Function.update supplied (.connection r.profile.id) (some password)) := by
  obtain ⟨workspaceId, workspace, row, hup⟩ := upsertConnection_spec hdone.saved
  obtain ⟨l, -, hp, -, -, hpassword⟩ := prepareUpsert_eq_ok hdone.prepared
  obtain ⟨legacyCatalogs, catalogs, hclear⟩ := tryClearSchemaCache_eq profile.id db
  have hconnections : e'.db.connections = e.db.connections.put profile.id row := by
    rw [hdone.db_eq, hclear]
    exact hup.connections
  have hbindings : e'.db.bindings = e.db.bindings := by
    rw [hdone.db_eq, hclear]
    exact hup.bindings
  have hsame : profile.id = p.profile.id := by rw [hdone.profile_eq]
  have hid : r.profile.id = profile.id := by rw [hsame, hp]
  have hexisting : ∀ id, p.existing = some id →
      pointer parseUuid e.db (.connection profile.id) = some id := fun id hid => by
    rw [hsame]
    refine existing_pointer hok hdone.prepared (fun c hc => ?_) hid
    rw [← hsame] at hc
    exact (hup.before c hc).2.2
  -- What the references are now.
  have hmine : reference e'.db (.connection profile.id) = profile.secretRef := by
    rw [reference_connection (c := row) (by rw [hconnections, Table.get_put_self]) hup.deletedAt]
    exact congrArg _ hup.profile
  have hother : ∀ h, h ≠ .connection profile.id → reference e'.db h = reference e.db h :=
    fun h hne => reference_congr
      (fun id hh => by
        rw [hconnections]
        exact Table.get_put_of_ne _ _ fun heq => hne (heq ▸ hh))
      fun id user _ => by rw [hbindings]
  have hrows : e'.db.Keyed := hok.keyed.of_put hconnections (congrArg _ hup.profile)
  have hlocal : ∀ id c, e'.db.connections.get id = some c → c.remote = false →
      c.workspaceAccess = .local_ := fun id c hget hremote => by
    rw [hconnections, Table.get_put] at hget
    split at hget
    · cases hget
      exact (congrArg _ hup.profile).trans hup.local_
    · exact hok.localAccess id c hget hremote
  have hbound : ∀ key b, e'.db.bindings.get key = some b → b.workspaceAccess ≠ .local_ := by
    rw [hbindings]
    exact hok.boundAccess
  rw [← hpassword]
  cases hsupplied : p.password with
  | none =>
      have hsecret : profile.secretRef = p.existing.map Uuid.toText := by
        rw [hdone.profile_eq, hsupplied]
        rfl
      have hkept : ∀ h id, pointer parseUuid e'.db h = some id →
          pointer parseUuid e.db h = some id := fun h id hpointer => by
        by_cases hh : h = .connection profile.id
        · subst hh
          rw [pointer, hmine, hsecret] at hpointer
          obtain ⟨text, htext, hid⟩ := Option.bind_eq_some_iff.1 hpointer
          obtain ⟨id', hid', rfl⟩ := Option.map_eq_some_iff.1 htext
          rw [hparse] at hid
          cases hid
          exact hexisting id hid'
        · rwa [pointer, hother h hh] at hpointer
      refine ⟨hrows, hlocal, hbound, fun h text htext => ?_,
        hok.sound.frame hkept (fun h id _ => by rw [hdone.kept hsupplied]) fun _ _ _ => rfl⟩
      by_cases hh : h = .connection profile.id
      · rw [hh, hmine, hsecret] at htext
        obtain ⟨id, -, rfl⟩ := Option.map_eq_some_iff.1 htext
        exact ⟨id, hparse id⟩
      · exact hok.parses h text (hother h hh ▸ htext)
  | some password =>
      have hsecret : profile.secretRef = some credentialId.toText := by
        rw [hdone.profile_eq, hsupplied]
        rfl
      have hunused : p.existing ≠ some credentialId := fun h =>
        hok.item_of_pointer (hexisting _ h) hnew
      refine ⟨hrows, hlocal, hbound, fun h text htext => ?_,
        hok.sound.rotate (.connection profile.id) credentialId (v := password) hnew ?_
          (fun h id hh hpointer => ?_) ?_ (fun id hne hmine => ?_) ?_ fun h hh => ?_⟩
      · by_cases hh : h = .connection profile.id
        · rw [hh, hmine, hsecret] at htext
          cases htext
          exact ⟨credentialId, hparse credentialId⟩
        · exact hok.parses h text (hother h hh ▸ htext)
      · rw [pointer, hmine, hsecret, Option.bind_some, hparse]
      · rwa [pointer, hother h hh] at hpointer
      · rw [hdone.rotated password hsupplied credentialId hunused, if_pos rfl]
      · rw [hdone.rotated password hsupplied id fun h => hmine (hexisting id h), if_neg hne]
      · rw [hid]
        exact Function.update_self _ _ _
      · rw [hid]
        exact Function.update_of_ne hh _ _

/-- Moving connections to a group leaves every reference. -/
theorem credentialsOk_setSchemaGroup (hok : CredentialsOk parseUuid e supplied) {ids : List Uuid}
    {schemaGroup : Option String} {result : AppResult (List ConnectionProfile)}
    (hcall : setSchemaGroup f now ids schemaGroup e = (result, e')) :
    CredentialsOk parseUuid e' supplied := by
  obtain rfl | ⟨updated, db, -, hwritten, -, rfl⟩ := setSchemaGroup_cases hcall
  · exact hok
  have hre := setConnectionsSchemaGroup_spec hwritten
  -- Every row has one before it with the same credential.
  have hrows : ∀ id c', db.connections.get id = some c' → ∃ c, e.db.connections.get id = some c ∧
      c'.id = c.id ∧ c'.remote = c.remote ∧ c'.workspaceAccess = c.workspaceAccess :=
    fun id c' hget => by
      by_cases hid : id ∈ ids.eraseDups
      · obtain ⟨c, c₁, hc, hc₁, hrow⟩ := hre.row id hid
        rw [hget] at hc₁
        cases hc₁
        exact ⟨c, hc, by rw [hrow.profile], hrow.remote, by rw [hrow.profile]⟩
      · rw [hre.other id hid] at hget
        exact ⟨c', hget, rfl, rfl, rfl⟩
  have hreference : ∀ h, reference db h = reference e.db h := fun h => by
    cases h with
    | binding id user => rw [reference, reference, hre.bindings]
    | connection id =>
        by_cases hid : id ∈ ids.eraseDups
        · obtain ⟨c, c', hc, hc', hrow⟩ := hre.row id hid
          rw [reference, reference, hc, hc', Option.bind_some, Option.bind_some, hrow.deletedAt,
            hrow.profile]
        · rw [reference, reference, hre.other id hid]
  have hpointer : pointer parseUuid db = pointer parseUuid e.db := funext fun h => by
    rw [pointer, pointer, hreference]
  refine ⟨fun entry hentry => ?_, fun id c' hget hlocal => ?_, ?_, fun h text htext => ?_, ?_⟩
  · obtain ⟨c, hc, hid, -, -⟩ := hrows _ _ (Table.mem_rows_iff.1 hentry)
    exact hid.trans (hok.keyed.id_of_get hc)
  · obtain ⟨c, hc, -, hremote, haccess⟩ := hrows id c' hget
    rw [haccess]
    exact hok.localAccess id c hc (hremote ▸ hlocal)
  · intro key b hget
    exact hok.boundAccess key b (hre.bindings ▸ hget)
  · exact hok.parses h text (hreference h ▸ htext)
  · change CopyOnWrite.Sound (pointer parseUuid db) e.vault.get supplied
    rw [hpointer]
    exact hok.sound

theorem pin_of_beginConnectionMutation {id : Uuid} {access : ConnectionAccess} {db : Database}
    {pin : PinnedConnection} (h : beginConnectionMutation id access answer db = .ok pin) :
    ∃ r, pin.Of db id r := by
  simp only [beginConnectionMutation, Except.bind_eq_ok] at h
  obtain ⟨pin', hpin, -, -, -, -, h⟩ := h
  obtain rfl := Except.pure_eq_ok.1 h
  exact pinConnectionWithAccess_spec hpin

/-- The connection of a pin that is shown as a local one. -/
theorem pinned_reference (hok : CredentialsOk parseUuid e supplied) {id : Uuid}
    {pin : PinnedConnection} (hpin : beginConnectionMutation id .read answer e.db = .ok pin)
    (hlocal : pin.profile.workspaceAccess = .local_) :
    reference e.db (.connection id) = pin.profile.secretRef := by
  obtain ⟨r, hof⟩ := pin_of_beginConnectionMutation hpin
  have hscoped := scopedConnection_spec hof.resolved
  have hprofile : pin.profile = r.connection.toConnectionProfile := by
    rw [hof.profile] at hlocal ⊢
    refine withBinding_of_local (fun b hb => ?_) hlocal
    obtain ⟨user, -, hget⟩ := Option.bind_eq_some_iff.1 hb
    exact hok.boundAccess _ b hget
  rw [hprofile]
  exact reference_connection hscoped.connection (of_decide_eq_true hscoped.visible).2.1

/-- A deletion takes the reference of one connection, and at most the item it named. -/
theorem credentialsOk_delete (hok : CredentialsOk parseUuid e supplied) {id : Uuid}
    {result : AppResult Unit} (hcall : delete parseUuid f now id answer e = (result, e')) :
    CredentialsOk parseUuid e' supplied := by
  obtain ⟨error, -, rfl⟩ | ⟨pin, db, -, hpin, hlocal, hdeleted, hdb, hitems, -⟩ :=
    delete_cases hcall
  · exact hok
  have hreference := pinned_reference hok hpin hlocal
  obtain ⟨c, c', hc, -, htomb, hprofile, hremote, rfl⟩ := deleteConnection_spec hdeleted
  have hconnections : e'.db.connections = e.db.connections.put id c' := by rw [hdb]
  have hmine : reference e'.db (.connection id) = none := by
    rw [reference, hconnections, Table.get_put_self, Option.bind_some, htomb]
    rfl
  have hother : ∀ h, h ≠ .connection id → reference e'.db h = reference e.db h :=
    fun h hne => reference_congr
      (fun id' hh => by
        rw [hconnections]
        exact Table.get_put_of_ne _ _ fun heq => hne (heq ▸ hh))
      fun _ _ _ => by rw [hdb]
  have hkept : ∀ h text, reference e'.db h = some text →
      h ≠ .connection id ∧ reference e.db h = some text := fun h text htext => by
    have hne : h ≠ .connection id := by
      rintro rfl
      rw [hmine] at htext
      cases htext
    exact ⟨hne, hother h hne ▸ htext⟩
  have hpointer : ∀ h i, pointer parseUuid e'.db h = some i →
      h ≠ .connection id ∧ pointer parseUuid e.db h = some i := fun h i hi => by
    obtain ⟨text, htext, hparse⟩ := Option.bind_eq_some_iff.1 hi
    obtain ⟨hne, hold⟩ := hkept h text htext
    exact ⟨hne, by rw [pointer, hold, Option.bind_some, hparse]⟩
  refine ⟨hok.keyed.of_put hconnections ((congrArg _ hprofile).trans (hok.keyed.id_of_get hc)),
    fun id' c₁ hget hlocal' => ?_, fun key b hget => hok.boundAccess key b ?_,
    fun h text htext => hok.parses h text (hkept h text htext).2,
    hok.sound.frame (fun h i hi => (hpointer h i hi).2) (fun h i hi => hitems i fun hitem => ?_)
      fun _ _ _ => rfl⟩
  · rw [hconnections, Table.get_put] at hget
    split at hget
    · cases hget
      rw [hprofile]
      exact hok.localAccess id c hc (hremote ▸ hlocal')
    · exact hok.localAccess id' c₁ hget hlocal'
  · rw [hdb] at hget
    exact hget
  · -- The removed item was of the deleted connection only.
    obtain ⟨hne, hold⟩ := hpointer h i hi
    refine hne (hok.sound.distinct h _ i hold ?_)
    rw [pointer, hreference, hitem]

/-- A binding that was saved points to the new item, and the others point where they did. -/
theorem credentialsOk_bindCredentials (hparse : ∀ id, parseUuid id.toText = some id)
    (hok : CredentialsOk parseUuid e supplied) (hnew : e.vault.get credentialId = none)
    {r : WorkspaceCredentialBindingRequest} {p : PreparedBinding}
    (hprepared : prepareBinding parseUuid f answer r e.db = .ok p)
    (hbound : Store.bindConnectionCredentials now r.connectionId p.account p.username
      p.profile.extraParams (some credentialId.toText) e.db = .ok e'.db)
    (hitems : ∀ id, p.previous ≠ some id →
      e'.vault.get id = if id = credentialId then some r.password else e.vault.get id) :
    e.db.activeAccountId = some p.account ∧
      CredentialsOk parseUuid e'
        (Function.update supplied (.binding r.connectionId p.account) (some r.password)) := by
  obtain ⟨pin, hpin, hprofile, hshared, hmode, haccount, hprevious⟩ :=
    prepareBinding_eq_ok hprepared
  obtain ⟨row, hof⟩ := pin_of_beginConnectionMutation hpin
  have hactive : e.db.activeAccountId = some p.account :=
    (activeResourceScope_spec hof.scope).2.2.trans haccount
  refine ⟨hactive, ?_⟩
  obtain ⟨b, hsecret, haccess, hbindings, hdb⟩ := bindConnectionCredentials_spec hbound
  have hconnections : e'.db.connections = e.db.connections := by rw [hdb]
  have hmine : pointer parseUuid e.db (.binding r.connectionId p.account) = p.previous := by
    rw [parseReference_eq_ok hprevious, pointer, reference]
    rw [← hprofile, hof.profile] at hshared hmode ⊢
    rw [withBinding_secretRef hshared hmode, Database.binding, hactive, Option.bind_some]
  have hnow : reference e'.db (.binding r.connectionId p.account) = some credentialId.toText := by
    rw [reference, hbindings, if_pos rfl, Option.bind_some, hsecret]
  have hother : ∀ h, h ≠ .binding r.connectionId p.account → reference e'.db h = reference e.db h :=
    fun h hne => reference_congr (fun _ _ => by rw [hconnections]) fun id user hh => by
      rw [hbindings, if_neg]
      rintro heq
      cases heq
      exact hne hh
  have hunused : p.previous ≠ some credentialId := fun h =>
    hok.item_of_pointer (hmine.trans h) hnew
  refine ⟨fun entry hentry => hok.keyed entry (hconnections ▸ hentry), ?_, fun key b' hget => ?_,
    fun h text htext => ?_, hok.sound.rotate (.binding r.connectionId p.account) credentialId
      (v := r.password) hnew ?_ (fun h id hh hpointer => ?_) ?_ (fun id hne hid => ?_)
      (Function.update_self _ _ _) fun h hh => Function.update_of_ne hh _ _⟩
  · rw [hconnections]
    exact hok.localAccess
  · rw [hbindings] at hget
    split at hget
    · cases hget
      obtain hview | ⟨old, hold, hsame⟩ := haccess
      · rw [hview]
        decide
      · rw [hsame]
        exact hok.boundAccess _ old hold
    · exact hok.boundAccess key b' hget
  · by_cases hh : h = .binding r.connectionId p.account
    · rw [hh, hnow] at htext
      cases htext
      exact ⟨credentialId, hparse credentialId⟩
    · exact hok.parses h text (hother h hh ▸ htext)
  · rw [pointer, hnow, Option.bind_some, hparse]
  · rwa [pointer, hother h hh] at hpointer
  · rw [hitems credentialId hunused, if_pos rfl]
  · rw [hitems id fun h => hid (hmine.trans h), if_neg hne]

end

/-! ### Runs -/

namespace EditCall

/-- The id a call has for a new item. -/
def newId : EditCall → Option Uuid
  | .upsert _ _ credentialId _ => some credentialId
  | .bindCredentials _ _ credentialId _ _ => some credentialId
  | .setSchemaGroup _ _ _ _ | .delete _ _ _ _ => none

/-- The password a call supplies, and for whom. -/
def supplies (e : Estate) : EditCall → Option (Holder × String)
  | .upsert _ _ _ r =>
      (r.password.filter (· ≠ "")).map fun password => (.connection r.profile.id, password)
  | .bindCredentials _ _ _ _ r =>
      e.db.activeAccountId.map fun user => (.binding r.connectionId user, r.password)
  | .setSchemaGroup _ _ _ _ | .delete _ _ _ _ => none

/-- The passwords last supplied, once a call is answered. -/
def recorded (call : EditCall) (e : Estate) (answer : AppResult Unit) (supplied : Passwords) :
    Passwords :=
  match answer, call.supplies e with
  | .ok _, some (holder, password) => Function.update supplied holder (some password)
  | _, _ => supplied

theorem recorded_none {call : EditCall} {e : Estate} (h : call.supplies e = none)
    (answer : AppResult Unit) (supplied : Passwords) :
    call.recorded e answer supplied = supplied := by
  unfold recorded
  rw [h]
  split
  · contradiction
  · rfl

theorem recorded_ok {call : EditCall} {e : Estate} {holder : Holder} {password : String}
    (h : call.supplies e = some (holder, password)) (supplied : Passwords) :
    call.recorded e (.ok ()) supplied = Function.update supplied holder (some password) := by
  unfold recorded
  rw [h]

/-- What a call leaves, and the passwords after it. -/
def next (parseUuid : String → Option Uuid) (validateDriver : ConnectionProfile → AppResult Unit)
    (s : Estate × Passwords) (call : EditCall) : Estate × Passwords :=
  let (answer, e) := call.perform parseUuid validateDriver s.1
  (e, call.recorded s.1 answer s.2)

/-- What a call does to credentials. -/
structure Answered (parseUuid : String → Option Uuid) (call : EditCall) (e e' : Estate)
    (answer : AppResult Unit) (supplied : Passwords) : Prop where
  ok : CredentialsOk parseUuid e' (call.recorded e answer supplied)
  absent : ∀ id, call.newId ≠ some id → e.vault.get id = none → e'.vault.get id = none
  failed : ∀ error, answer = .error error →
    e'.db = e.db ∧ ∀ id, e.vault.get id ≠ none → e'.vault.get id = e.vault.get id

end EditCall

section

variable {parseUuid : String → Option Uuid} {validateDriver : ConnectionProfile → AppResult Unit}
variable {e e' : Estate} {supplied : Passwords}

/-- A call that fails and leaves all but its new item. -/
theorem EditCall.answered_error {call : EditCall} {answer : AppResult Unit} {credentialId : Uuid}
    (hok : CredentialsOk parseUuid e supplied) (hid : call.newId = some credentialId)
    (hnew : e.vault.get credentialId = none) {error : AppError} (herror : answer = .error error)
    (hdb : e'.db = e.db) (hitems : ∀ id, id ≠ credentialId → e'.vault.get id = e.vault.get id) :
    call.Answered parseUuid e e' answer supplied := by
  subst herror
  refine ⟨hok.of_items hdb (items_of_new hnew hitems), fun id hne hnone => ?_,
    fun _ _ => ⟨hdb, items_of_new hnew hitems⟩⟩
  refine (hitems id fun heq => hne ?_).trans hnone
  rw [hid, heq]

/-- Every call keeps the credentials, if its id is new. -/
theorem EditCall.answered_perform (hparse : ∀ id, parseUuid id.toText = some id)
    (hok : CredentialsOk parseUuid e supplied) (call : EditCall)
    (hnew : ∀ id, call.newId = some id → e.vault.get id = none) {answer : AppResult Unit}
    (h : call.perform parseUuid validateDriver e = (answer, e')) :
    call.Answered parseUuid e e' answer supplied := by
  cases call with
  | upsert f now credentialId r =>
      generalize hcall : Services.upsert parseUuid validateDriver f now credentialId r e = out at h
      obtain ⟨result, e₁⟩ := out
      simp only [EditCall.perform, hcall] at h
      cases h
      obtain ⟨error, rfl, hdb, hitems⟩ | ⟨profile, p, db, rfl, hdone⟩ := upsert_cases hcall
      · exact answered_error hok rfl (hnew _ rfl) rfl hdb hitems
      · refine ⟨?_, fun id hne => hdone.absent id fun heq => hne (heq ▸ rfl),
          fun _ herror => by cases herror⟩
        have hdone' := credentialsOk_upsert hparse hok (hnew _ rfl) hdone
        cases hpassword : r.password.filter (· ≠ "") with
        | none =>
            rw [EditCall.recorded_none (by rw [EditCall.supplies, hpassword]; rfl)]
            rwa [hpassword] at hdone'
        | some password =>
            rw [Except.map, EditCall.recorded_ok (by rw [EditCall.supplies, hpassword]; rfl)]
            rwa [hpassword] at hdone'
  | setSchemaGroup f now ids schemaGroup =>
      generalize hcall : Services.setSchemaGroup f now ids schemaGroup e = out at h
      obtain ⟨result, e₁⟩ := out
      simp only [EditCall.perform, hcall] at h
      cases h
      have hok' := credentialsOk_setSchemaGroup hok hcall
      have hvault : e'.vault = e.vault ∧ (∀ error, result = .error error → e' = e) := by
        obtain rfl | ⟨updated, db, -, -, rfl, rfl⟩ := setSchemaGroup_cases hcall
        · exact ⟨rfl, fun _ _ => rfl⟩
        · exact ⟨rfl, fun _ herror => by cases herror⟩
      refine ⟨?_, fun id _ hnone => hvault.1 ▸ hnone, fun error herror => ?_⟩
      · rw [EditCall.recorded_none rfl]
        exact hok'
      · cases result with
        | ok _ => cases herror
        | error error' =>
            obtain rfl := hvault.2 error' rfl
            exact ⟨rfl, fun _ _ => rfl⟩
  | delete f now id answer =>
      rw [EditCall.perform] at h
      have hok' := credentialsOk_delete hok h
      refine ⟨?_, ?_, ?_⟩
      · rw [EditCall.recorded_none rfl]
        exact hok'
      · obtain ⟨error, -, rfl⟩ | ⟨pin, db, -, -, -, -, -, -, habsent⟩ := delete_cases h
        · exact fun _ _ hnone => hnone
        · exact fun id _ hnone => habsent id hnone
      · obtain ⟨error, -, rfl⟩ | ⟨pin, db, rfl, -⟩ := delete_cases h
        · exact fun _ _ => ⟨rfl, fun _ _ => rfl⟩
        · exact fun _ herror => by cases herror
  | bindCredentials f now credentialId answer r =>
      generalize hcall : Services.bindCredentials parseUuid f now credentialId answer r e = out at h
      obtain ⟨result, e₁⟩ := out
      simp only [EditCall.perform, hcall] at h
      cases h
      obtain ⟨error, rfl, hdb, hitems⟩ | ⟨profile, p, rfl, hprepared, hbound, hitems, habsent⟩ :=
        bindCredentials_cases hcall
      · exact answered_error hok rfl (hnew _ rfl) rfl hdb hitems
      · obtain ⟨hactive, hok'⟩ := credentialsOk_bindCredentials hparse hok (hnew _ rfl) hprepared
          hbound hitems
        refine ⟨?_, fun id hne => habsent id fun heq => hne (heq ▸ rfl),
          fun _ herror => by cases herror⟩
        rw [Except.map, EditCall.recorded_ok (by rw [EditCall.supplies, hactive]; rfl)]
        exact hok'

/-- The ids of a list of calls are new, and there is one for each item. -/
structure NewIds (calls : List EditCall) (e : Estate) : Prop where
  nodup : (calls.filterMap EditCall.newId).Nodup
  absent : ∀ id ∈ calls.filterMap EditCall.newId, e.vault.get id = none

theorem NewIds.tail {call : EditCall} {calls : List EditCall} {answer : AppResult Unit}
    (h : NewIds (call :: calls) e) (hanswered : call.Answered parseUuid e e' answer supplied) :
    NewIds calls e' := by
  obtain ⟨hnodup, habsent⟩ := h
  cases hid : call.newId with
  | none =>
      rw [List.filterMap_cons_none hid] at hnodup habsent
      exact ⟨hnodup, fun id hmem => hanswered.absent id (by rw [hid]; simp) (habsent id hmem)⟩
  | some new =>
      rw [List.filterMap_cons_some hid] at hnodup habsent
      refine ⟨(List.nodup_cons.1 hnodup).2, fun id hmem => hanswered.absent id ?_
        (habsent id (List.mem_cons_of_mem _ hmem))⟩
      rw [hid]
      rintro ⟨⟩
      exact (List.nodup_cons.1 hnodup).1 hmem

/-- Every call of a run keeps the credentials. -/
theorem credentialsOk_foldl (hparse : ∀ id, parseUuid id.toText = some id) (calls : List EditCall)
    (hok : CredentialsOk parseUuid e supplied) (hnew : NewIds calls e) :
    CredentialsOk parseUuid
      (calls.foldl (EditCall.next parseUuid validateDriver) (e, supplied)).1
      (calls.foldl (EditCall.next parseUuid validateDriver) (e, supplied)).2 := by
  induction calls generalizing e supplied with
  | nil => exact hok
  | cons call calls ih =>
      rw [List.foldl_cons]
      generalize hcall : call.perform parseUuid validateDriver e = out
      obtain ⟨answer, e'⟩ := out
      have hanswered := EditCall.answered_perform hparse hok call
        (fun id hid => hnew.absent id (by simp [hid])) hcall
      have hnext : EditCall.next parseUuid validateDriver (e, supplied) call =
          (e', call.recorded e answer supplied) := by rw [EditCall.next, hcall]
      rw [hnext]
      exact ih hanswered.ok (hnew.tail hanswered)

/-- **Credentials.** Whatever calls are made and whatever fails of them, every reference in the
store names an item of the vault with the password last supplied, no item is named twice, and a
call that fails leaves the store and every item that was there. -/
theorem credentials_run (validateDriver : ConnectionProfile → AppResult Unit)
    (hparse : ∀ id, parseUuid id.toText = some id) (calls : List EditCall)
    (hok : CredentialsOk parseUuid e supplied) (hnew : NewIds calls e) :
    let s := calls.foldl (EditCall.next parseUuid validateDriver) (e, supplied)
    (∀ h text, reference s.1.db h = some text → ∃ id password, parseUuid text = some id ∧
      s.1.vault.get id = some password ∧ s.2 h = some password) ∧
    (∀ h h' text text' id, reference s.1.db h = some text → reference s.1.db h' = some text' →
      parseUuid text = some id → parseUuid text' = some id → h = h') ∧
    ∀ (call : EditCall) (e' : Estate) (error : AppError),
      (∀ id, call.newId = some id → s.1.vault.get id = none) →
      call.perform parseUuid validateDriver s.1 = (.error error, e') →
      e'.db = s.1.db ∧ ∀ id, s.1.vault.get id ≠ none → e'.vault.get id = s.1.vault.get id := by
  intro s
  have hrun : CredentialsOk parseUuid s.1 s.2 := credentialsOk_foldl hparse calls hok hnew
  refine ⟨fun h text htext => ?_, fun h h' text text' id htext htext' hid hid' => ?_,
    fun call e' error hfresh hcall => ?_⟩
  · obtain ⟨id, hid⟩ := hrun.parses h text htext
    have hpointer : pointer parseUuid s.1.db h = some id := by
      rw [pointer, htext, Option.bind_some, hid]
    obtain ⟨password, hitem, hlast⟩ := hrun.sound.usable h id hpointer
    exact ⟨id, password, hid, hitem, hlast⟩
  · refine hrun.sound.distinct h h' id ?_ ?_
    · rw [pointer, htext, Option.bind_some, hid]
    · rw [pointer, htext', Option.bind_some, hid']
  · exact (EditCall.answered_perform hparse hrun call hfresh hcall).failed error rfl

end

/-- A store without references, whatever is in the vault. -/
theorem credentialsOk_of_no_reference {parseUuid : String → Option Uuid} {e : Estate}
    (hkeyed : e.db.Keyed)
    (hrows : ∀ r ∈ e.db.connections.rows, r.2.secretRef = none ∧
      (r.2.remote = false → r.2.workspaceAccess = .local_))
    (hbindings : ∀ r ∈ e.db.bindings.rows, r.2.secretRef = none ∧ r.2.workspaceAccess ≠ .local_) :
    CredentialsOk parseUuid e fun _ => none := by
  have hnone : ∀ h, reference e.db h = none := fun h => by
    cases h with
    | connection id =>
        cases hget : e.db.connections.get id with
        | none => rw [reference, hget, Option.bind_none]
        | some c =>
            have hrow := hrows _ (Table.mem_rows_iff.2 hget)
            rw [reference, hget, Option.bind_some, hrow.1, ite_self]
    | binding id user =>
        cases hget : e.db.bindings.get (id, user) with
        | none => rw [reference, hget, Option.bind_none]
        | some b =>
            rw [reference, hget, Option.bind_some, (hbindings _ (Table.mem_rows_iff.2 hget)).1]
  have hpointer : ∀ h, pointer parseUuid e.db h = none := fun h => by
    rw [pointer, hnone, Option.bind_none]
  refine ⟨hkeyed, fun id c hget => (hrows _ (Table.mem_rows_iff.2 hget)).2,
    fun key b hget => (hbindings _ (Table.mem_rows_iff.2 hget)).2, fun h text htext => ?_,
    fun h i hi => ?_, fun h h' i hi => ?_⟩
  · rw [hnone] at htext
    cases htext
  · rw [hpointer] at hi
    cases hi
  · rw [hpointer] at hi
    cases hi

/-- An account with a shared connection, and an empty vault. -/
def sharedEstate : Estate :=
  ⟨Commits.run (Op.apply Sha256.sha256) sampleBefore (freshStore (.ofDay 0)), .empty⟩

/-- The account binds its credentials, at first in vain. -/
def bindTwice : List EditCall :=
  [.bindCredentials { commit := some (.config "disk full") } (.ofDay 4) (.ofByte 8) (.ok 1)
      ⟨.ofByte 3, "ada", "first"⟩,
    .bindCredentials {} (.ofDay 5) (.ofByte 9) (.ok 1) ⟨.ofByte 3, "ada", "second"⟩]

theorem bindTwice_credentials :
    let s := bindTwice.foldl (EditCall.next (Function.partialInv Uuid.toText) fun _ => .ok ())
      (sharedEstate, fun _ => none)
    reference s.1.db (.binding (.ofByte 3) sampleUser.id) = some (Uuid.ofByte 9).toText ∧
      ∃ id password, Function.partialInv Uuid.toText (Uuid.ofByte 9).toText = some id ∧
        s.1.vault.get id = some password ∧
        s.2 (.binding (.ofByte 3) sampleUser.id) = some password := by
  intro s
  have hreference : reference s.1.db (.binding (.ofByte 3) sampleUser.id) =
      some (Uuid.ofByte 9).toText := by decide +kernel
  have hkeyed : ∀ r ∈ sharedEstate.db.connections.rows, r.2.id = r.1 := by decide +kernel
  have hok : CredentialsOk (Function.partialInv Uuid.toText) sharedEstate fun _ => none :=
    credentialsOk_of_no_reference hkeyed (by decide +kernel) (by decide +kernel)
  have hnew : NewIds bindTwice sharedEstate := ⟨by decide, fun _ _ => rfl⟩
  exact ⟨hreference, (credentials_run (fun _ => .ok ())
    (Function.partialInv_left Uuid.toText_injective) bindTwice hok hnew).1 _ _ hreference⟩

end Services
end AgentDb
