import AgentDb.Services.WorkspaceAuth

/-!
# Stored sessions, with answers that come late

A stored session is deleted by a `sign_out` of its account, or after a 401. The delete goes by the
name of the account, though, and not by the token: the 401 of a token that a login has replaced in
the meantime deletes the new one (`late_answer_deletes_new_session`). In every run in which no
login comes between a request and what its 401 deletes, a session is deleted only if it was signed
out or was rejected itself (`sessions_safe`).
-/

namespace AgentDb
namespace Services
namespace WorkspaceAuth

open Connection Crew Program Store

/-- `Uuid::parse_str`, as far as stored sessions rely on it. -/
structure UuidParser where
  parse : String → Option Uuid
  parse_toText : ∀ id : Uuid, parse id.toText = some id

/-- Where the session of a user is stored. -/
def sessionOf (id : Uuid) : String := (Keychain.Owner.workspaceUser id).account

theorem sessionOf_injective : Function.Injective sessionOf := fun id id' h => by
  have howner := Keychain.Owner.account_injective h
  cases howner
  rfl

section Accesses

variable {s s' : Keychain.Stores} {c : Keychain.Access} {a : Keychain.Answer c}
  {account secret : String}

/-- What an access can do to the stores. -/
inductive Effect (s : Keychain.Stores) : Keychain.Access → Keychain.Stores → Prop
  | none (c : Keychain.Access) : Effect s c s
  | cacheInsert (account secret : String) :
      Effect s (.cacheInsert account secret) (s.setCache account (some secret))
  | cacheRemove (account : String) : Effect s (.cacheRemove account) (s.setCache account .none)
  | setPassword (account secret : String) :
      Effect s (.setPassword account secret) (s.setOs account (some secret))
  | deleteCredential (account : String) :
      Effect s (.deleteCredential account) (s.setOs account .none)

theorem effect_of_access (h : Keychain.Answered s c a s') : Effect s c s' := by
  cases c with
  | cacheGet name =>
      obtain ⟨-, rfl⟩ := h
      exact .none _
  | cacheInsert name stored =>
      obtain rfl : s' = _ := h
      exact .cacheInsert name stored
  | cacheRemove name =>
      obtain rfl : s' = _ := h
      exact .cacheRemove name
  | setPassword name stored =>
      cases a with
      | error e =>
          obtain rfl : s' = s := h
          exact .none _
      | ok _ =>
          obtain rfl : s' = _ := h
          exact .setPassword name stored
  | getPassword name =>
      rcases a with (text | text) | stored
      · obtain ⟨-, rfl⟩ := h
        exact .none _
      · obtain rfl : s' = s := h
        exact .none _
      · obtain ⟨-, rfl⟩ := h
        exact .none _
  | deleteCredential name =>
      rcases a with (text | text) | _
      · obtain ⟨-, rfl⟩ := h
        exact .none _
      · obtain rfl : s' = s := h
        exact .none _
      · obtain rfl : s' = _ := h
        exact .deleteCredential name

/-- What is cached was cached before, unless it is just being remembered. -/
theorem cache_of_effect (h : Effect s c s') (hcache : s'.cache account = some secret) :
    s.cache account = some secret ∨ c = .cacheInsert account secret := by
  cases h with
  | cacheInsert name stored =>
      by_cases hname : account = name
      · subst hname
        cases (Keychain.cache_setCache ..).symm.trans hcache
        exact .inr rfl
      · exact .inl ((Function.update_of_ne hname ..).symm.trans hcache)
  | cacheRemove name =>
      by_cases hname : account = name
      · subst hname
        cases (Keychain.cache_setCache ..).symm.trans hcache
      · exact .inl ((Function.update_of_ne hname ..).symm.trans hcache)
  | _ => exact .inl hcache

/-- What is stored was stored before, unless it is just being stored. -/
theorem os_of_effect (h : Effect s c s') (hos : s'.os account = some secret) :
    s.os account = some secret ∨ c = .setPassword account secret := by
  cases h with
  | setPassword name stored =>
      by_cases hname : account = name
      · subst hname
        cases (Function.update_self ..).symm.trans hos
        exact .inr rfl
      · exact .inl ((Function.update_of_ne hname ..).symm.trans hos)
  | deleteCredential name =>
      by_cases hname : account = name
      · subst hname
        cases (Function.update_self ..).symm.trans hos
      · exact .inl ((Function.update_of_ne hname ..).symm.trans hos)
  | _ => exact .inl hos

/-- What was stored is gone only if it is just being deleted. -/
theorem deletes_of_effect (h : Effect s c s') (hbefore : s.os account = some secret)
    (hafter : s'.os account = none) : c = .deleteCredential account := by
  cases h with
  | setPassword name stored =>
      by_cases hname : account = name
      · subst hname
        cases (Function.update_self ..).symm.trans hafter
      · cases (hafter.symm.trans (Function.update_of_ne hname ..)).trans hbefore
  | deleteCredential name =>
      by_cases hname : account = name
      · rw [hname]
      · cases (hafter.symm.trans (Function.update_of_ne hname ..)).trans hbefore
  | _ => cases hafter.symm.trans hbefore

end Accesses

section Accounts

variable {parseUuid : String → Option Uuid} {userId : String} {id : Uuid}

theorem fetchWorkspaceSession_eq (h : parseUuid userId = some id) :
    Keychain.fetchWorkspaceSession parseUuid userId =
      Keychain.fetchWorkspaceSessionAccount (sessionOf id) := by
  rw [Keychain.fetchWorkspaceSession, Keychain.workspaceSessionAccount, h]
  rfl

theorem storeWorkspaceSession_eq {token : String} (h : parseUuid userId = some id) :
    Keychain.storeWorkspaceSession parseUuid userId token =
      Keychain.storeAccount (sessionOf id) token := by
  rw [Keychain.storeWorkspaceSession, Keychain.workspaceSessionAccount, h]
  rfl

theorem deleteWorkspaceSession_eq (h : parseUuid userId = some id) :
    Keychain.deleteWorkspaceSession parseUuid userId =
      Keychain.deleteAccount (sessionOf id) := by
  rw [Keychain.deleteWorkspaceSession, Keychain.workspaceSessionAccount, h]
  rfl

end Accounts

-- The name of an entry is never looked into again.
attribute [irreducible] sessionOf

/-- A session that is accepted is of the user it names. -/
theorem id_of_sessionUser {parseUuid : String → Option Uuid} {user : SessionUser}
    {account : WorkspaceAuthUser} (h : sessionUser parseUuid user = .ok account) :
    account.id.text = user.id := by
  rw [sessionUser] at h
  cases hid : accountId parseUuid user.id with
  | none =>
      rw [hid] at h
      cases h
  | some id =>
      rw [hid] at h
      dsimp only at h
      split at h
      · cases h
      · cases h
        rw [accountId] at hid
        split at hid
        · cases hid
          rfl
        · cases hid

/-- A session that is accepted names a user. -/
theorem named_of_success {parseUuid : String → Option Uuid} {response : Response SessionUser}
    {action : String} {found : Option WorkspaceAuthUser}
    (h : ((response.success action).bind fun user =>
      (sessionUser parseUuid user).map some) = .ok found) :
    ∃ body account, response.json = .ok body ∧ sessionUser parseUuid body = .ok account ∧
      found = some account := by
  rw [Response.success] at h
  split at h
  · cases hjson : response.json with
    | error text =>
        rw [hjson] at h
        cases h
    | ok body =>
        rw [hjson] at h
        change (sessionUser parseUuid body).map some = .ok found at h
        cases haccount : sessionUser parseUuid body with
        | error e =>
            rw [haccount] at h
            cases h
        | ok account =>
            rw [haccount] at h
            cases h
            exact ⟨body, account, rfl, haccount, rfl⟩
  · cases h

/-! ### What the calls agree on -/

variable {κ : Type} (parser : UuidParser) (owner : String → Uuid) (ops : κ → Op)

/-- For each account no sessions are stored or cached but its own. -/
def Own (s : State) : Prop :=
  ∀ id token, s.keychain.cache (sessionOf id) = some token ∨
    s.keychain.os (sessionOf id) = some token → owner token = id

/-- What a call puts up with: a token that was rejected has been rejected. -/
def Relies (s s' : State) : Prop := ∀ token, s.rejected token → s'.rejected token

/-- Why call `k` may delete a session of the user in this state. -/
def Allowed (k : κ) (s : State) (userId : String) (id : Uuid) : Reason → Prop
  | .asked => ops k = .signOut userId
  | .unauthorized token => s.rejected token
  | .otherUser _ => ops k = .authUser userId ∧ userId ≠ id.toText

/-- The calls that are made: a session is stored or cached for its own account, and deleted for
the account of the call. -/
def Good (k : κ) (s : State) : Call → Prop
  | .keychain (.cacheInsert account token) _ => account = sessionOf (owner token)
  | .keychain (.setPassword account token) _ => account = sessionOf (owner token)
  | .keychain (.deleteCredential account) reason => ∃ userId id, (ops k).userId = some userId ∧
      parser.parse userId = some id ∧ account = sessionOf id ∧ Allowed ops k s userId id reason
  | _ => True

/-- What the calls agree on. -/
def code : Code κ Call State := ⟨Own owner, fun _ => Relies, Good parser owner ops⟩

variable {parser owner ops} {k : κ} {s s' : State}

theorem Relies.refl (s : State) : Relies s s := fun _ h => h

theorem Relies.trans {s'' : State} (h : Relies s s') (h' : Relies s' s'') : Relies s s'' :=
  fun token ht => h' token (h token ht)

theorem relies_answer (token : String) (status : StatusCode) :
    Relies s (s.answer token status) := fun _ h => .inr h

theorem Own.of_keychain (h : Own owner s) (heq : s'.keychain = s.keychain) : Own owner s' := by
  intro id token
  rw [heq]
  exact h id token

/-- An access to the credential store stores no session but for its own account. -/
theorem Own.keychain {access : Keychain.Access} {a : Keychain.Answer access}
    {keychain : Keychain.Stores} {reason : Reason} (h : Own owner s)
    (hgood : Good parser owner ops k s (.keychain access reason))
    (hanswer : Keychain.Answered s.keychain access a keychain) :
    Own owner { s with keychain } := by
  have heffect := effect_of_access hanswer
  rintro id token (hcache | hos)
  · rcases cache_of_effect heffect hcache with hbefore | rfl
    · exact h id token (.inl hbefore)
    · exact (sessionOf_injective hgood).symm
  · rcases os_of_effect heffect hos with hbefore | rfl
    · exact h id token (.inr hbefore)
    · exact (sessionOf_injective hgood).symm

/-- What an answer changes. -/
theorem effect_of_answered {c : Call} {a : Answer c} (h : Answered owner s c a s') :
    Relies s s' ∧ ((∀ access reason, c ≠ .keychain access reason) → s'.keychain = s.keychain) := by
  cases c with
  | keychain access reason =>
      obtain ⟨keychain, -, rfl⟩ := h
      exact ⟨Relies.refl s, fun hne => absurd rfl (hne access reason)⟩
  | session token =>
      cases a with
      | error e =>
          obtain rfl : s' = s := h
          exact ⟨Relies.refl s', fun _ => rfl⟩
      | ok response =>
          obtain ⟨rfl, -⟩ := h
          exact ⟨relies_answer token response.status, fun _ => rfl⟩
  | request request token =>
      cases a with
      | error e =>
          obtain rfl : s' = s := h
          exact ⟨Relies.refl s', fun _ => rfl⟩
      | ok response =>
          obtain rfl : s' = _ := h
          exact ⟨relies_answer token response.status, fun _ => rfl⟩
  | token deviceCode =>
      obtain rfl : s' = s := h
      exact ⟨Relies.refl s', fun _ => rfl⟩

theorem code_sound : (code parser owner ops).Sound (Answered owner) where
  refl _ s := Relies.refl s
  trans _ _ _ _ := Relies.trans
  others _ _ _ _ _ _ _ _ _ hanswer := (effect_of_answered hanswer).1
  inv k s c a s' hown hgood hanswer := by
    cases c with
    | keychain access reason =>
        obtain ⟨keychain, hkeychain, rfl⟩ := hanswer
        exact hown.keychain hgood hkeychain
    | session token =>
        exact hown.of_keychain ((effect_of_answered hanswer).2 fun _ _ h => by cases h)
    | request request token =>
        exact hown.of_keychain ((effect_of_answered hanswer).2 fun _ _ h => by cases h)
    | token deviceCode =>
        exact hown.of_keychain ((effect_of_answered hanswer).2 fun _ _ h => by cases h)

/-! ### The calls keep to it -/

section Keeps

variable {α : Type} {userId token : String} {id : Uuid}

/-- What holds of the result of a call that may fail. -/
abbrev Kept (parser : UuidParser) (owner : String → Uuid) (ops : κ → Op) (k : κ)
    (P : State → AppResult α → Prop) (call : CallM α) (s : State) : Prop :=
  Crew.Keeps (Answered owner) (code parser owner ops) P k call.run s

/-- Nothing is said of the result. -/
def Anything (_ : State) (_ : AppResult α) : Prop := True

theorem kept_anything (result : AppResult α) :
    Kept parser owner ops k Anything (answer result) s := fun _ _ _ => trivial

/-- One call after the other; an error of the first is the result of both. -/
theorem kept_bind {β : Type} {P : State → AppResult α → Prop} {x : CallM α} {f : α → CallM β}
    (hx : Kept parser owner ops k P x s)
    (hf : ∀ a s, P s (.ok a) → Kept parser owner ops k Anything (f a) s) :
    Kept parser owner ops k Anything (x >>= f) s :=
  hx.run_bind code_sound (fun a s _ ha => hf a s ha) fun _ _ _ _ _ _ _ => trivial

/-- A call that is fetched for has read a session of its own account. -/
def Fetched (parser : UuidParser) (owner : String → Uuid) (userId token : String) : Prop :=
  ∀ id, parser.parse userId = some id → owner token = id

theorem kept_fetch (userId : String) :
    Kept parser owner ops k
      (fun _ result => ∀ token, result = .ok (some token) → Fetched parser owner userId token)
      (fetchWorkspaceSession parser.parse userId) s := by
  unfold fetchWorkspaceSession
  cases hparse : parser.parse userId with
  | none =>
      rw [Keychain.fetchWorkspaceSession, Keychain.workspaceSessionAccount, hparse]
      intro _ _ _ token h
      cases h
  | some id =>
      rw [fetchWorkspaceSession_eq hparse]
      have hfetched : ∀ token, owner token = id → Fetched parser owner userId token := by
        rintro token rfl id' hid'
        exact Option.some.inj (hparse.symm.trans hid')
      refine fun s₁ _ hown => ⟨trivial, fun found s₂ ha => ?_⟩
      obtain ⟨keychain, ⟨hfound, rfl⟩, rfl⟩ := ha
      cases found with
      | some token =>
          rintro s₃ - - token' ⟨⟩
          exact hfetched token (hown id token (.inl hfound.symm))
      | none =>
          refine fun s₃ _ hown₃ => ⟨trivial, fun read s₄ ha => ?_⟩
          obtain ⟨keychain, hread, rfl⟩ := ha
          rcases read with (text | text) | token
          · intro _ _ _ token h
            cases h
          · intro _ _ _ token h
            cases h
          · have howner : owner token = id := hown₃ id token (.inr hread.1)
            refine fun s₅ _ _ => ⟨?_, fun _ _ _ => ?_⟩
            · show sessionOf id = sessionOf (owner token)
              rw [howner]
            · rintro s₇ - - token' ⟨⟩
              exact hfetched token howner

theorem kept_store (hfetched : Fetched parser owner userId token) :
    Kept parser owner ops k Anything (storeWorkspaceSession parser.parse userId token) s := by
  unfold storeWorkspaceSession
  cases hparse : parser.parse userId with
  | none =>
      rw [Keychain.storeWorkspaceSession, Keychain.workspaceSessionAccount, hparse]
      exact fun _ _ _ => trivial
  | some id =>
      rw [storeWorkspaceSession_eq hparse]
      have haccount : sessionOf id = sessionOf (owner token) := by rw [hfetched id hparse]
      refine fun s₁ _ _ => ⟨haccount, fun stored s₂ _ => ?_⟩
      cases stored with
      | error e => exact fun _ _ _ => trivial
      | ok _ => exact fun s₃ _ _ => ⟨haccount, fun _ _ _ _ _ _ => trivial⟩

theorem kept_delete {reason : Reason} (huser : (ops k).userId = some userId)
    (hallowed : ∀ id s', parser.parse userId = some id → Relies s s' →
      Allowed ops k s' userId id reason) :
    Kept parser owner ops k Anything (deleteWorkspaceSession parser.parse userId reason) s := by
  unfold deleteWorkspaceSession
  cases hparse : parser.parse userId with
  | none =>
      rw [Keychain.deleteWorkspaceSession, Keychain.workspaceSessionAccount, hparse]
      exact fun _ _ _ => trivial
  | some id =>
      rw [deleteWorkspaceSession_eq hparse]
      refine fun s₁ hrelies _ => ⟨trivial, fun _ s₂ ha => fun s₃ hrelies₃ _ => ⟨?_, ?_⟩⟩
      · have hrelies₂ : Relies s₁ s₂ := (effect_of_answered ha).1
        exact ⟨userId, id, huser, hparse, rfl,
          hallowed id s₃ hparse ((hrelies.trans hrelies₂).trans hrelies₃)⟩
      · intro deleted s₄ _
        rcases deleted with (text | text) | _
        · exact fun _ _ _ => trivial
        · exact fun _ _ _ => trivial
        · exact fun _ _ _ => trivial

/-- A session that was rejected may be deleted for good. -/
theorem kept_delete_unauthorized (huser : (ops k).userId = some userId)
    (hrejected : s.rejected token) :
    Kept parser owner ops k Anything
      (deleteWorkspaceSession parser.parse userId (.unauthorized token)) s :=
  kept_delete huser fun _ _ _ hrelies => hrelies token hrejected

theorem kept_send (request : Request) (token action : String) :
    Kept parser owner ops k
      (fun s result => ∀ response, result = .ok response → response.status.code = 401 →
        s.rejected token) (send request token action) s := by
  refine fun s₁ _ _ => ⟨trivial, fun answered s₂ ha => ?_⟩
  cases answered with
  | error e =>
      intro s₃ _ _ response h
      cases h
  | ok response =>
      obtain rfl : s₂ = _ := ha
      rintro s₃ hrelies - response' ⟨⟩ hcode
      exact hrelies token (.inl ⟨hcode, rfl⟩)

theorem kept_session (token : String) :
    Kept parser owner ops k
      (fun s result => (result = .ok none → s.rejected token) ∧
        ∀ user, result = .ok (some user) → user.id.text = (owner token).toText)
      (sessionForToken parser.parse token) s := by
  refine fun s₁ _ _ => ⟨trivial, fun answered s₂ ha => ?_⟩
  cases answered with
  | error e =>
      refine fun s₃ _ _ => ⟨fun h => ?_, fun user h => ?_⟩
      · cases h
      · cases h
  | ok response =>
      obtain ⟨rfl, hnames⟩ := ha
      by_cases hcode : response.status.code = 401
      · dsimp only
        rw [if_pos hcode]
        refine fun s₃ hrelies _ => ⟨fun _ => hrelies token (.inl ⟨hcode, rfl⟩), fun user h => ?_⟩
        cases h
      · dsimp only
        rw [if_neg hcode]
        refine fun s₃ _ _ => ⟨fun h => ?_, fun user h => ?_⟩
        · obtain ⟨body, account, -, -, hnone⟩ := named_of_success h
          cases hnone
        · obtain ⟨body, account, hjson, haccount, hsome⟩ := named_of_success h
          cases hsome
          rw [id_of_sessionUser haccount]
          exact hnames body hjson

/-- A request on behalf of a signed-in account; what follows knows why it was refused. -/
theorem kept_request {request : Request} {missing action : String}
    {f : String → Response (Body request) → CallM α}
    (hf : ∀ token response s, (response.status.code = 401 → s.rejected token) →
      Kept parser owner ops k Anything (f token response) s) :
    Kept parser owner ops k Anything (requireSession parser.parse userId missing >>= fun token =>
      send request token action >>= f token) s := by
  refine kept_bind (P := Anything) ?_ fun token s _ => ?_
  · refine kept_bind (kept_fetch userId) fun found s _ => ?_
    cases found with
    | none => exact fun _ _ _ => trivial
    | some token => exact fun _ _ _ => trivial
  · exact kept_bind (kept_send request token action) fun response s hresponse =>
      hf token response s (hresponse response rfl)

theorem kept_deleteIfUnauthorized {β : Type} {response : Response β} {f : Unit → CallM α}
    (huser : (ops k).userId = some userId)
    (hrejected : response.status.code = 401 → s.rejected token)
    (hf : ∀ s, Kept parser owner ops k Anything (f ()) s) :
    Kept parser owner ops k Anything
      (deleteIfUnauthorized parser.parse userId token response >>= f) s := by
  refine kept_bind (P := Anything) ?_ fun _ s _ => hf s
  rw [deleteIfUnauthorized]
  split
  · rename_i hcode
    exact kept_delete_unauthorized huser (hrejected hcode)
  · exact fun _ _ _ => trivial

/-- What is made of an answer accesses nothing. -/
theorem kept_answers {β : Type} (result : AppResult β) (f : β → AppResult α) :
    Kept parser owner ops k Anything (answer result >>= fun b => answer (f b)) s :=
  kept_bind (kept_anything result) fun b _ _ => kept_anything (f b)

theorem kept_authUser (hop : ops k = .authUser userId) :
    Kept parser owner ops k Anything (authUser parser.parse userId) s := by
  have huser : (ops k).userId = some userId := by rw [hop, Op.userId]
  refine kept_bind (kept_fetch userId) fun found s hfound => ?_
  cases found with
  | none => exact fun _ _ _ => trivial
  | some token =>
      have hfetched := hfound token rfl
      refine kept_bind (kept_session token) fun user s hsession => ?_
      split
      · exact fun _ _ _ => trivial
      · rename_i hother
        refine kept_bind (P := Anything) ?_ fun _ _ _ _ _ _ => trivial
        cases user with
        | none => exact kept_delete_unauthorized huser (hsession.1 rfl)
        | some user =>
            refine kept_delete huser fun id s' hparse _ => ⟨hop, ?_⟩
            -- The session is of the account, so its id was given in another spelling.
            rintro rfl
            have htext := hsession.2 user rfl
            rw [hfetched id hparse] at htext
            exact hother (congrArg some htext)

theorem kept_signOut (hop : ops k = .signOut userId) :
    Kept parser owner ops k Anything (signOut parser.parse userId) s := by
  have huser : (ops k).userId = some userId := by rw [hop, Op.userId]
  have hdelete : ∀ s, Kept parser owner ops k Anything
      (deleteWorkspaceSession parser.parse userId .asked) s :=
    fun s => kept_delete huser fun _ _ _ _ => hop
  refine kept_bind (kept_fetch userId) fun found s _ => ?_
  cases found with
  | none => exact hdelete s
  | some token =>
      refine kept_bind (P := Anything) ?_ fun _ s _ => hdelete s
      exact fun _ _ _ => ⟨trivial, fun _ _ _ _ _ _ => trivial⟩

theorem kept_remoteWorkspaces (huser : (ops k).userId = some userId) :
    Kept parser owner ops k Anything (remoteWorkspaces parser.parse userId) s := by
  refine kept_request fun token response s hrejected => ?_
  split
  · rename_i hcode
    exact kept_bind (kept_delete_unauthorized huser (hrejected hcode)) fun _ _ _ _ _ _ => trivial
  · exact kept_answers _ _

theorem kept_remoteConnections (huser : (ops k).userId = some userId) (workspaceId : Uuid) :
    Kept parser owner ops k Anything (remoteConnections parser.parse userId workspaceId) s := by
  refine kept_request fun token response s hrejected => ?_
  split
  · exact fun _ _ _ => trivial
  · exact kept_deleteIfUnauthorized huser hrejected fun s =>
      kept_bind (kept_anything _) fun _ _ _ =>
        kept_bind (kept_anything _) fun _ _ _ _ _ _ => trivial

theorem kept_shareConnection (huser : (ops k).userId = some userId) (workspaceId : Uuid)
    (profile : ConnectionProfile) :
    Kept parser owner ops k Anything
      (shareConnection parser.parse userId workspaceId profile) s :=
  kept_request fun _ _ _ hrejected =>
    kept_deleteIfUnauthorized huser hrejected fun _ => kept_answers _ _

theorem kept_deleteConnection (huser : (ops k).userId = some userId)
    (workspaceId connectionId : Uuid) :
    Kept parser owner ops k Anything
      (deleteConnection parser.parse userId workspaceId connectionId) s := by
  refine kept_request fun _ _ _ hrejected =>
    kept_deleteIfUnauthorized huser hrejected fun s => ?_
  split
  · exact fun _ _ _ => trivial
  · exact fun _ _ _ => trivial

theorem kept_authorizeConnection (huser : (ops k).userId = some userId)
    (workspaceId connectionId : Uuid) (write : Bool) :
    Kept parser owner ops k Anything
      (authorizeConnection parser.parse userId workspaceId connectionId write) s :=
  kept_request fun _ _ _ hrejected =>
    kept_deleteIfUnauthorized huser hrejected fun _ => kept_answers _ _

theorem kept_issueManagedConnectionLease (huser : (ops k).userId = some userId)
    (secondsUntil : String → Option ℤ) (workspaceId : Uuid) (profile : ConnectionProfile)
    (write : Bool) :
    Kept parser owner ops k Anything
      (issueManagedConnectionLease parser.parse secondsUntil userId workspaceId profile write)
      s := by
  rw [issueManagedConnectionLease]
  split
  · exact fun _ _ _ => trivial
  · exact kept_request fun _ _ _ hrejected =>
      kept_deleteIfUnauthorized huser hrejected fun _ => kept_answers _ _

theorem kept_releaseManagedConnectionLease (huser : (ops k).userId = some userId)
    (workspaceId connectionId leaseId : Uuid) :
    Kept parser owner ops k Anything
      (releaseManagedConnectionLease parser.parse userId workspaceId connectionId leaseId) s := by
  refine kept_bind (kept_fetch userId) fun found s _ => ?_
  cases found with
  | none => exact fun _ _ _ => trivial
  | some token =>
      refine kept_bind (kept_send _ token _) fun response s hresponse => ?_
      refine kept_deleteIfUnauthorized huser (hresponse response rfl) fun s => ?_
      split
      · exact fun _ _ _ => trivial
      · exact fun _ _ _ => trivial

/-- A login stores the session of the user that the session names. -/
theorem kept_signIn (token : String) :
    Kept parser owner ops k Anything (signIn parser.parse token) s := by
  rw [signIn]
  split
  · exact fun _ _ _ => trivial
  · refine kept_bind (kept_session token) fun user s hsession => ?_
    cases user with
    | none => exact fun _ _ _ => trivial
    | some user =>
        refine kept_bind (kept_store fun id hparse => ?_) fun _ _ _ _ _ _ => trivial
        rw [hsession.2 user rfl, parser.parse_toText] at hparse
        exact Option.some.inj hparse

theorem kept_pollLogin (deviceCode : String) :
    Kept parser owner ops k Anything (pollLogin parser.parse deviceCode) s := by
  rw [pollLogin]
  split
  · exact fun _ _ _ => trivial
  · refine kept_bind (P := Anything) ?_ fun response s _ => ?_
    · exact fun _ _ _ => ⟨trivial, fun _ _ _ _ _ _ => trivial⟩
    · split
      · exact kept_bind (kept_anything _) fun token _ _ => kept_signIn token
      · exact kept_bind (kept_anything _) fun _ _ _ =>
          kept_bind (kept_anything _) fun _ _ _ _ _ _ => trivial

theorem kept_program :
    Crew.Keeps (Answered owner) (code parser owner ops) (fun _ _ => True) k
      ((ops k).program parser.parse) s := by
  have hended : ∀ {β : Type} (call : CallM β) (outcome : AppResult β → Outcome),
      Kept parser owner ops k Anything call s →
        Crew.Keeps (Answered owner) (code parser owner ops) (fun _ _ => True) k
          (call.ended outcome) s :=
    fun call outcome hcall => hcall.bind code_sound fun _ _ _ _ _ _ _ => trivial
  cases hop : ops k with
  | authUser user => exact hended _ _ (kept_authUser hop)
  | signOut user => exact hended _ _ (kept_signOut hop)
  | remoteWorkspaces user => exact hended _ _ (kept_remoteWorkspaces (by rw [hop, Op.userId]))
  | remoteConnections user workspaceId =>
      exact hended _ _ (kept_remoteConnections (by rw [hop, Op.userId]) workspaceId)
  | shareConnection user workspaceId profile =>
      exact hended _ _ (kept_shareConnection (by rw [hop, Op.userId]) workspaceId profile)
  | deleteConnection user workspaceId id =>
      exact hended _ _ (kept_deleteConnection (by rw [hop, Op.userId]) workspaceId id)
  | authorizeConnection user workspaceId id write =>
      exact hended _ _ (kept_authorizeConnection (by rw [hop, Op.userId]) workspaceId id write)
  | issueManagedConnectionLease secondsUntil user workspaceId profile write =>
      exact hended _ _ (kept_issueManagedConnectionLease (by rw [hop, Op.userId]) secondsUntil
        workspaceId profile write)
  | releaseManagedConnectionLease user workspaceId id leaseId =>
      exact hended _ _ (kept_releaseManagedConnectionLease (by rw [hop, Op.userId]) workspaceId id
        leaseId)
  | pollLogin deviceCode => exact hended _ _ (kept_pollLogin deviceCode)

end Keeps

/-! ### Runs -/

section Runs

variable [DecidableEq κ]

/-- The credential store, and where every call stands. -/
abbrev World (κ : Type) := Crew.World κ Call Answer Outcome State

/-- A call that was answered. -/
abbrev Entry (κ : Type) := Crew.Entry κ Call Answer

/-- No call has begun; sessions may be stored from before. -/
structure Begun (parser : UuidParser) (owner : String → Uuid) (ops : κ → Op) (w : World κ) :
    Prop where
  own : Own owner w.state
  program : ∀ k, w.program k = (ops k).program parser.parse

/-- A stored session is deleted by a call for its own account, which signs it out or follows a
rejection of this very token. -/
def Safe (parser : UuidParser) (owner : String → Uuid) (ops : κ → Op)
    (ok : World κ → Entry κ → Prop) : Prop :=
  ∀ w₀ es w e w', Begun parser owner ops w₀ → Trace (Answered owner) ok w₀ es w → ok w e →
    Step (Answered owner) w e w' → ∀ id token, w.state.keychain.os (sessionOf id) = some token →
      w'.state.keychain.os (sessionOf id) = none →
      ∃ userId, (ops e.task).userId = some userId ∧ parser.parse userId = some id ∧
        (ops e.task = .signOut userId ∨ w.state.rejected token)

/-- What is deleted after a 401 is still the session that was sent, and sessions are checked under
the id the control plane has given them. -/
def Timely (parser : UuidParser) (ops : κ → Op) (w : World κ) (e : Entry κ) : Prop :=
  (∀ account token held, e.call = .keychain (.deleteCredential account) (.unauthorized token) →
    w.state.keychain.os account = some held → held = token) ∧
  ∀ userId id, ops e.task = .authUser userId → parser.parse userId = some id → userId = id.toText

/-- In every run in which no login comes between a request and what its 401 deletes, no session is
deleted but by a sign-out or after its own rejection. -/
theorem sessions_safe (parser : UuidParser) (owner : String → Uuid) (ops : κ → Op) :
    Safe parser owner ops (Timely parser ops) := by
  intro w₀ es w e w' hbegun htrace hok hstep id token hbefore hafter
  obtain ⟨hown, hkept⟩ := htrace.keeps (Q := fun _ _ _ => True) code_sound hbegun.own fun k => by
    rw [hbegun.program]
    exact kept_program
  have hgood : Good parser owner ops e.task w.state e.call := hstep.good code_sound hown hkept
  obtain ⟨next, -, hanswer, -⟩ := hstep.task
  obtain ⟨k, c, a⟩ := e
  -- Only an access to the credential store deletes a session.
  cases c with
  | keychain access reason =>
      obtain ⟨keychain, hkeychain, hstate⟩ := hanswer
      rw [hstate] at hafter
      obtain rfl := deletes_of_effect (effect_of_access hkeychain) hbefore hafter
      obtain ⟨userId, id', huser, hparse, haccount, hallowed⟩ := hgood
      obtain rfl : id = id' := sessionOf_injective haccount
      refine ⟨userId, huser, hparse, ?_⟩
      cases reason with
      | asked => exact .inl hallowed
      | unauthorized sent =>
          obtain rfl : token = sent := hok.1 _ sent token rfl hbefore
          exact .inr hallowed
      | otherUser sent => exact absurd (hok.2 userId id hallowed.1 hparse) hallowed.2
  | session sent =>
      rw [(effect_of_answered hanswer).2 fun _ _ h => by cases h] at hafter
      cases hafter.symm.trans hbefore
  | request request sent =>
      rw [(effect_of_answered hanswer).2 fun _ _ h => by cases h] at hafter
      cases hafter.symm.trans hbefore
  | token deviceCode =>
      rw [(effect_of_answered hanswer).2 fun _ _ h => by cases h] at hafter
      cases hafter.symm.trans hbefore

end Runs

/-! ### A late answer -/

section Late

variable [DecidableEq κ] {parseUuid : String → Option Uuid} {userId token : String} {id : Uuid}

/-- The session of an account is cached, or its cache emptied. -/
def State.cache (s : State) (id : Uuid) (token : Option String) : State :=
  { s with keychain := s.keychain.setCache (sessionOf id) token }

/-- A session is stored and cached. -/
def State.store (s : State) (id : Uuid) (token : String) : State :=
  State.cache { s with keychain := s.keychain.setOs (sessionOf id) (some token) } id (some token)

theorem cache_store (s : State) (id : Uuid) (token : String) :
    (s.store id token).keychain.cache (sessionOf id) = some token := Keychain.cache_setCache ..

theorem os_store (s : State) (id : Uuid) (token : String) :
    (s.store id token).keychain.os (sessionOf id) = some token := Function.update_self ..

/-- A session that is stored for its own account leaves only such. -/
theorem own_store {s : State} (h : Own owner s) (howner : owner token = id) :
    Own owner (s.store id token) := by
  have hos : Own owner { s with keychain := s.keychain.setOs (sessionOf id) (some token) } := by
    rintro id' token' (hcache | hos)
    · exact h id' token' (.inl hcache)
    · rcases os_of_effect (.setPassword _ _) hos with hbefore | heq
      · exact h id' token' (.inr hbefore)
      · obtain ⟨haccount, rfl⟩ := Keychain.Access.setPassword.inj heq
        rw [howner, sessionOf_injective haccount]
  rintro id' token' (hcache | hos')
  · rcases cache_of_effect (.cacheInsert _ _) hcache with hbefore | heq
    · exact hos id' token' (.inl hbefore)
    · obtain ⟨haccount, rfl⟩ := Keychain.Access.cacheInsert.inj heq
      rw [howner, sessionOf_injective haccount]
  · exact hos id' token' (.inr hos')

/-- A response without a body. -/
def response401 {β : Type} : Response β := ⟨⟨401, "401 Unauthorized"⟩, .error "", .error ""⟩

def response200 {β : Type} (body : β) : Response β := ⟨⟨200, "200 OK"⟩, .ok body, .error ""⟩

/-- A request is on its way, and a 401 to it is about to delete the stored session. -/
theorem alone_remoteWorkspaces (owner : String → Uuid) (k : κ)
    (hparse : parseUuid userId = some id) {s : State}
    (hcache : s.keychain.cache (sessionOf id) = some token) :
    ∃ sent,
      Alone (Answered owner) k ((remoteWorkspaces parseUuid userId).ended .workspaces) s sent s ∧
      ∀ s', ∃ deleted, Alone (Answered owner) k sent s'
        (.call (.keychain (.deleteCredential (sessionOf id)) (.unauthorized token)) deleted)
        ((s'.answer token ⟨401, "401 Unauthorized"⟩).cache id none) := by
  unfold remoteWorkspaces requireSession fetchWorkspaceSession deleteWorkspaceSession
  rw [fetchWorkspaceSession_eq hparse, deleteWorkspaceSession_eq hparse]
  exact ⟨_, .call (some token) ⟨s.keychain, ⟨hcache.symm, rfl⟩, rfl⟩ (.refl k _ s), fun s' =>
    ⟨_, .call (.ok response401) rfl (.call () ⟨_, rfl, rfl⟩ (.refl k _ _))⟩⟩

/-- The end of a login that meets no failure. -/
theorem alone_storeLogin (owner : String → Uuid) (k : κ) {user : WorkspaceAuthUser}
    (hparse : parseUuid user.id.text = some id) (s : State) :
    Alone (Answered owner) k
      ((storeWorkspaceSession parseUuid user.id.text token >>= fun _ =>
        (pure ⟨.signedIn, some user⟩ : CallM WorkspaceLoginPoll)).ended .login) s
      (.done (.login (.ok ⟨.signedIn, some user⟩))) (s.store id token) := by
  unfold storeWorkspaceSession
  rw [storeWorkspaceSession_eq hparse]
  exact .call (.ok ()) ⟨_, rfl, rfl⟩ (.call () ⟨_, rfl, rfl⟩ (.refl k _ _))

theorem alone_signIn (owner : String → Uuid) (k : κ)
    (htoken : ¬ (token.utf8ByteSize < 20 ∨ token.utf8ByteSize > 4096 ∨
      token.toList.any isWhitespace)) {body : SessionUser} {user : WorkspaceAuthUser}
    (huser : sessionUser parseUuid body = .ok user) (hid : body.id = (owner token).toText)
    (hparse : parseUuid user.id.text = some id) (s : State) :
    Alone (Answered owner) k ((signIn parseUuid token).ended .login) s
      (.done (.login (.ok ⟨.signedIn, some user⟩)))
      ((s.answer token ⟨200, "200 OK"⟩).store id token) := by
  rw [signIn, if_neg htoken]
  refine .call (.ok (response200 body)) ⟨rfl, ?_⟩ ?_
  · rintro _ ⟨⟩
    exact hid
  · have hnamed : (sessionUser parseUuid body).map some = .ok (some user) := by
      rw [huser]
      rfl
    change Alone (Answered owner) k
      ((Program.bind (.done ((sessionUser parseUuid body).map some)) _).bind _) _ _ _
    rw [hnamed]
    exact alone_storeLogin owner k hparse _

theorem alone_pollLogin (owner : String → Uuid) (k : κ) {deviceCode : String}
    (hcode : validDeviceCode deviceCode = true)
    (htoken : ¬ (token.utf8ByteSize < 20 ∨ token.utf8ByteSize > 4096 ∨
      token.toList.any isWhitespace)) {body : SessionUser} {user : WorkspaceAuthUser}
    (huser : sessionUser parseUuid body = .ok user) (hid : body.id = (owner token).toText)
    (hparse : parseUuid user.id.text = some id) (s : State) :
    Alone (Answered owner) k ((pollLogin parseUuid deviceCode).ended .login) s
      (.done (.login (.ok ⟨.signedIn, some user⟩)))
      ((s.answer token ⟨200, "200 OK"⟩).store id token) := by
  rw [pollLogin, if_neg (not_not.2 hcode)]
  exact .call (.ok (response200 token)) rfl (alone_signIn owner k htoken huser hid hparse s)

/-- A session is accepted under the id that the control plane has given it. -/
theorem accountId_toText (parser : UuidParser) (id : Uuid) :
    ∃ account, accountId parser.parse id.toText = some account ∧ account.text = id.toText := by
  have hlength := Keychain.length_toText id
  have hempty : id.toText ≠ "" := by
    intro h
    rw [h] at hlength
    cases hlength
  have hpersonal : id.toText ≠ "personal" := by
    intro h
    rw [h] at hlength
    exact absurd hlength (by decide)
  have hvalid : (parser.parse id.toText).isSome ∧ id.toText ≠ "" ∧ id.toText ≠ "personal" := by
    rw [parser.parse_toText]
    exact ⟨rfl, hempty, hpersonal⟩
  exact ⟨⟨id.toText, hempty, hpersonal⟩, dif_pos hvalid, rfl⟩

/-- The parser that reads no more than the texts of UUIDs. -/
noncomputable def textParser : UuidParser :=
  ⟨Function.partialInv Uuid.toText, Function.partialInv_left Uuid.toText_injective⟩

/-- The user of every token. -/
def sampleUser : SessionUser := ⟨(Uuid.ofByte 1).toText, "ada@example.com", "Ada"⟩

/-- Memberships are loaded while the account is signed in again. -/
def lateOps : Fin 2 → Op
  | 0 => .remoteWorkspaces (Uuid.ofByte 1).toText
  | 1 => .pollLogin "0123456789012345678901234567890123456789"

/-- The token of the second login. -/
def newToken : String := "0123456789abcdefghij"

theorem newToken_valid : ¬ (newToken.utf8ByteSize < 20 ∨ newToken.utf8ByteSize > 4096 ∨
    newToken.toList.any isWhitespace) := by decide

/-- The account is signed in from before. -/
def signedIn : State :=
  State.store ⟨⟨fun _ => none, fun _ => none⟩, fun _ => False⟩ (.ofByte 1) "replaced"

theorem late_answer_deletes_new_session :
    ¬ Safe textParser (fun _ => .ofByte 1) lateOps (fun _ _ => True) := by
  intro hsafe
  obtain ⟨account, haccount, htext⟩ := accountId_toText textParser (.ofByte 1)
  have hparse : textParser.parse account.text = some (.ofByte 1) := by
    rw [htext, textParser.parse_toText]
  have huser :
      sessionUser textParser.parse sampleUser = .ok ⟨account, "ada@example.com", "Ada"⟩ := by
    rw [sessionUser, sampleUser, haccount]
    rfl
  let w₀ : World (Fin 2) := ⟨signedIn, fun k => (lateOps k).program textParser.parse⟩
  have hbegun : Begun textParser (fun _ => .ofByte 1) lateOps w₀ := by
    refine ⟨own_store (fun id token hheld => ?_) rfl, fun _ => rfl⟩
    rcases hheld with h | h <;> cases h
  -- The request is sent, the login commits, and the 401 of the request arrives.
  obtain ⟨sent, hsent, hanswered⟩ := alone_remoteWorkspaces (fun _ => .ofByte 1) (0 : Fin 2)
    (textParser.parse_toText (.ofByte 1)) (cache_store _ (.ofByte 1) "replaced")
  obtain ⟨es₁, h₁⟩ := hsent w₀ rfl rfl
  let s₁ := (signedIn.answer newToken ⟨200, "200 OK"⟩).store (.ofByte 1) newToken
  obtain ⟨es₂, h₂⟩ := alone_pollLogin (fun _ => .ofByte 1) (1 : Fin 2) (by decide)
    newToken_valid huser rfl hparse signedIn (w₀.goOn 0 sent signedIn) rfl rfl
  let w₂ := (w₀.goOn 0 sent signedIn).goOn 1
    (.done (.login (.ok ⟨.signedIn, some ⟨account, "ada@example.com", "Ada"⟩⟩))) s₁
  obtain ⟨deleted, hlate⟩ := hanswered s₁
  obtain ⟨es₃, h₃⟩ := hlate w₂ rfl rfl
  let s₃ := (s₁.answer "replaced" ⟨401, "401 Unauthorized"⟩).cache (.ofByte 1) none
  let w₃ := w₂.goOn 0 (.call (.keychain (.deleteCredential (sessionOf (.ofByte 1)))
    (.unauthorized "replaced")) deleted) s₃
  have hstep : Step (Answered fun _ => .ofByte 1) w₃
      ⟨0, .keychain (.deleteCredential (sessionOf (.ofByte 1))) (.unauthorized "replaced"),
        .ok ()⟩
      (w₃.goOn 0 (deleted (.ok ()))
        { s₃ with keychain := s₃.keychain.setOs (sessionOf (.ofByte 1)) none }) :=
    .answer rfl ⟨_, rfl, rfl⟩
  have hstored : w₃.state.keychain.os (sessionOf (.ofByte 1)) = some newToken := os_store ..
  have hdeleted :
      (s₃.keychain.setOs (sessionOf (.ofByte 1)) none).os (sessionOf (.ofByte 1)) = none :=
    Function.update_self ..
  have htrace := h₁.append (h₂.append h₃)
  obtain ⟨userId, -, -, hout | hrejected⟩ := hsafe w₀ _ w₃ _ _ hbegun htrace
    trivial hstep (.ofByte 1) newToken hstored hdeleted
  · cases hout
  · rcases hrejected with ⟨-, hsame⟩ | ⟨hcode, -⟩ | hbefore
    · exact absurd hsame (by decide)
    · exact absurd hcode (by decide)
    · exact hbefore

end Late

end WorkspaceAuth
end Services
end AgentDb
