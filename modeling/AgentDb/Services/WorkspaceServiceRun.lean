import AgentDb.Services.WorkspaceAuthRun
import AgentDb.Services.WorkspaceService
import AgentDb.Store.SignedOut

/-!
# Sign-outs, with refreshes under way

After a sign-out nothing of the account is left, in the store or in the vault, and it stays so
until a login. That holds in every run in which the other calls write for the account only what is
still there to be refreshed (`sign_out_lasts`). A refresh does not look: it validates the session,
and if the account is signed out before it goes on, it remembers the account again
(`refresh_brings_account_back`).
-/

namespace AgentDb
namespace Services
namespace WorkspaceService

open Connection Crew Program Store
open WorkspaceAuth (UuidParser sessionOf)

variable (parseUuid : String → Option Uuid) (owner : String → Uuid) (u : UserId)

/-- No session of the account is stored or cached. -/
def Unheld (s : WorkspaceAuth.State) : Prop :=
  ∀ id, parseUuid u.text = some id → s.keychain.holds (sessionOf id) = (none, none)

/-- Nothing is left of the account. -/
structure SignedOut (s : State) : Prop where
  store : Absent u s.db
  vault : Unheld parseUuid u s.auth

/-- The entry of the credential store is the account's. -/
def IsSession (account : String) : Prop :=
  ∃ id, parseUuid u.text = some id ∧ account = sessionOf id

/-- A step writes something of the account. -/
def Writes : Action → Prop
  | .write (.remember user) => user.id = u
  | .write (.syncMemberships user _) => user.id = u
  | .auth (.keychain (.cacheInsert account _) _) => IsSession parseUuid u account
  | .auth (.keychain (.setPassword account _) _) => IsSession parseUuid u account
  | _ => False

/-- What a step writes of the account refreshes what is there: a row of an account that is
remembered, a session that is stored. No session is stored (a legacy one would be), and none is
deleted while a fetch has it cached. -/
def Refreshes (s : State) : Action → Prop
  | .write (.remember user) => user.id = u → (s.db.accounts.get u).isSome
  | .write (.syncMemberships user _) => user.id = u → (s.db.accounts.get u).isSome
  | .auth (.keychain (.cacheInsert account _) _) =>
      IsSession parseUuid u account → s.auth.keychain.os account ≠ none
  | .auth (.keychain (.setPassword account _) _) => ¬ IsSession parseUuid u account
  | .auth (.keychain (.deleteCredential account) _) =>
      IsSession parseUuid u account → s.auth.keychain.cache account = none
  | _ => True

/-- A step that neither logs the account in nor brings it back. -/
def Undisturbed : Answers Call Answer State := fun s c a s' =>
  (c.login = true → ¬ Writes parseUuid u c.action) ∧
    (c.login = false → Refreshes parseUuid u s c.action) ∧ Answered owner s c a s'

variable {parseUuid owner u} {s s' : State} {c : Call} {a : Answer c}

/-! ### What such a step leaves -/

/-- A step that writes for the account can only be one of another call than a login. -/
theorem refreshes_of_writes (h : Undisturbed parseUuid owner u s c a s')
    (hwrites : Writes parseUuid u c.action) : Refreshes parseUuid u s c.action := by
  cases hlogin : c.login with
  | true => exact absurd hwrites (h.1 hlogin)
  | false => exact h.2.1 hlogin

theorem absent_of_change {change : Change} {now : DateTime} {db : Database}
    (hrefreshes : Writes parseUuid u (.write change) → Refreshes parseUuid u s (.write change))
    (hstate : Absent u s.db) (happly : change.apply now s.db = .ok db) : Absent u db := by
  have hne : ∀ {user : WorkspaceAuthUser}, (user.id = u → (s.db.accounts.get u).isSome) →
      user.id ≠ u := fun hsome heq => hstate.ne_of_isSome (hsome heq) rfl
  cases change with
  | remember user =>
      obtain rfl := Except.ok.inj happly
      exact hstate.rememberWorkspaceAccount now (hne fun heq => hrefreshes heq heq)
  | syncMemberships user workspaces =>
      exact hstate.syncMemberships (hne fun heq => hrefreshes heq heq) happly
  | remove user => exact absent_removeWorkspaceAccount happly (.inr hstate)

/-- What a step can do. -/
inductive Effect (owner : String → Uuid) (s : State) : Action → State → Prop
  | none (action : Action) : Effect owner s action s
  | auth {c : WorkspaceAuth.Call} {answer : WorkspaceAuth.Answer c} {auth : WorkspaceAuth.State}
      (h : WorkspaceAuth.Answered owner s.auth c answer auth) :
      Effect owner s (.auth c) { s with auth }
  | change {change : Change} {now : DateTime} {db : Database}
      (h : change.apply now s.db = .ok db) : Effect owner s (.write change) { s with db }
  | activate {action : Action} {now : DateTime} {id : Uuid} {account : Option UserId}
      {db : Database} (h : Store.activateWorkspace now id account s.db = .ok db) :
      Effect owner s action { s with db }
  | connections {action : Action} {now : DateTime} {workspaceId : Uuid} {user : UserId}
      {connections : List (ConnectionProfile × ℤ)} {db : Database}
      (h : Store.syncRemoteConnections now workspaceId user connections s.db = .ok db) :
      Effect owner s action { s with db }

theorem effect_of_does {action : Action} {a : Result action} (h : Does owner s action a s') :
    Effect owner s action s' := by
  cases action with
  | auth c =>
      obtain ⟨auth, hanswer, rfl⟩ := h
      exact .auth hanswer
  | read query =>
      cases a with
      | error e =>
          obtain rfl : s' = s := h
          exact .none _
      | ok result =>
          obtain ⟨rfl, -⟩ := h
          exact .none _
  | write change =>
      cases a with
      | error e =>
          obtain rfl : s' = s := h
          exact .none _
      | ok _ =>
          obtain ⟨now, db, happly, rfl⟩ := h
          exact .change happly
  | activate id account =>
      cases a with
      | error e =>
          obtain rfl : s' = s := h
          exact .none _
      | ok entry =>
          obtain ⟨now, db, happly, -, -, rfl⟩ := h
          exact .activate happly
  | activateAccount user =>
      cases a with
      | error e =>
          obtain rfl : s' = s := h
          exact .none _
      | ok entry =>
          obtain ⟨now, db, happly, -, -, rfl⟩ := h
          exact .activate happly
  | syncRemoteConnections workspaceId user connections =>
      cases a with
      | error e =>
          obtain rfl : s' = s := h
          exact .none _
      | ok removed =>
          obtain ⟨now, db, happly, rfl⟩ := h
          exact .connections happly

/-- An account that is gone from the store stays gone. -/
theorem absent_of_undisturbed (h : Undisturbed parseUuid owner u s c a s')
    (hstate : Absent u s.db) : Absent u s'.db := by
  have hrefreshes := refreshes_of_writes h
  obtain ⟨login, action⟩ := c
  cases effect_of_does h.2.2 with
  | none action => exact hstate
  | auth hanswer => exact hstate
  | change happly => exact absent_of_change hrefreshes hstate happly
  | activate happly => exact hstate.activateWorkspace happly
  | connections happly => exact hstate.syncRemoteConnections happly

theorem unheld_of_keychain {access : Keychain.Access} {reason : WorkspaceAuth.Reason}
    {answer : Keychain.Answer access} {keychain : Keychain.Stores}
    (hrefreshes : Writes parseUuid u (.auth (.keychain access reason)) →
      Refreshes parseUuid u s (.auth (.keychain access reason)))
    (hstate : Unheld parseUuid u s.auth)
    (hanswer : Keychain.Answered s.auth.keychain access answer keychain) :
    Unheld parseUuid u { s.auth with keychain } := by
  have heffect := WorkspaceAuth.effect_of_access hanswer
  intro id hparse
  have hbefore := hstate id hparse
  have hcache : s.auth.keychain.cache (sessionOf id) = none := congrArg Prod.fst hbefore
  have hos : s.auth.keychain.os (sessionOf id) = none := congrArg Prod.snd hbefore
  refine Prod.ext (Option.eq_none_iff_forall_ne_some.2 fun secret hsecret => ?_)
    (Option.eq_none_iff_forall_ne_some.2 fun secret hsecret => ?_)
  · rcases WorkspaceAuth.cache_of_effect heffect hsecret with hheld | rfl
    · cases hcache.symm.trans hheld
    · have hsession : IsSession parseUuid u (sessionOf id) := ⟨id, hparse, rfl⟩
      exact hrefreshes hsession hsession hos
  · rcases WorkspaceAuth.os_of_effect heffect hsecret with hheld | rfl
    · cases hos.symm.trans hheld
    · have hsession : IsSession parseUuid u (sessionOf id) := ⟨id, hparse, rfl⟩
      exact hrefreshes hsession hsession

/-- A session that is gone from the vault stays gone. -/
theorem unheld_of_undisturbed (h : Undisturbed parseUuid owner u s c a s')
    (hstate : Unheld parseUuid u s.auth) : Unheld parseUuid u s'.auth := by
  have hrefreshes := refreshes_of_writes h
  obtain ⟨login, action⟩ := c
  cases effect_of_does h.2.2 with
  | none action => exact hstate
  | change happly => exact hstate
  | activate happly => exact hstate
  | connections happly => exact hstate
  | @auth c answer auth hanswer =>
      cases c with
      | keychain access reason =>
          obtain ⟨keychain, hkeychain, rfl⟩ := hanswer
          exact unheld_of_keychain hrefreshes hstate hkeychain
      | session token =>
          have hsame := (WorkspaceAuth.effect_of_answered hanswer).2 fun _ _ h => by cases h
          exact fun id hparse => hsame ▸ hstate id hparse
      | request request token =>
          have hsame := (WorkspaceAuth.effect_of_answered hanswer).2 fun _ _ h => by cases h
          exact fun id hparse => hsame ▸ hstate id hparse
      | token deviceCode =>
          have hsame := (WorkspaceAuth.effect_of_answered hanswer).2 fun _ _ h => by cases h
          exact fun id hparse => hsame ▸ hstate id hparse

/-! ### The sign-outs keep to it -/

section Keeps

variable {κ C : Type} {A : C → Type} {k : κ} {α : Type}

/-- What is gone of the account stays gone. -/
def Stays (parseUuid : String → Option Uuid) (u : UserId) (s s' : State) : Prop :=
  (Absent u s.db → Absent u s'.db) ∧ (Unheld parseUuid u s.auth → Unheld parseUuid u s'.auth)

/-- What all calls agree on. -/
def code (parseUuid : String → Option Uuid) (u : UserId) : Code κ C State :=
  ⟨fun _ => True, fun _ => Stays parseUuid u, fun _ _ _ => True⟩

theorem code_sound {answers : Answers C A State}
    (h : ∀ s c a s', answers s c a s' → Stays parseUuid u s s') :
    (code parseUuid u : Code κ C State).Sound answers where
  refl _ _ := ⟨id, id⟩
  trans _ _ _ _ h h' := ⟨h'.1 ∘ h.1, h'.2 ∘ h.2⟩
  inv _ _ _ _ _ _ _ _ := trivial
  others _ _ s c a s' _ _ _ hanswer := h s c a s' hanswer

theorem stays_of_undisturbed (s : State) (c : Call) (a : Answer c) (s' : State)
    (h : Undisturbed parseUuid owner u s c a s') : Stays parseUuid u s s' :=
  ⟨absent_of_undisturbed h, unheld_of_undisturbed h⟩

/-- The steps of a call that is no login. -/
def Steps (parseUuid : String → Option Uuid) (owner : String → Uuid) (u : UserId) :
    Answers Action Result State := fun s c a s' => Undisturbed parseUuid owner u s ⟨false, c⟩ a s'

/-- Its steps in `workspace_auth.rs`. -/
def AuthSteps (parseUuid : String → Option Uuid) (owner : String → Uuid) (u : UserId) :
    Answers WorkspaceAuth.Call WorkspaceAuth.Answer State := fun s c a s' =>
  Undisturbed parseUuid owner u s ⟨false, .auth c⟩ a s'

theorem steps_sound :
    (code parseUuid u : Code κ Action State).Sound (Steps parseUuid owner u) :=
  code_sound fun s c a s' h => stays_of_undisturbed s ⟨false, c⟩ a s' h

theorem authSteps_sound :
    (code parseUuid u : Code κ WorkspaceAuth.Call State).Sound (AuthSteps parseUuid owner u) :=
  code_sound fun s c a s' h => stays_of_undisturbed s ⟨false, .auth c⟩ a s' h

/-- A call that comes back without an error ends with `P`. -/
abbrev Ends (answers : Answers C A State) (parseUuid : String → Option Uuid) (u : UserId) (k : κ)
    (P : α → State → Prop) (call : ExceptT AppError (Program C A) α) (s : State) : Prop :=
  Crew.Keeps answers (code parseUuid u) (fun s result => ∀ a, result = .ok a → P a s) k call.run s

theorem ends_anything {answers : Answers C A State} (call : ExceptT AppError (Program C A) α)
    (s : State) : Ends answers parseUuid u k (fun _ _ => True) call s := by
  have hkeeps : Crew.Keeps answers (code parseUuid u) (fun _ _ => True) k call.run s :=
    keeps_of_good (fun _ _ => trivial) call.run s
  exact hkeeps.mono fun _ _ _ _ _ => trivial

theorem ends_throw {answers : Answers C A State} {P : α → State → Prop} (e : AppError) (s : State) :
    Ends answers parseUuid u k P (throw e) s := by
  intro _ _ _ a h
  cases h

theorem ends_bind {β : Type} {answers : Answers C A State}
    (hsound : (code parseUuid u : Code κ C State).Sound answers) {P : α → State → Prop}
    {R : β → State → Prop} {x : ExceptT AppError (Program C A) α}
    {f : α → ExceptT AppError (Program C A) β} (hx : Ends answers parseUuid u k P x s)
    (hf : ∀ a s, P a s → Ends answers parseUuid u k R (f a) s) :
    Ends answers parseUuid u k R (x >>= f) s :=
  hx.run_bind hsound (fun a s _ ha => hf a s (ha a rfl)) fun e s _ _ => ends_throw e s

theorem ends_deleteWorkspaceSession (reason : WorkspaceAuth.Reason) (s : State) :
    Ends (AuthSteps parseUuid owner u) parseUuid u k (fun _ s => Unheld parseUuid u s.auth)
      (WorkspaceAuth.deleteWorkspaceSession parseUuid u.text reason) s := by
  unfold WorkspaceAuth.deleteWorkspaceSession
  cases hparse : parseUuid u.text with
  | none =>
      rw [Keychain.deleteWorkspaceSession, Keychain.workspaceSessionAccount, hparse]
      intro _ _ _ _ h
      cases h
  | some id =>
      rw [WorkspaceAuth.deleteWorkspaceSession_eq hparse]
      have hunheld : ∀ s : State, s.auth.keychain.holds (sessionOf id) = (none, none) →
          Unheld parseUuid u s.auth := by
        intro s hholds id' hparse'
        obtain rfl : id = id' := Option.some.inj (hparse.symm.trans hparse')
        exact hholds
      refine fun s₁ _ _ => ⟨trivial, fun _ s₂ _ => fun s₃ _ _ => ⟨trivial, fun deleted s₄ h => ?_⟩⟩
      obtain ⟨-, hrefreshes, auth, ⟨keychain, hdeleted, rfl⟩, rfl⟩ := h
      have hcache : s₃.auth.keychain.cache (sessionOf id) = none :=
        hrefreshes rfl ⟨id, hparse, rfl⟩
      rcases deleted with (text | text) | _
      · obtain ⟨hos, rfl⟩ := hdeleted
        exact fun s₅ hstays _ _ _ => hstays.2 (hunheld _ (Prod.ext hcache hos))
      · intro _ _ _ _ h
        cases h
      · obtain rfl : keychain = _ := hdeleted
        refine fun s₅ hstays _ _ _ => hstays.2 (hunheld _ ?_)
        exact (Keychain.holds_setOs ..).trans (Prod.ext hcache rfl)

theorem ends_signOut_auth (s : State) :
    Ends (AuthSteps parseUuid owner u) parseUuid u k (fun _ s => Unheld parseUuid u s.auth)
      (WorkspaceAuth.signOut parseUuid u.text) s := by
  refine ends_bind authSteps_sound (ends_anything _ s) fun found s _ => ?_
  cases found with
  | none => exact ends_deleteWorkspaceSession .asked s
  | some token =>
      exact ends_bind authSteps_sound (ends_anything _ s) fun _ s _ =>
        ends_deleteWorkspaceSession .asked s

theorem ends_auth {P : α → State → Prop} {call : WorkspaceAuth.CallM α}
    (h : Ends (AuthSteps parseUuid owner u) parseUuid u k P call s) :
    Ends (Steps parseUuid owner u) parseUuid u k P (auth call) s :=
  Crew.Keeps.embed Action.auth (fun (c : WorkspaceAuth.Call) (a : Result (.auth c)) => a) rfl rfl
    (fun _ _ _ => trivial) (fun _ _ _ _ hanswer => hanswer) h

theorem ends_remove (s : State) :
    Ends (Steps parseUuid owner u) parseUuid u k (fun _ s => Absent u s.db) (write (.remove u))
      s := by
  refine fun s₁ _ _ => ⟨trivial, fun removed s₂ h => ?_⟩
  cases removed with
  | error e =>
      intro _ _ _ _ h
      cases h
  | ok _ =>
      obtain ⟨-, -, now, db, happly, rfl⟩ := h
      exact fun s₃ hstays _ _ _ => hstays.1 (absent_removeWorkspaceAccount happly (.inl rfl))

/-- What is gone of the account when the calls of `sign_out` begin is gone at their end. -/
theorem ends_and {P : α → State → Prop} {R : State → Prop} {call : ServiceM α} {s : State}
    (hstays : ∀ s s', Stays parseUuid u s s' → R s → R s')
    (h : Ends (Steps parseUuid owner u) parseUuid u k P call s) (hR : R s) :
    Ends (Steps parseUuid owner u) parseUuid u k (fun a s => P a s ∧ R s) call s := by
  have hcalls : ∀ s c a s', Steps parseUuid owner u s c a s' → R s → R s' :=
    fun s c a s' hstep => hstays s s' (stays_of_undisturbed s ⟨false, c⟩ a s' hstep)
  exact (h.and hstays hcalls hR).mono fun _ _ hboth a ha => ⟨hboth.1 a ha, hboth.2⟩

theorem ends_signOutAccount (s : State) :
    Ends (Steps parseUuid owner u) parseUuid u k (fun _ s => SignedOut parseUuid u s)
      (signOutAccount parseUuid u) s := by
  refine ends_bind steps_sound (ends_remove s) fun _ s hremoved => ?_
  have hvault : Ends (Steps parseUuid owner u) parseUuid u k
      (fun _ s => Unheld parseUuid u s.auth) (auth (WorkspaceAuth.signOut parseUuid u.text)) s :=
    ends_auth (ends_signOut_auth s)
  have hboth := ends_and (fun _ _ h => h.1) hvault hremoved
  exact hboth.mono fun _ _ h a ha => ⟨(h a ha).2, (h a ha).1⟩

theorem stays_signedOut {s s' : State} (h : Stays parseUuid u s s') (hs : SignedOut parseUuid u s) :
    SignedOut parseUuid u s' := ⟨h.1 hs.store, h.2 hs.vault⟩

/-- After a sign-out without an error the account stays signed out through the rest of the call. -/
theorem ends_after {call : ServiceM α} {s : State} (hs : SignedOut parseUuid u s) :
    Ends (Steps parseUuid owner u) parseUuid u k (fun _ s => SignedOut parseUuid u s) call s := by
  have hanything : Ends (Steps parseUuid owner u) parseUuid u k (fun _ _ => True) call s :=
    ends_anything call s
  have hboth := ends_and (fun _ _ => stays_signedOut) hanything hs
  exact hboth.mono fun _ _ h a ha => (h a ha).2

theorem ends_signOut (user : Option UserId) (s : State) :
    Ends (Steps parseUuid owner u) parseUuid u k
      (fun result s => u ∈ result.1 → SignedOut parseUuid u s) (signOut parseUuid user) s := by
  refine ends_bind steps_sound (ends_anything _ s) fun userId s _ => ?_
  by_cases hu : userId = u
  · subst hu
    refine ends_bind steps_sound (ends_signOutAccount s) fun _ s hout => ?_
    refine ends_bind steps_sound (ends_after hout) fun state s hout => ?_
    intro s' hstays _ result hresult _
    exact stays_signedOut hstays hout
  · refine ends_bind steps_sound (ends_anything _ s) fun _ s _ => ?_
    refine ends_bind steps_sound (ends_anything _ s) fun state s _ => ?_
    rintro s' - - result ⟨⟩ hmem
    exact absurd (List.mem_singleton.1 hmem).symm hu

theorem ends_attempt {P : α → State → Prop} {call : ServiceM α} {s : State}
    (h : Ends (Steps parseUuid owner u) parseUuid u k P call s) :
    Ends (Steps parseUuid owner u) parseUuid u k
      (fun result s => ∀ a, result = .ok a → P a s) (attempt call) s := by
  refine (Crew.Keeps.attempt h).mono fun s result hresult r hr => ?_
  obtain ⟨r', rfl, hP⟩ := hresult
  cases hr
  exact hP

/-- No error has been kept, and there was none. -/
theorem errors_eq_none {firstError : Option AppError} {removed signedOut : AppResult Unit}
    (h : (firstError <|> errorOf removed <|> errorOf signedOut) = none) :
    firstError = none ∧ removed = .ok () ∧ signedOut = .ok () := by
  cases firstError with
  | some e => cases h
  | none =>
      cases removed with
      | error e => cases h
      | ok _ =>
          cases signedOut with
          | error e => cases h
          | ok _ => exact ⟨rfl, rfl, rfl⟩

/-- The accounts of a round without an error are signed out. -/
theorem ends_signOutEach (firstError : Option AppError) (users : List UserId) (s : State) :
    Ends (Steps parseUuid owner u) parseUuid u k
      (fun error s => error = none → firstError = none ∧ (u ∈ users → SignedOut parseUuid u s))
      (signOutEach parseUuid firstError users) s := by
  induction users generalizing firstError s with
  | nil =>
      rintro s' - - error ⟨⟩ herror
      refine ⟨herror, fun hmem => ?_⟩
      cases hmem
  | cons userId users ih =>
      by_cases hu : userId = u
      · subst hu
        refine ends_bind steps_sound (ends_attempt (ends_remove s)) fun removed s hremoved => ?_
        have hvault : Ends (Steps parseUuid owner userId) parseUuid userId k
            (fun _ s => Unheld parseUuid userId s.auth)
            (auth (WorkspaceAuth.signOut parseUuid userId.text)) s :=
          ends_auth (ends_signOut_auth s)
        have hboth := ends_and (fun _ _ hstays habsent hok => hstays.1 (habsent hok))
          (ends_attempt hvault) (fun hok : removed = .ok () => hremoved () hok)
        refine ends_bind steps_sound hboth fun signedOut s hsignedOut => ?_
        -- The accounts that are left do not bring this one back.
        have hout : removed = .ok () → signedOut = .ok () → SignedOut parseUuid userId s :=
          fun hremoved hok => ⟨hsignedOut.2 hremoved, hsignedOut.1 () hok⟩
        have hlasts : ∀ s s', Stays parseUuid userId s s' →
            (removed = .ok () → signedOut = .ok () → SignedOut parseUuid userId s) →
            removed = .ok () → signedOut = .ok () → SignedOut parseUuid userId s' :=
          fun _ _ hstays hout hremoved hok => stays_signedOut hstays (hout hremoved hok)
        have hrest := ends_and hlasts
          (ih (firstError <|> errorOf removed <|> errorOf signedOut) s) hout
        refine hrest.mono fun s' result hresult error herror hnone => ?_
        obtain ⟨hlast, hafter⟩ := hresult error herror
        obtain ⟨hfirst, hremoved, hok⟩ := errors_eq_none (hlast hnone).1
        exact ⟨hfirst, fun _ => hafter hremoved hok⟩
      · refine ends_bind steps_sound (ends_anything _ s) fun removed s _ => ?_
        refine ends_bind steps_sound (ends_anything _ s) fun signedOut s _ => ?_
        refine (ih (firstError <|> errorOf removed <|> errorOf signedOut) s).mono
          fun s' result hresult error herror hnone => ?_
        obtain ⟨hlast, hafter⟩ := hresult error herror hnone
        exact ⟨(errors_eq_none hlast).1, fun hmem =>
          hafter ((List.mem_cons.1 hmem).resolve_left (Ne.symm hu))⟩

theorem ends_signOutAll (s : State) :
    Ends (Steps parseUuid owner u) parseUuid u k
      (fun result s => u ∈ result.1 → SignedOut parseUuid u s) (signOutAll parseUuid) s := by
  refine ends_bind steps_sound (ends_anything _ s) fun accounts s _ => ?_
  refine ends_bind steps_sound (ends_signOutEach none _ s) fun error s hround => ?_
  cases error with
  | some e => exact ends_throw e s
  | none =>
      have hout := (hround rfl).2
      have hanything : Ends (Steps parseUuid owner u) parseUuid u k (fun _ _ => True)
          authStateFromStore s := ends_anything _ s
      have hboth := ends_and (fun _ _ hstays hout hmem => stays_signedOut hstays (hout hmem))
        hanything hout
      refine ends_bind steps_sound hboth fun state s hafter => ?_
      rintro s' hstays - result ⟨⟩ hmem
      exact stays_signedOut hstays (hafter.2 hmem)

/-- A call that has signed the account out without an error. -/
def Leaves (parseUuid : String → Option Uuid) (u : UserId) (s : State) (outcome : Outcome) : Prop :=
  ∀ users state, outcome = .signedOut (.ok (users, state)) → u ∈ users → SignedOut parseUuid u s

/-- A call that is no sign-out. -/
theorem leaves_of_ne {answers : Answers Action Result State} {call : Program Action Result α}
    {outcome : α → Outcome} (hne : ∀ a result, outcome a ≠ .signedOut result) (s : State) :
    Crew.Keeps answers (code parseUuid u) (Leaves parseUuid u) k
      (call.bind fun a => .done (outcome a)) s := by
  have hkeeps : Crew.Keeps answers (code parseUuid u) (fun _ _ => True) k call s :=
    keeps_of_good (fun _ _ => trivial) call s
  refine (hkeeps.map outcome).mono fun s result hresult users state hsigned => ?_
  obtain ⟨a, rfl, -⟩ := hresult
  exact absurd hsigned (hne a _)

theorem leaves_of_ends {call : ServiceM (List UserId × WorkspaceAuthState)} {s : State}
    (hcall : Ends (Steps parseUuid owner u) parseUuid u k
      (fun result s => u ∈ result.1 → SignedOut parseUuid u s) call s) :
    Crew.Keeps (Steps parseUuid owner u) (code parseUuid u) (Leaves parseUuid u) k
      (call.ended .signedOut) s := by
  refine (hcall.map Outcome.signedOut).mono fun s outcome houtcome users state hsigned => ?_
  obtain ⟨result, rfl, hresult⟩ := houtcome
  cases hsigned
  exact hresult _ rfl

/-- A sign-out that returns without an error has signed its accounts out. -/
theorem leaves_program (op : Op) (s : State) :
    Crew.Keeps (Undisturbed parseUuid owner u) (code parseUuid u) (Leaves parseUuid u) k
      (op.program parseUuid) s := by
  have hactions : Crew.Keeps
      (fun s c a s' => Undisturbed parseUuid owner u s ⟨op.isLogin, c⟩ a s')
      (code parseUuid u) (Leaves parseUuid u) k (op.actions parseUuid) s := by
    cases op with
    | signOut user => exact leaves_of_ends (ends_signOut user s)
    | signOutAll => exact leaves_of_ends (ends_signOutAll s)
    | authState => exact leaves_of_ne (fun _ _ h => by cases h) s
    | refreshAuthState => exact leaves_of_ne (fun _ _ h => by cases h) s
    | refreshMemberships => exact leaves_of_ne (fun _ _ h => by cases h) s
    | activate id account => exact leaves_of_ne (fun _ _ h => by cases h) s
    | activateAccount user => exact leaves_of_ne (fun _ _ h => by cases h) s
    | pollLogin deviceCode => exact leaves_of_ne (fun _ _ h => by cases h) s
    | onBehalf op => exact leaves_of_ne (fun _ _ h => by cases h) s
  exact Crew.Keeps.embed (Call.mk op.isLogin) (fun _ a => a) rfl rfl (fun _ _ _ => trivial)
    (fun _ _ _ _ h => h) hactions

end Keeps

/-! ### Runs -/

section Runs

variable {κ : Type} [DecidableEq κ]

/-- The sessions and the store, and where every call stands. -/
abbrev World (κ : Type) := Crew.World κ Call Answer Outcome State

/-- A step that was made. -/
abbrev Entry (κ : Type) := Crew.Entry κ Call Answer

/-- What users rely on. The run `es` begins with the sign-out `k`, which has returned by its end;
calls that had begun before go on, and so do calls that begin later. -/
def Lasts (parseUuid : String → Option Uuid) (owner : String → Uuid) (ops : κ → Op)
    (ok : UserId → World κ → Entry κ → Prop) : Prop :=
  ∀ w₀ before w₁ es w₂ k u users state,
    (∀ k, w₀.program k = (ops k).program parseUuid) →
    Trace (Answered owner) (fun _ _ => True) w₀ before w₁ →
    w₁.program k = (ops k).program parseUuid → Trace (Answered owner) (ok u) w₁ es w₂ →
    (∀ e ∈ es, e.call.login = true → ¬ Writes parseUuid u e.call.action) →
    w₂.program k = .done (.signedOut (.ok (users, state))) → u ∈ users →
    SignedOut parseUuid u w₂.state

/-- Another call than a login writes for the account only what is there to be refreshed. -/
def StillThere (parseUuid : String → Option Uuid) (u : UserId) (w : World κ) (e : Entry κ) : Prop :=
  e.call.login = false → Refreshes parseUuid u w.state e.call.action

/-- After a sign-out the account stays signed out until a login, in every run in which refreshes
that were under way write nothing for an account that is no longer there. -/
theorem sign_out_lasts (parseUuid : String → Option Uuid) (owner : String → Uuid) (ops : κ → Op) :
    Lasts parseUuid owner ops (StillThere parseUuid) := by
  intro w₀ before w₁ es w₂ k u users state hbegin hbefore hstart htrace hlogins hdone hmem
  have hnarrow : Trace (Undisturbed parseUuid owner u) (StillThere parseUuid u) w₁ es w₂ :=
    htrace.narrow (fun w e s' hok hlogin hanswer => ⟨hlogin, hok, hanswer⟩) hlogins
  have hsound : (code parseUuid u : Code κ Call State).Sound (Undisturbed parseUuid owner u) :=
    code_sound stays_of_undisturbed
  have hkeeps : ∀ k', Crew.Keeps (Undisturbed parseUuid owner u) (code parseUuid u)
      (fun s outcome => k' = k → Leaves parseUuid u s outcome) k' (w₁.program k') w₁.state := by
    intro k'
    by_cases hk : k' = k
    · subst hk
      rw [hstart]
      exact (leaves_program (ops k') w₁.state).mono fun _ _ h _ => h
    · have hgood : Crew.Keeps (Undisturbed parseUuid owner u) (code parseUuid u)
          (fun _ _ => True) k' (w₁.program k') w₁.state := keeps_of_good (fun _ _ => trivial) _ _
      exact hgood.mono fun _ _ _ heq => absurd heq hk
  obtain ⟨-, hkept⟩ := hnarrow.keeps
    (Q := fun k' s outcome => k' = k → Leaves parseUuid u s outcome) hsound trivial hkeeps
  have hk := hkept k
  rw [hdone] at hk
  exact hk.done (Q := fun k' s outcome => k' = k → Leaves parseUuid u s outcome) hsound trivial rfl
    users state rfl hmem

end Runs

/-! ### A refresh under way -/

section Late

open WorkspaceAuth (SessionUser accountId_toText cache_store deleteWorkspaceSession_eq
  fetchWorkspaceSession_eq response200 sampleUser sessionUser signedIn textParser)

variable {κ : Type} [DecidableEq κ] {parseUuid : String → Option Uuid} (owner : String → Uuid)
  {user : WorkspaceAuthUser} {token : String} {id : Uuid} {body : SessionUser}

/-- When everything happens. -/
def noon : DateTime := .ofDay 1

/-- A store that remembers one account. -/
def rememberedStore (user : WorkspaceAuthUser) : Database :=
  rememberWorkspaceAccount noon user (freshStore noon)

theorem accountUsers_rememberedStore (user : WorkspaceAuthUser) :
    accountUsers (rememberedStore user) = [user] := by
  have hrows : (rememberedStore user).accounts.rows =
      [(user.id, ⟨user.email, user.displayName, none, noon, noon, noon⟩)] := rfl
  rw [accountUsers, hrows, Sorting.sortBy, List.mergeSort_singleton]
  rfl

/-- The program of a call that is no login. -/
abbrev refreshing (program : Program Action Result Outcome) : Run :=
  embed (Call.mk false) (fun _ a => a) program

theorem alone_refreshAccount (k : κ) (hparse : parseUuid user.id.text = some id)
    {auth : WorkspaceAuth.State} {db : Database}
    (hcache : auth.keychain.cache (sessionOf id) = some token)
    (huser : sessionUser parseUuid body = .ok user)
    (hid : body.id = (owner token).toText) {α : Type} (rest : Unit → ServiceM α)
    (f : AppResult α → Program Action Result Outcome) :
    Alone (Answered owner) k
      (refreshing (((refreshAccount parseUuid user.id >>= fun _ => pure ()) >>= rest).run.bind f))
      ⟨auth, db⟩
      (refreshing
        (((syncAccountMemberships parseUuid user >>= fun _ => pure ()) >>= rest).run.bind f))
      ⟨auth.answer token ⟨200, "200 OK"⟩, db⟩ := by
  have hnamed : (if (response200 body).status.code = 401 then
        (.done (.ok none) : Program WorkspaceAuth.Call WorkspaceAuth.Answer
          (AppResult (Option WorkspaceAuthUser)))
      else .done (((response200 body).success "reading workspace session").bind
        fun user => (sessionUser parseUuid user).map some)) =
      .done (.ok (some user)) := by
    change Program.done ((sessionUser parseUuid body).map some) = _
    rw [huser]
    rfl
  have hsame : (some user).map (fun user : WorkspaceAuthUser => user.id.text) = some user.id.text :=
    rfl
  unfold refreshAccount WorkspaceAuth.authUser WorkspaceAuth.fetchWorkspaceSession
  rw [fetchWorkspaceSession_eq hparse]
  refine .call (some token) ⟨_, ⟨_, ⟨hcache.symm, rfl⟩, rfl⟩, rfl⟩
      (.call (.ok (response200 body)) ⟨_, ⟨rfl, ?_⟩, rfl⟩ ?_)
  · rintro _ ⟨⟩
    exact hid
  · dsimp only
    rw [hnamed, Program.done_bind, ExceptT.bindCont, if_pos hsame]
    exact .refl k _ _

theorem alone_refreshMemberships (k : κ) (hparse : parseUuid user.id.text = some id)
    {auth : WorkspaceAuth.State} (hcache : auth.keychain.cache (sessionOf id) = some token)
    (huser : sessionUser parseUuid body = .ok user)
    (hid : body.id = (owner token).toText) :
    ∃ next, Alone (Answered owner) k (Op.program parseUuid .refreshMemberships)
      ⟨auth, rememberedStore user⟩ (.call ⟨false, .write (.remember user)⟩ next)
      ⟨auth.answer token ⟨200, "200 OK"⟩, rememberedStore user⟩ :=
  ⟨_, .call (.ok [user]) ⟨rfl, congrArg Except.ok (accountUsers_rememberedStore user)⟩
    (.call (.ok _) ⟨rfl, rfl⟩ (alone_refreshAccount owner k hparse hcache huser hid _ _))⟩

/-- The account is signed out; its session could not be revoked. -/
theorem alone_signOutAccount (k : κ) (hparse : parseUuid user.id.text = some id)
    {auth : WorkspaceAuth.State} {db db' : Database}
    (hcache : auth.keychain.cache (sessionOf id) = some token)
    (hremove : removeWorkspaceAccount noon user.id db = .ok db') {α : Type}
    (rest : Unit → ServiceM α) (f : AppResult α → Program Action Result Outcome) :
    ∃ auth', Alone (Answered owner) k
      (refreshing ((signOutAccount parseUuid user.id >>= rest).run.bind f)) ⟨auth, db⟩
      (refreshing ((rest ()).run.bind f)) ⟨auth', db'⟩ := by
  unfold signOutAccount WorkspaceAuth.signOut WorkspaceAuth.fetchWorkspaceSession
    WorkspaceAuth.deleteWorkspaceSession
  rw [fetchWorkspaceSession_eq hparse, deleteWorkspaceSession_eq hparse]
  exact ⟨_, .call (.ok ()) ⟨noon, db', hremove, rfl⟩
    (.call (some token) ⟨_, ⟨_, ⟨hcache.symm, rfl⟩, rfl⟩, rfl⟩
      (.call (.error (.failed "")) ⟨_, rfl, rfl⟩
        (.call () ⟨_, ⟨_, rfl, rfl⟩, rfl⟩ (.call (.ok ()) ⟨_, ⟨_, rfl, rfl⟩, rfl⟩
          (.refl k _ _)))))⟩

theorem alone_signOut (k : κ) (hparse : parseUuid user.id.text = some id)
    {auth : WorkspaceAuth.State} (hcache : auth.keychain.cache (sessionOf id) = some token) :
    ∃ s, Alone (Answered owner) k (Op.program parseUuid (.signOut (some user.id)))
      ⟨auth, rememberedStore user⟩
      (.done (.signedOut (.ok ([user.id], ⟨false, none, []⟩)))) s := by
  have hremove : ∃ db, removeWorkspaceAccount noon user.id (rememberedStore user) = .ok db ∧
      db.accounts.rows = [] ∧ db.activeAccountId = none := by
    refine ⟨_, rfl, ?_, rfl⟩
    let account : Account := ⟨user.email, user.displayName, none, noon, noon, noon⟩
    change [(user.id, account)].filter (fun r => r.1 ≠ user.id) = []
    rw [List.filter_cons_of_neg (by simp), List.filter_nil]
  obtain ⟨db, hremove, hrows, hactive⟩ := hremove
  have haccounts : accountUsers db = [] := by
    rw [accountUsers, hrows, Sorting.sortBy, List.mergeSort_nil]
    rfl
  obtain ⟨auth', hout⟩ := alone_signOutAccount owner k hparse hcache hremove
    (fun _ => authStateFromStore >>= fun state => pure ([user.id], state))
    fun result => .done (.signedOut result)
  exact ⟨⟨auth', db⟩, hout.trans (.call (.ok []) ⟨rfl, congrArg Except.ok haccounts⟩
    (.call (.ok none) ⟨rfl, congrArg Except.ok hactive⟩ (.refl k _ _)))⟩

/-- Memberships are refreshed while the account is signed out. -/
def crossingOps (user : UserId) : Fin 2 → Op
  | 0 => .refreshMemberships
  | 1 => .signOut (some user)

theorem makes_crossingOps (parseUuid : String → Option Uuid) (user : UserId) (k : Fin 2) :
    Makes (fun c => c.login = false) ((crossingOps user k).program parseUuid) := by
  have hlogin : (crossingOps user k).isLogin = false := by
    fin_cases k <;> rfl
  refine (makes_embed _ _ _).mono fun c hc => ?_
  obtain ⟨action, rfl⟩ := hc
  exact hlogin

theorem refresh_brings_account_back : ∃ user,
    ¬ Lasts textParser.parse (fun _ => .ofByte 1) (crossingOps user) (fun _ _ _ => True) := by
  obtain ⟨account, haccount, htext⟩ := accountId_toText textParser (.ofByte 1)
  refine ⟨account, fun hlasts => ?_⟩
  let user : WorkspaceAuthUser := ⟨account, "ada@example.com", "Ada"⟩
  have hparse : textParser.parse user.id.text = some (.ofByte 1) := by
    rw [htext, textParser.parse_toText]
  have huser : sessionUser textParser.parse WorkspaceAuth.sampleUser = .ok user := by
    rw [sessionUser, WorkspaceAuth.sampleUser, haccount]
    rfl
  let ops := crossingOps user.id
  let s₀ : State := ⟨signedIn, rememberedStore user⟩
  let w₀ : World (Fin 2) := ⟨s₀, fun k => (ops k).program textParser.parse⟩
  -- The session is validated, and the account is signed out before it is remembered.
  obtain ⟨next, hrefresh⟩ := alone_refreshMemberships (fun _ => .ofByte 1) (0 : Fin 2) hparse
    (cache_store _ (.ofByte 1) "replaced") huser rfl
  obtain ⟨before, hbefore⟩ := hrefresh w₀ rfl rfl
  let auth := signedIn.answer "replaced" ⟨200, "200 OK"⟩
  let w₁ := w₀.goOn 0 (.call ⟨false, .write (.remember user)⟩ next) ⟨auth, rememberedStore user⟩
  have hcache : auth.keychain.cache (sessionOf (.ofByte 1)) = some "replaced" := cache_store ..
  obtain ⟨⟨auth', db⟩, hout⟩ := alone_signOut (fun _ => .ofByte 1) (1 : Fin 2) hparse hcache
  obtain ⟨es, hes⟩ := hout w₁ rfl rfl
  let w₂ := w₁.goOn 1 (.done (.signedOut (.ok ([user.id], ⟨false, none, []⟩)))) ⟨auth', db⟩
  let s₃ : State := ⟨auth', rememberWorkspaceAccount noon user db⟩
  have hstep : Step (Answered fun _ => .ofByte 1) w₂
      ⟨0, ⟨false, .write (.remember user)⟩, .ok ()⟩ (w₂.goOn 0 (next (.ok ())) s₃) :=
    .answer rfl ⟨noon, _, rfl, rfl⟩
  have htrace := hes.append (.cons trivial hstep (.nil _))
  have hmakes : ∀ k, Makes (fun c => c.login = false) (w₁.program k) :=
    hbefore.makes fun k => makes_crossingOps _ user.id k
  have hnologin := htrace.calls hmakes
  have hsigned := hlasts w₀ before w₁ _ _ 1 user.id [user.id] ⟨false, none, []⟩ (fun _ => rfl)
    hbefore rfl htrace (fun e he hlogin => absurd hlogin (by simp [hnologin e he])) rfl
    (List.mem_singleton.2 rfl)
  have hpresent : ((rememberWorkspaceAccount noon user db).accounts.get user.id).isSome := by
    rw [rememberWorkspaceAccount, Table.get_upsert, if_pos rfl]
    rfl
  exact hsigned.store.ne_of_isSome hpresent rfl

end Late

end WorkspaceService
end Services
end AgentDb
