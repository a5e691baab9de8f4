import AgentDb.Connection.Keychain

/-!
# Stores, fetches and deletes side by side

What a fetch may rely on: after a delete that has returned it finds nothing, after a store that
has returned it finds what was stored, and calls on other accounts make no difference. The first
two hold in every run in which what a fetch remembers is not out of date when it is remembered and
nothing is cached for an account when its credential is deleted (`Fresh`). Nothing in the code
sees to that: a fetch that read the credential store before a delete brings the secret back, for
the rest of the session (`deleted_secret_comes_back`).
-/

namespace AgentDb
namespace Connection
namespace Keychain

open Crew Program

/-! ### The programs by their roles -/

section Roles

variable {parseUuid : String → Option Uuid} {op : Op} {account secret : String}

theorem workspaceSessionAccount_of_owner {user : String}
    (h : ((parseUuid user).map Owner.workspaceUser).map Owner.account = some account) :
    workspaceSessionAccount parseUuid user = .ok account := by
  rw [workspaceSessionAccount]
  cases hparse : parseUuid user with
  | none =>
      rw [hparse] at h
      cases h
  | some id =>
      rw [hparse] at h
      cases h
      rfl

theorem program_store (haccount : op.account parseUuid = some account)
    (hrole : op.role = .store secret) : op.program parseUuid = storeAccount account secret := by
  cases op with
  | storeSecret id s =>
      cases haccount
      cases hrole
      rfl
  | storeWorkspaceSession user token =>
      cases hrole
      rw [Op.program, storeWorkspaceSession, workspaceSessionAccount_of_owner haccount]
  | _ => cases hrole

theorem program_delete (haccount : op.account parseUuid = some account)
    (hrole : op.role = .delete) : op.program parseUuid = deleteAccount account := by
  cases op with
  | deleteSecret id =>
      cases haccount
      rfl
  | deleteWorkspaceSession user =>
      rw [Op.program, deleteWorkspaceSession, workspaceSessionAccount_of_owner haccount]
  | deleteLegacyWorkspaceSession =>
      cases haccount
      rfl
  | _ => cases hrole

/-- What a fetch hands out when it finds a secret, and when it does not. -/
structure Shows (hit : String → Outcome) (miss : KeyringError → Outcome) : Prop where
  hit : ∀ secret, (hit secret).handsOut = some secret
  miss : ∀ e, (miss e).handsOut = none

theorem program_fetch (haccount : op.account parseUuid = some account) (hrole : op.role = .fetch) :
    ∃ hit miss, Shows hit miss ∧ op.program parseUuid = readAccount account hit miss := by
  cases op with
  | fetchSecret id =>
      cases haccount
      refine ⟨_, _, ⟨fun _ => rfl, fun e => ?_⟩, rfl⟩
      cases e <;> rfl
  | fetchWorkspaceSession user =>
      have hprogram : (Op.fetchWorkspaceSession user).program parseUuid =
          fetchWorkspaceSessionAccount account := by
        rw [Op.program, fetchWorkspaceSession, workspaceSessionAccount_of_owner haccount]
      refine ⟨_, _, ⟨fun _ => rfl, fun e => ?_⟩, hprogram⟩
      cases e <;> rfl
  | fetchLegacyWorkspaceSession =>
      cases haccount
      refine ⟨_, _, ⟨fun _ => rfl, fun e => ?_⟩, rfl⟩
      cases e <;> rfl
  | _ => cases hrole

/-- Without an account nothing is accessed. -/
theorem program_none (haccount : op.account parseUuid = none) :
    ∃ outcome, op.program parseUuid = .done outcome := by
  have hfails : ∀ user, ((parseUuid user).map Owner.workspaceUser).map Owner.account = none →
      ∃ e, workspaceSessionAccount parseUuid user = .error e := fun user h => by
    rw [workspaceSessionAccount]
    cases hparse : parseUuid user with
    | none => exact ⟨_, rfl⟩
    | some id =>
        rw [hparse] at h
        cases h
  cases op with
  | storeWorkspaceSession user token =>
      obtain ⟨e, he⟩ := hfails user haccount
      exact ⟨_, by rw [Op.program, storeWorkspaceSession, he]⟩
  | fetchWorkspaceSession user =>
      obtain ⟨e, he⟩ := hfails user haccount
      exact ⟨_, by rw [Op.program, fetchWorkspaceSession, he]⟩
  | deleteWorkspaceSession user =>
      obtain ⟨e, he⟩ := hfails user haccount
      exact ⟨_, by rw [Op.program, deleteWorkspaceSession, he]⟩
  | _ => cases haccount

/-- The accesses of a role to an account. -/
def Role.Accesses (account : String) : Role → Access → Prop
  | .store secret, c => c = .setPassword account secret ∨ c = .cacheInsert account secret
  | .fetch, c => c = .cacheGet account ∨ c = .getPassword account ∨
      ∃ secret, c = .cacheInsert account secret
  | .delete, c => c = .cacheRemove account ∨ c = .deleteCredential account

/-- The accesses of a call. -/
def Op.Accesses (parseUuid : String → Option Uuid) (op : Op) (c : Access) : Prop :=
  ∃ account, op.account parseUuid = some account ∧ op.role.Accesses account c

theorem makes_program (parseUuid : String → Option Uuid) (op : Op) :
    Makes (op.Accesses parseUuid) (op.program parseUuid) := by
  cases haccount : op.account parseUuid with
  | none =>
      obtain ⟨outcome, hprogram⟩ := program_none haccount
      rw [hprogram]
      trivial
  | some account =>
      have hmine : ∀ c, op.role.Accesses account c → op.Accesses parseUuid c :=
        fun c hc => ⟨account, haccount, hc⟩
      cases hrole : op.role with
      | store secret =>
          rw [hrole] at hmine
          rw [program_store haccount hrole]
          refine ⟨hmine _ (.inl rfl), fun answer => ?_⟩
          cases answer with
          | ok _ => exact ⟨hmine _ (.inr rfl), fun _ => trivial⟩
          | error e => trivial
      | fetch =>
          rw [hrole] at hmine
          obtain ⟨hit, miss, -, hprogram⟩ := program_fetch haccount hrole
          rw [hprogram]
          refine ⟨hmine _ (.inl rfl), fun found => ?_⟩
          cases found with
          | some secret => trivial
          | none =>
              refine ⟨hmine _ (.inr (.inl rfl)), fun answer => ?_⟩
              cases answer with
              | ok secret => exact ⟨hmine _ (.inr (.inr ⟨secret, rfl⟩)), fun _ => trivial⟩
              | error e => trivial
      | delete =>
          rw [hrole] at hmine
          rw [program_delete haccount hrole]
          refine ⟨hmine _ (.inl rfl), fun _ => ⟨hmine _ (.inr rfl), fun answer => ?_⟩⟩
          rcases answer with (text | text) | _
          all_goals trivial

end Roles

/-! ### What an access does to an account -/

section Accesses

variable {s s' : Stores} {c : Access} {a : Answer c} {account : String} {role : Role}

/-- An access leaves the other accounts as they are. -/
theorem holds_of_ne (h : Answered s c a s') (hne : account ≠ c.account) :
    s'.holds account = s.holds account := by
  cases c with
  | cacheGet name => rw [h.2]
  | cacheInsert name secret => exact (show s' = _ from h) ▸ holds_setCache_of_ne s _ hne
  | cacheRemove name => exact (show s' = _ from h) ▸ holds_setCache_of_ne s _ hne
  | setPassword name secret =>
      cases a with
      | error e => rw [show s' = s from h]
      | ok _ => exact (show s' = _ from h) ▸ holds_setOs_of_ne s _ hne
  | getPassword name =>
      rcases a with (text | text) | _
      · rw [h.2]
      · rw [show s' = s from h]
      · rw [h.2]
  | deleteCredential name =>
      rcases a with (text | text) | _
      · rw [h.2]
      · rw [show s' = s from h]
      · exact (show s' = _ from h) ▸ holds_setOs_of_ne s _ hne

theorem account_of_accesses (h : role.Accesses account c) : c.account = account := by
  cases role with
  | store secret => rcases h with rfl | rfl <;> rfl
  | fetch => rcases h with rfl | rfl | ⟨secret, rfl⟩ <;> rfl
  | delete => rcases h with rfl | rfl <;> rfl

/-- What is remembered by a fetch is what the credential store holds or will hold, and nothing is
cached for an account whose credential is deleted. -/
def FreshAnswer (role : Role) (s : Stores) : (c : Access) → Answer c → Prop
  | .cacheInsert account secret, _ => role = .fetch →
      s.os account ≠ none ∧ (s.cache account = none ∨ s.cache account = some secret)
  | .deleteCredential account, .ok _ => s.cache account = none
  | .deleteCredential account, .error (.noEntry _) => s.cache account = none
  | _, _ => True

/-- Fetches and deletes find an account as it was left: gone. -/
theorem gone_of_answered (hgone : s.holds account = (none, none)) (h : Answered s c a s')
    (hrole : ∀ secret, role ≠ .store secret) (haccesses : role.Accesses account c)
    (hfresh : FreshAnswer role s c a) : s'.holds account = (none, none) := by
  have hos : s.os account = none := congrArg Prod.snd hgone
  cases role with
  | store secret => exact absurd rfl (hrole secret)
  | fetch =>
      rcases haccesses with rfl | rfl | ⟨secret, rfl⟩
      · rw [h.2]
        exact hgone
      · rcases a with (text | text) | _
        · rw [h.2]
          exact hgone
        · rw [show s' = s from h]
          exact hgone
        · rw [h.2]
          exact hgone
      · exact absurd hos (hfresh rfl).1
  | delete =>
      rcases haccesses with rfl | rfl
      · rw [show s' = s.setCache account none from h, holds_setCache, hos]
      · rcases a with (text | text) | _
        · rw [h.2]
          exact hgone
        · rw [show s' = s from h]
          exact hgone
        · have hcache : s.cache account = none := hfresh
          rw [show s' = s.setOs account none from h, holds_setOs, hcache]

/-- Fetches leave what is cached. -/
theorem cached_of_answered {secret : String} (hcached : s.cache account = some secret)
    (h : Answered s c a s') (haccesses : Role.fetch.Accesses account c)
    (hfresh : FreshAnswer .fetch s c a) : s'.cache account = some secret := by
  rcases haccesses with rfl | rfl | ⟨secret', rfl⟩
  · rw [h.2]
    exact hcached
  · rcases a with (text | text) | _
    · rw [h.2]
      exact hcached
    · rw [show s' = s from h]
      exact hcached
    · rw [h.2]
      exact hcached
  · rw [show s' = s.setCache account (some secret') from h]
    refine (cache_setCache ..).trans ?_
    rcases (hfresh rfl).2 with hnone | hsome
    · rw [hnone] at hcached
      cases hcached
    · rw [← hsome, hcached]

end Accesses

/-! ### Runs -/

section Runs

variable {κ : Type} [DecidableEq κ] (parseUuid : String → Option Uuid) (ops : κ → Op)

/-- The stores, and where every call stands. -/
abbrev World (κ : Type) := Crew.World κ Access Answer Outcome Stores

/-- An access that was answered. -/
abbrev Accessed (κ : Type) := Crew.Entry κ Access Answer

/-- A condition on the accesses of a run. -/
abbrev Condition (κ : Type) := World κ → Accessed κ → Prop

/-- A run from the begin of all calls. -/
def History (ok : Condition κ) (es : List (Accessed κ)) (w : World κ) : Prop :=
  ∃ w₀ : World κ, (∀ k, w₀.program k = (ops k).program parseUuid) ∧ Trace Answered ok w₀ es w

/-- Call `k` is one of `role` on the account. -/
def Is (k : κ) (role : Role) (account : String) : Prop :=
  (ops k).role = role ∧ (ops k).account parseUuid = some account

/-- What callers rely on. The last answer of `before` is the one a delete or a store returns
with. -/
structure Keeps (ok : Condition κ) : Prop where
  deleted : ∀ (before : List (Accessed κ)) (last : Accessed κ) (w : World κ)
    (after : List (Accessed κ)) (w' : World κ) (account : String) (f : κ) (r : Outcome),
    History parseUuid ops ok (before ++ [last]) w → Is parseUuid ops last.task .delete account →
    w.program last.task = .done (.deleted (.ok ())) → Trace Answered ok w after w' →
    (∀ e ∈ after, ∀ secret, ¬ Is parseUuid ops e.task (.store secret) account) →
    Is parseUuid ops f .fetch account → (∀ e ∈ before ++ [last], f ≠ e.task) →
    w'.program f = .done r → r.handsOut = none
  stored : ∀ (before : List (Accessed κ)) (last : Accessed κ) (w : World κ)
    (after : List (Accessed κ)) (w' : World κ) (account secret : String) (f : κ) (r : Outcome),
    History parseUuid ops ok (before ++ [last]) w →
    Is parseUuid ops last.task (.store secret) account →
    w.program last.task = .done (.stored (.ok ())) → Trace Answered ok w after w' →
    (∀ e ∈ after, (ops e.task).account parseUuid = some account → (ops e.task).role = .fetch) →
    Is parseUuid ops f .fetch account → (∀ e ∈ before ++ [last], f ≠ e.task) →
    w'.program f = .done r → r.handsOut = some secret
  apart : ∀ (w₀ : World κ) (es : List (Accessed κ)) (w : World κ) (owner : Owner),
    (∀ k, w₀.program k = (ops k).program parseUuid) → Trace Answered (fun _ _ => True) w₀ es w →
    ∃ w', Trace Answered (fun _ _ => True) w₀
        (es.filter fun e => (ops e.task).owner parseUuid = some owner) w' ∧
      w.state.holds owner.account = w'.state.holds owner.account ∧
      ∀ k, (ops k).owner parseUuid = some owner → w'.program k = w.program k

/-- An access is fresh. -/
def Fresh : Condition κ := fun w e => FreshAnswer (ops e.task).role w.state e.call e.answer

variable {parseUuid ops} {ok : Condition κ} {es : List (Accessed κ)} {w w' : World κ}

theorem History.makes (h : History parseUuid ops ok es w) :
    ∀ k, Makes ((ops k).Accesses parseUuid) (w.program k) := by
  obtain ⟨w₀, hbegin, htrace⟩ := h
  refine htrace.makes fun k => ?_
  rw [hbegin]
  exact makes_program parseUuid (ops k)

/-- Where a call can stand. -/
theorem History.residual (h : History parseUuid ops ok es w) (k : κ) :
    Residual ((ops k).program parseUuid) (w.program k) := by
  obtain ⟨w₀, hbegin, htrace⟩ := h
  exact hbegin k ▸ htrace.residual k

/-- A call that is not in the trace has not begun. -/
theorem History.program_of_forall_ne (h : History parseUuid ops ok es w) {k : κ}
    (hne : ∀ e ∈ es, k ≠ e.task) : w.program k = (ops k).program parseUuid := by
  obtain ⟨w₀, hbegin, htrace⟩ := h
  exact (htrace.program_of_forall_ne hne).trans (hbegin k)

/-- The last step of a run. -/
theorem History.last {before : List (Accessed κ)} {last : Accessed κ}
    (h : History parseUuid ops ok (before ++ [last]) w) :
    ∃ v, History parseUuid ops ok before v ∧ ok v last ∧ Step Answered v last w := by
  obtain ⟨w₀, hbegin, htrace⟩ := h
  obtain ⟨v, hbefore, hlast⟩ := htrace.split
  cases hlast with
  | cons hok first rest =>
      cases rest
      exact ⟨v, ⟨w₀, hbegin, hbefore⟩, hok, first⟩

/-- A delete that has just returned has left nothing. -/
theorem gone_of_deleted {v : World κ} {last : Accessed κ} {account : String}
    (hresidual : Residual ((ops last.task).program parseUuid) (v.program last.task))
    (hfresh : Fresh ops v last) (hstep : Step Answered v last w)
    (his : Is parseUuid ops last.task .delete account)
    (hdone : w.program last.task = .done (.deleted (.ok ()))) :
    w.state.holds account = (none, none) := by
  obtain ⟨k, c, a⟩ := last
  obtain ⟨next, hprogram, hanswer, hnext⟩ := hstep.task
  rw [program_delete his.2 his.1] at hresidual
  rw [hdone] at hnext
  rw [hprogram, deleteAccount, residual_call] at hresidual
  rcases hresidual with hfirst | ⟨-, hresidual⟩
  · cases hfirst
    cases hnext
  rw [residual_call] at hresidual
  rcases hresidual with hsecond | ⟨answer, hresidual⟩
  · cases hsecond
    rcases a with (text | text) | _
    · rw [hanswer.2]
      exact Prod.ext hfresh hanswer.1
    · cases hnext
    · have hcache : v.state.cache account = none := hfresh
      rw [show w.state = v.state.setOs account none from hanswer, holds_setOs, hcache]
  · rcases answer with (text | text) | _ <;> cases residual_done.1 hresidual

/-- A store that has just returned has remembered its secret. -/
theorem cached_of_stored {v : World κ} {last : Accessed κ} {account secret : String}
    (hresidual : Residual ((ops last.task).program parseUuid) (v.program last.task))
    (hstep : Step Answered v last w) (his : Is parseUuid ops last.task (.store secret) account)
    (hdone : w.program last.task = .done (.stored (.ok ()))) :
    w.state.cache account = some secret := by
  obtain ⟨k, c, a⟩ := last
  obtain ⟨next, hprogram, hanswer, hnext⟩ := hstep.task
  rw [program_store his.2 his.1] at hresidual
  rw [hdone] at hnext
  rw [hprogram, storeAccount, residual_call] at hresidual
  rcases hresidual with hfirst | ⟨answer, hresidual⟩
  · cases hfirst
    cases a <;> cases hnext
  cases answer with
  | error e => cases residual_done.1 hresidual
  | ok _ =>
      rw [residual_call] at hresidual
      rcases hresidual with hsecond | ⟨-, hresidual⟩
      · cases hsecond
        rw [show w.state = v.state.setCache account (some secret) from hanswer]
        exact cache_setCache ..
      · cases residual_done.1 hresidual

/-! ### A fetch after a delete -/

/-- The account is gone, and the fetch `f` has found nothing so far. -/
structure Gone (parseUuid : String → Option Uuid) (ops : κ → Op) (account : String) (f : κ)
    (hit : String → Outcome) (miss : KeyringError → Outcome) (w : World κ) : Prop where
  makes : ∀ k, Makes ((ops k).Accesses parseUuid) (w.program k)
  gone : w.state.holds account = (none, none)
  fetch : w.program f = readAccount account hit miss ∨ w.program f = readStore account hit miss ∨
    ∃ e, w.program f = .done (miss e)

theorem Gone.step {account : String} {f : κ} {hit : String → Outcome}
    {miss : KeyringError → Outcome} {e : Accessed κ} (hw : Gone parseUuid ops account f hit miss w)
    (hfresh : Fresh ops w e)
    (hstore : ∀ secret, ¬ Is parseUuid ops e.task (.store secret) account)
    (hstep : Step Answered w e w') : Gone parseUuid ops account f hit miss w' := by
  obtain ⟨⟨name, hname, haccesses⟩, hmakes⟩ := hstep.makes hw.makes
  obtain ⟨k, c, a⟩ := e
  obtain ⟨next, hprogram, hanswer, hnext⟩ := hstep.task
  refine ⟨hmakes, ?_, ?_⟩
  · by_cases hne : account = name
    · subst hne
      exact gone_of_answered hw.gone hanswer (fun secret hrole => hstore secret ⟨hrole, hname⟩)
        haccesses hfresh
    · rw [holds_of_ne hanswer (account_of_accesses haccesses ▸ hne)]
      exact hw.gone
  · by_cases hk : f = k
    · subst hk
      rcases hw.fetch with hfetch | hfetch | ⟨err, hfetch⟩
      · rw [hfetch] at hprogram
        cases hprogram
        have hnone : a = none := hanswer.1.trans (congrArg Prod.fst hw.gone)
        subst hnone
        exact .inr (.inl hnext)
      · rw [hfetch] at hprogram
        cases hprogram
        cases a with
        | error err => exact .inr (.inr ⟨err, hnext⟩)
        | ok secret =>
            have hsome : w.state.os account = some secret := hanswer.1
            have hnone : w.state.os account = none := congrArg Prod.snd hw.gone
            rw [hnone] at hsome
            cases hsome
      · rw [hfetch] at hprogram
        cases hprogram
    · rw [hstep.program_of_ne hk]
      exact hw.fetch

/-! ### A fetch after a store -/

/-- The secret is cached, and the fetch `f` has not begun or has found it. -/
structure Cached (parseUuid : String → Option Uuid) (ops : κ → Op) (account secret : String)
    (f : κ) (hit : String → Outcome) (miss : KeyringError → Outcome) (w : World κ) : Prop where
  makes : ∀ k, Makes ((ops k).Accesses parseUuid) (w.program k)
  cached : w.state.cache account = some secret
  fetch : w.program f = readAccount account hit miss ∨ w.program f = .done (hit secret)

theorem Cached.step {account secret : String} {f : κ} {hit : String → Outcome}
    {miss : KeyringError → Outcome} {e : Accessed κ}
    (hw : Cached parseUuid ops account secret f hit miss w) (hfresh : Fresh ops w e)
    (hfetches : (ops e.task).account parseUuid = some account → (ops e.task).role = .fetch)
    (hstep : Step Answered w e w') : Cached parseUuid ops account secret f hit miss w' := by
  obtain ⟨⟨name, hname, haccesses⟩, hmakes⟩ := hstep.makes hw.makes
  obtain ⟨k, c, a⟩ := e
  obtain ⟨next, hprogram, hanswer, hnext⟩ := hstep.task
  refine ⟨hmakes, ?_, ?_⟩
  · by_cases hne : account = name
    · subst hne
      have hrole := hfetches hname
      rw [Fresh, hrole] at hfresh
      rw [hrole] at haccesses
      exact cached_of_answered hw.cached hanswer haccesses hfresh
    · have hholds := holds_of_ne hanswer (account_of_accesses haccesses ▸ hne)
      exact (congrArg Prod.fst hholds).trans hw.cached
  · by_cases hk : f = k
    · subst hk
      rcases hw.fetch with hfetch | hfetch
      · rw [hfetch] at hprogram
        cases hprogram
        have hsome : a = some secret := hanswer.1.trans hw.cached
        subst hsome
        exact .inr hnext
      · rw [hfetch] at hprogram
        cases hprogram
    · rw [hstep.program_of_ne hk]
      exact hw.fetch

/-! ### Other accounts -/

/-- Accesses to an account see and touch this account alone. -/
theorem apart_account (account : String) : Apart Answered
    (fun s s' => s.holds account = s'.holds account) (fun c => c.account = account) where
  untouched _ _ c a _ hnear hne h := (holds_of_ne h fun heq => hne heq.symm).trans hnear
  alike s₁ s₂ c a s₁' hnear hmine h := by
    have hcache : s₁.cache account = s₂.cache account := congrArg Prod.fst hnear
    have hos : s₁.os account = s₂.os account := congrArg Prod.snd hnear
    subst hmine
    cases c with
    | cacheGet account => exact ⟨s₂, ⟨h.1.trans hcache, rfl⟩, h.2 ▸ hnear⟩
    | cacheInsert account secret =>
        refine ⟨s₂.setCache account (some secret), rfl, ?_⟩
        rw [show s₁' = _ from h]
        exact ((holds_setCache ..).trans (congrArg _ hos)).trans (holds_setCache ..).symm
    | cacheRemove account =>
        refine ⟨s₂.setCache account none, rfl, ?_⟩
        rw [show s₁' = _ from h]
        exact ((holds_setCache ..).trans (congrArg _ hos)).trans (holds_setCache ..).symm
    | setPassword account secret =>
        cases a with
        | error e => exact ⟨s₂, rfl, (show s₁' = s₁ from h) ▸ hnear⟩
        | ok _ =>
            refine ⟨s₂.setOs account (some secret), rfl, ?_⟩
            rw [show s₁' = _ from h]
            exact ((holds_setOs ..).trans (congrArg (·, _) hcache)).trans (holds_setOs ..).symm
    | getPassword account =>
        rcases a with (text | text) | _
        · exact ⟨s₂, ⟨hos.symm.trans h.1, rfl⟩, h.2 ▸ hnear⟩
        · exact ⟨s₂, rfl, (show s₁' = s₁ from h) ▸ hnear⟩
        · exact ⟨s₂, ⟨hos.symm.trans h.1, rfl⟩, h.2 ▸ hnear⟩
    | deleteCredential account =>
        rcases a with (text | text) | _
        · exact ⟨s₂, ⟨hos.symm.trans h.1, rfl⟩, h.2 ▸ hnear⟩
        · exact ⟨s₂, rfl, (show s₁' = s₁ from h) ▸ hnear⟩
        · refine ⟨s₂.setOs account none, rfl, ?_⟩
          rw [show s₁' = _ from h]
          exact ((holds_setOs ..).trans (congrArg (·, _) hcache)).trans (holds_setOs ..).symm

/-- The calls about an owner do what they would do if there were no others. -/
theorem restrict_owner {w₀ : World κ} (owner : Owner)
    (hbegin : ∀ k, w₀.program k = (ops k).program parseUuid)
    (h : Trace Answered (fun _ _ => True) w₀ es w) :
    ∃ w', Trace Answered (fun _ _ => True) w₀
        (es.filter fun e => (ops e.task).owner parseUuid = some owner) w' ∧
      w.state.holds owner.account = w'.state.holds owner.account ∧
      ∀ k, (ops k).owner parseUuid = some owner → w'.program k = w.program k := by
  refine h.restrict (fun k => (ops k).owner parseUuid = some owner)
    (apart_account owner.account) (fun k => ?_) rfl fun _ _ => rfl
  rw [hbegin]
  refine (makes_program parseUuid (ops k)).mono fun c hc => ?_
  obtain ⟨name, hname, haccesses⟩ := hc
  rw [← Op.account_eq_some_iff, account_of_accesses haccesses, hname, Option.some_inj]

/-! ### What callers may rely on -/

theorem handsOut_of_gone {before after : List (Accessed κ)} {last : Accessed κ} {account : String}
    {f : κ} {r : Outcome} (hhistory : History parseUuid ops (Fresh ops) (before ++ [last]) w)
    (his : Is parseUuid ops last.task .delete account)
    (hdone : w.program last.task = .done (.deleted (.ok ())))
    (hafter : Trace Answered (Fresh ops) w after w')
    (hstores : ∀ e ∈ after, ∀ secret, ¬ Is parseUuid ops e.task (.store secret) account)
    (hfetch : Is parseUuid ops f .fetch account) (hnew : ∀ e ∈ before ++ [last], f ≠ e.task)
    (hr : w'.program f = .done r) : r.handsOut = none := by
  obtain ⟨v, hbefore, hok, hstep⟩ := hhistory.last
  obtain ⟨hit, miss, hshows, hprogram⟩ := program_fetch hfetch.2 hfetch.1
  have hgone : Gone parseUuid ops account f hit miss w :=
    ⟨hhistory.makes, gone_of_deleted (hbefore.residual _) hok hstep his hdone,
      .inl ((hhistory.program_of_forall_ne hnew).trans hprogram)⟩
  have hgone' : Gone parseUuid ops account f hit miss w' :=
    hafter.invariant (P := fun e => ∀ secret, ¬ Is parseUuid ops e.task (.store secret) account)
      (fun _ _ _ hw hok hstore hstep => hw.step hok hstore hstep) hstores hgone
  rcases hgone'.fetch with h | h | ⟨e, h⟩
  · rw [hr] at h
    cases h
  · rw [hr] at h
    cases h
  · rw [hr] at h
    cases h
    exact hshows.miss e

theorem handsOut_of_cached {before after : List (Accessed κ)} {last : Accessed κ}
    {account secret : String} {f : κ} {r : Outcome}
    (hhistory : History parseUuid ops (Fresh ops) (before ++ [last]) w)
    (his : Is parseUuid ops last.task (.store secret) account)
    (hdone : w.program last.task = .done (.stored (.ok ())))
    (hafter : Trace Answered (Fresh ops) w after w')
    (hfetches : ∀ e ∈ after, (ops e.task).account parseUuid = some account →
      (ops e.task).role = .fetch)
    (hfetch : Is parseUuid ops f .fetch account) (hnew : ∀ e ∈ before ++ [last], f ≠ e.task)
    (hr : w'.program f = .done r) : r.handsOut = some secret := by
  obtain ⟨v, hbefore, -, hstep⟩ := hhistory.last
  obtain ⟨hit, miss, hshows, hprogram⟩ := program_fetch hfetch.2 hfetch.1
  have hcached : Cached parseUuid ops account secret f hit miss w :=
    ⟨hhistory.makes, cached_of_stored (hbefore.residual _) hstep his hdone,
      .inl ((hhistory.program_of_forall_ne hnew).trans hprogram)⟩
  have hcached' : Cached parseUuid ops account secret f hit miss w' :=
    hafter.invariant
      (P := fun e => (ops e.task).account parseUuid = some account → (ops e.task).role = .fetch)
      (fun _ _ _ hw hok hfetches hstep => hw.step hok hfetches hstep) hfetches hcached
  rcases hcached'.fetch with h | h
  · rw [hr] at h
    cases h
  · rw [hr] at h
    cases h
    exact hshows.hit secret

/-- In every run of fresh accesses callers find what was stored, and nothing where it was
deleted; other accounts never matter. -/
theorem keychain_keeps (parseUuid : String → Option Uuid) (ops : κ → Op) :
    Keeps parseUuid ops (Fresh ops) where
  deleted _ _ _ _ _ _ _ _ hhistory his hdone hafter hstores hfetch hnew hr :=
    handsOut_of_gone hhistory his hdone hafter hstores hfetch hnew hr
  stored _ _ _ _ _ _ _ _ _ hhistory his hdone hafter hfetches hfetch hnew hr :=
    handsOut_of_cached hhistory his hdone hafter hfetches hfetch hnew hr
  apart _ _ _ owner hbegin h := restrict_owner owner hbegin h

end Runs

/-! ### A deleted secret comes back -/

section ComesBack

/-- Two fetches of a connection's secret, and a delete. -/
def threeCalls : Fin 3 → Op
  | 0 => .fetchSecret (.ofByte 1)
  | 1 => .deleteSecret (.ofByte 1)
  | 2 => .fetchSecret (.ofByte 1)

/-- The connection has a password at rest, and the calls have not begun. -/
def threeBegun : World (Fin 3) where
  state := { cache := fun _ => none, os := fun _ => some "old" }
  program k := (threeCalls k).program fun _ => none

/-- The account of the three calls. -/
def threeAccount : String := (Uuid.ofByte 1).toText

/-- The first fetch reads the password, and the delete runs to its end. -/
def threeBefore : List (Accessed (Fin 3)) :=
  [⟨0, .cacheGet threeAccount, none⟩, ⟨0, .getPassword threeAccount, .ok "old"⟩,
    ⟨1, .cacheRemove threeAccount, ()⟩]

/-- The first fetch remembers what it read, and the second fetch hands it out. -/
def threeAfter : List (Accessed (Fin 3)) :=
  [⟨0, .cacheInsert threeAccount "old", ()⟩, ⟨2, .cacheGet threeAccount, some "old"⟩]

theorem deleted_secret_comes_back : ¬ Keeps (fun _ => none) threeCalls (fun _ _ => True) := by
  intro hkeeps
  obtain ⟨w, w', hbefore, hafter, hdeleted, hfetched⟩ : ∃ w w',
      Trace Answered (fun _ _ => True) threeBegun
        (threeBefore ++ [⟨1, .deleteCredential threeAccount, .ok ()⟩]) w ∧
      Trace Answered (fun _ _ => True) w threeAfter w' ∧
      w.program 1 = .done (.deleted (.ok ())) ∧ w'.program 2 = .done (.secret (.ok "old")) :=
    ⟨_, _, .cons trivial (.answer rfl ⟨rfl, rfl⟩) (.cons trivial (.answer rfl ⟨rfl, rfl⟩)
        (.cons trivial (.answer rfl rfl) (.cons trivial (.answer rfl rfl) (.nil _)))),
      .cons trivial (.answer rfl rfl)
        (.cons trivial (.answer rfl ⟨(cache_setCache ..).symm, rfl⟩) (.nil _)), rfl, rfl⟩
  have hnone := hkeeps.deleted threeBefore ⟨1, .deleteCredential threeAccount, .ok ()⟩ w threeAfter
    w' threeAccount 2 _ ⟨threeBegun, fun _ => rfl, hbefore⟩ ⟨rfl, rfl⟩ hdeleted hafter
    (fun e he secret his => ?_) ⟨rfl, rfl⟩ (fun e he => ?_) hfetched
  · cases hnone
  · simp only [threeAfter, List.mem_cons, List.not_mem_nil, or_false] at he
    rcases he with rfl | rfl
    · cases his.1
    · cases his.1
  · simp only [threeBefore, List.cons_append, List.nil_append, List.mem_cons, List.not_mem_nil,
      or_false] at he
    rcases he with rfl | rfl | rfl | rfl <;> decide

end ComesBack

end Keychain
end Connection
end AgentDb
