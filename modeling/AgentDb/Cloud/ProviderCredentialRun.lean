import AgentDb.Cloud.ProviderCredential
import AgentDb.Lib.Commits

/-!
# Which credential stays

The write of a refreshed credential is guarded by the status of the row only. So a refresh that
straddles a reconnect of the account, or a refresh that was issued later, puts an older credential
over a newer one; so does a reconnect that straddles one whose grant is later. `Orderly` excludes
these orders, and without them the stored credential is the newest that ever was stored.
-/

namespace AgentDb
namespace Cloud

open Commits

/-! ### The property -/

/-- The credential of an active integration is the newest of all that were stored, and not one of a
grant that was disconnected; a disconnected integration has none. -/
structure Newest (c : ProviderState) : Prop where
  active : ∀ row, c.row = some row → row.status = "active" → ∃ t,
    row.encryptedCredential = .token t ∧ IsGreatest {s | s ∈ c.stored} t.stamp ∧
      t.grant ∉ c.disconnected
  revoked : ∀ row, c.row = some row → row.status ≠ "active" →
    ∃ t, row.encryptedCredential = .scrubbed t

/-! ### The condition -/

/-- No connect of the account was committed since the request read its integration, and no refresh
that was issued later has been written. -/
def RefreshInOrder (c : ProviderState) (integration : ActiveProviderIntegration)
    (refreshed : PlanetScaleToken) : Prop :=
  integration.connects = c.connects.length ∧ ∀ s ∈ c.refreshes, (ofLex s).2 < refreshed.issue

/-- No connect that obtained its grant later was committed. -/
def ConnectInOrder (c : ProviderState) (token : PlanetScaleToken) : Prop :=
  ∀ s ∈ c.connects, (ofLex s).1 < token.grant

/-- What a request is about to write back. -/
def Request.refreshed? : Request → Option (ActiveProviderIntegration × PlanetScaleToken)
  | .writing integration refreshed => some (integration, refreshed)
  | _ => none

/-- What a request is about to reconnect, with the row it has read and its claim. -/
def Request.reconnect? : Request → Option (PlanetScaleToken × ProviderIntegration × Option ℕ)
  | .reconnecting token existing _ claim => some (token, existing, claim)
  | _ => none

/-- The event is not a write that comes too late. -/
def Orderly (event : ProviderEvent) (c : ProviderState) : Prop :=
  match event with
  | .writeBack request _ fault => ∀ w ∈ (c.requests.get request).bind Request.refreshed?,
      fault ≠ some false → c.row.any (fun row => row.status = "active") →
        RefreshInOrder c w.1 w.2
  | .reconnect request fault _ => ∀ w ∈ (c.requests.get request).bind Request.reconnect?,
      fault ≠ some false → c.row.any (fun row => row.updatePredicates w.2.1 w.2.2) →
        ConnectInOrder c w.1
  | _ => True

instance (c : ProviderState) (integration : ActiveProviderIntegration)
    (refreshed : PlanetScaleToken) : Decidable (RefreshInOrder c integration refreshed) :=
  inferInstanceAs (Decidable (_ ∧ _))

instance (c : ProviderState) (token : PlanetScaleToken) : Decidable (ConnectInOrder c token) :=
  inferInstanceAs (Decidable (∀ s ∈ c.connects, _))

instance (event : ProviderEvent) (c : ProviderState) : Decidable (Orderly event c) :=
  match event with
  | .writeBack request _ _ =>
      inferInstanceAs (Decidable (∀ w ∈ (c.requests.get request).bind Request.refreshed?, _))
  | .reconnect request _ _ =>
      inferInstanceAs (Decidable (∀ w ∈ (c.requests.get request).bind Request.reconnect?, _))
  | .providerIntegration _ | .providerAccessToken _ _ | .refreshPlanetScaleToken _ _ _
  | .exchangePlanetScaleCode _ _ _ | .findExisting _ _ | .claimReconnect _ _ | .insert _ _
  | .claimDisconnect _ | .integrationForRevocation _ _ | .disconnect _ _ _ _ | .giveUp _ _
  | .crash _ => inferInstanceAs (Decidable True)

/-! ### The invariant -/

/-- A snapshot is of the grant that the account has, unless it was connected since. -/
def SnapshotOk (c : ProviderState) (integration : ActiveProviderIntegration) : Prop :=
  integration.connects ≤ c.connects.length ∧ ∀ t, integration.encryptedCredential = .token t →
    integration.connects = c.connects.length → ∃ s, c.connects.head? = some s ∧
      t.grant = (ofLex s).1

/-- A token that was issued, and after the last connect if its integration was read after it. -/
def FreshOk (c : ProviderState) (integration : ActiveProviderIntegration)
    (refreshed : PlanetScaleToken) : Prop :=
  refreshed.issue ≤ c.issued ∧ (integration.connects = c.connects.length →
    ∃ s, c.connects.head? = some s ∧ refreshed.grant = (ofLex s).1 ∧
      (ofLex s).2 < refreshed.issue)

/-- What a request rests on. -/
def RequestOk (c : ProviderState) : Request → Prop
  | .holding integration => SnapshotOk c integration
  | .refreshing integration credential =>
      SnapshotOk c integration ∧ integration.encryptedCredential = .token credential
  | .writing integration refreshed => SnapshotOk c integration ∧ FreshOk c integration refreshed
  | .exchanged token | .inserting token _ | .claiming token _ _ | .reconnecting token _ _ _ =>
      token.issue ≤ c.issued
  | .disconnecting _ _ => True

/-- What holds of the row, with the token of the last connect. -/
structure RowOk (c : ProviderState) (row : ProviderIntegration) (last : Stamp) : Prop where
  issued : (ofLex last).2 ≤ c.issued
  active : row.status = "active" → ∃ t, row.encryptedCredential = .token t ∧
    t.grant = (ofLex last).1 ∧ (t.issue = (ofLex last).2 ∨ t.stamp ∈ c.refreshes) ∧
      IsGreatest {s | s ∈ c.stored} t.stamp ∧ ∀ g ∈ c.disconnected, g < (ofLex last).1
  revoked : row.status ≠ "active" → (∃ t, row.encryptedCredential = .scrubbed t) ∧
    (∀ s ∈ c.stored, (ofLex s).1 ≤ (ofLex last).1) ∧ ∀ g ∈ c.disconnected, g ≤ (ofLex last).1

/-- What holds in every state. -/
structure CredentialOk (c : ProviderState) : Prop where
  row : match c.row with
    | none => c.connects = [] ∧ c.stored = [] ∧ c.disconnected = []
    | some row => ∃ last, c.connects.head? = some last ∧ RowOk c row last
  requests : ∀ k r, c.requests.get k = some r → RequestOk c r

/-! ### Stamps -/

section

variable {s : Stamp} {t t' : PlanetScaleToken}

theorem stamp_le_iff : s ≤ t.stamp ↔
    (ofLex s).1 < t.grant ∨ (ofLex s).1 = t.grant ∧ (ofLex s).2 ≤ t.issue :=
  Prod.Lex.le_iff

theorem grant_le_of_stamp_le (h : s ≤ t.stamp) : (ofLex s).1 ≤ t.grant := by
  obtain hlt | ⟨heq, -⟩ := stamp_le_iff.1 h
  · exact hlt.le
  · exact heq.le

theorem isGreatest_cons {l : List Stamp} (h : ∀ s ∈ l, s ≤ t.stamp) :
    IsGreatest {s | s ∈ t.stamp :: l} t.stamp :=
  ⟨List.mem_cons_self, fun s hs => by
    obtain rfl | hs := List.mem_cons.1 hs
    · exact le_rfl
    · exact h s hs⟩

end

/-! ### What keeps the invariant -/

section

variable {c c' : ProviderState} {row row' : ProviderIntegration} {k : ℕ} {r : Request}

/-- Requests and times change, and nothing that the credential depends on. -/
structure Agrees (c c' : ProviderState) : Prop where
  row : (c'.row.map fun row => (row.status, row.encryptedCredential)) =
    c.row.map fun row => (row.status, row.encryptedCredential)
  issued : c.issued ≤ c'.issued
  stored : c'.stored = c.stored
  refreshes : c'.refreshes = c.refreshes
  connects : c'.connects = c.connects
  disconnected : c'.disconnected = c.disconnected

theorem RequestOk.later (h : RequestOk c r) (hissued : c.issued ≤ c'.issued)
    (hconnects : c'.connects = c.connects) : RequestOk c' r := by
  have hsnapshot : ∀ i, SnapshotOk c i → SnapshotOk c' i := fun i hi => by
    unfold SnapshotOk
    rw [hconnects]
    exact hi
  cases r with
  | holding i => exact hsnapshot i h
  | refreshing i credential => exact ⟨hsnapshot i h.1, h.2⟩
  | writing i refreshed =>
      refine ⟨hsnapshot i h.1, h.2.1.trans hissued, ?_⟩
      rw [hconnects]
      exact h.2.2
  | exchanged token | inserting token _ | claiming token _ _ | reconnecting token _ _ _ =>
      exact le_trans h hissued
  | disconnecting _ _ => trivial

/-- After another connect every snapshot is of a grant that was replaced. -/
theorem RequestOk.connected (h : RequestOk c r) {s : Stamp} (hissued : c.issued ≤ c'.issued)
    (hconnects : c'.connects = s :: c.connects) : RequestOk c' r := by
  have hlength : c'.connects.length = c.connects.length + 1 := by
    rw [hconnects, List.length_cons]
  have hsnapshot : ∀ i, SnapshotOk c i →
      i.connects ≤ c'.connects.length ∧ i.connects ≠ c'.connects.length := fun i hi => by
    have hle := hi.1
    omega
  cases r with
  | holding i => exact ⟨(hsnapshot i h).1, fun _ _ heq => absurd heq (hsnapshot i h).2⟩
  | refreshing i credential =>
      exact ⟨⟨(hsnapshot i h.1).1, fun _ _ heq => absurd heq (hsnapshot i h.1).2⟩, h.2⟩
  | writing i refreshed =>
      exact ⟨⟨(hsnapshot i h.1).1, fun _ _ heq => absurd heq (hsnapshot i h.1).2⟩,
        h.2.1.trans hissued, fun heq => absurd heq (hsnapshot i h.1).2⟩
  | exchanged token | inserting token _ | claiming token _ _ | reconnecting token _ _ _ =>
      exact le_trans h hissued
  | disconnecting _ _ => trivial

theorem RowOk.agrees {last : Stamp} (h : RowOk c row last) (hagrees : Agrees c c')
    (hstatus : row'.status = row.status)
    (hcredential : row'.encryptedCredential = row.encryptedCredential) : RowOk c' row' last where
  issued := h.issued.trans hagrees.issued
  active hactive := by
    rw [hcredential, hagrees.stored, hagrees.refreshes, hagrees.disconnected]
    exact h.active (hstatus.symm.trans hactive)
  revoked hrevoked := by
    rw [hcredential, hagrees.stored, hagrees.disconnected]
    exact h.revoked (hstatus ▸ hrevoked)

theorem CredentialOk.agrees (hok : CredentialOk c) (h : Agrees c c')
    (hrequests : ∀ k r, c'.requests.get k = some r → RequestOk c r ∨ RequestOk c' r) :
    CredentialOk c' where
  row := by
    have hold := hok.row
    have hrow := h.row
    cases hc : c.row with
    | none =>
        rw [hc] at hold hrow
        rw [Option.map_eq_none_iff.1 hrow]
        dsimp only at hold ⊢
        rw [h.connects, h.stored, h.disconnected]
        exact hold
    | some row =>
        rw [hc] at hold hrow
        obtain ⟨row', hc', hsame⟩ := Option.map_eq_some_iff.1 hrow
        rw [hc']
        dsimp only at hold ⊢
        rw [h.connects]
        obtain ⟨last, hlast, hrowOk⟩ := hold
        exact ⟨last, hlast, hrowOk.agrees h (Prod.mk.inj hsame).1 (Prod.mk.inj hsame).2⟩
  requests k r hr := by
    obtain hold | hnew := hrequests k r hr
    · exact hold.later h.issued h.connects
    · exact hnew

/-! ### What becomes of a request -/

theorem CredentialOk.goOn (hok : CredentialOk c) (hr : RequestOk c r) :
    CredentialOk (c.goOn k r) := by
  refine hok.agrees ⟨rfl, le_rfl, rfl, rfl, rfl, rfl⟩ fun k' r' hr' => .inl ?_
  rw [ProviderState.goOn, Table.get_put] at hr'
  split at hr'
  · exact Option.some.inj hr' ▸ hr
  · exact hok.requests k' r' hr'

theorem CredentialOk.begin_ (hok : CredentialOk c) (hr : RequestOk c r) :
    CredentialOk (c.begin_ r) := by
  refine hok.agrees ⟨rfl, le_rfl, rfl, rfl, rfl, rfl⟩ fun k' r' hr' => .inl ?_
  rw [ProviderState.begin_, Table.get_put] at hr'
  split at hr'
  · exact Option.some.inj hr' ▸ hr
  · exact hok.requests k' r' hr'

theorem CredentialOk.finish (hok : CredentialOk c) : CredentialOk (c.finish k) := by
  refine hok.agrees ⟨rfl, le_rfl, rfl, rfl, rfl, rfl⟩ fun k' r' hr' => .inl ?_
  rw [ProviderState.finish, Table.get_filterRows_ne] at hr'
  split at hr'
  · cases hr'
  · exact hok.requests k' r' hr'

/-- More was issued. -/
theorem CredentialOk.issue (hok : CredentialOk c) {grants issued : ℕ} (h : c.issued ≤ issued) :
    CredentialOk { c with grants, issued } :=
  hok.agrees ⟨rfl, h, rfl, rfl, rfl, rfl⟩ fun k r hr => .inl (hok.requests k r hr)

theorem releaseRevocationGateClaim_same (row : ProviderIntegration) (claimId : ℕ) :
    (row.releaseRevocationGateClaim claimId).status = row.status ∧
      (row.releaseRevocationGateClaim claimId).encryptedCredential = row.encryptedCredential := by
  unfold ProviderIntegration.releaseRevocationGateClaim
  split <;> exact ⟨rfl, rfl⟩

theorem CredentialOk.release (hok : CredentialOk c) (claim : Option ℕ) (released : Bool) :
    CredentialOk (c.release k claim released) := by
  refine CredentialOk.finish (hok.agrees ⟨?_, le_rfl, rfl, rfl, rfl, rfl⟩ fun k r hr =>
    .inl (hok.requests k r hr))
  split
  · rw [Option.map_map]
    congr 1
    funext row
    exact Prod.ext (releaseRevocationGateClaim_same row _).1
      (releaseRevocationGateClaim_same row _).2
  · rfl

theorem CredentialOk.claim (hok : CredentialOk c) {now : Millis}
    (h : c.claimRevocationGate now = some c') : CredentialOk c' ∧ c'.connects = c.connects ∧
      c'.issued = c.issued := by
  obtain ⟨row', hbind, rfl⟩ := Option.map_eq_some_iff.1 h
  obtain ⟨row, hrow, hclaim⟩ := Option.bind_eq_some_iff.1 hbind
  refine ⟨hok.agrees ⟨?_, le_rfl, rfl, rfl, rfl, rfl⟩ fun k r hr =>
    .inl (hok.requests k r hr), rfl, rfl⟩
  unfold ProviderIntegration.claimRevocationGate at hclaim
  split at hclaim
  · rw [hrow, ← Option.some.inj hclaim]
    rfl
  · cases hclaim

end

/-! ### The writes -/

section

variable {c c' : ProviderState} {row row' : ProviderIntegration} {token : PlanetScaleToken}
  {k : ℕ} {r : Request}

theorem CredentialOk.writeBack (hok : CredentialOk c) {integration : ActiveProviderIntegration}
    (hfresh : FreshOk c integration token)
    (horder : c.row.any (fun row => row.status = "active") → RefreshInOrder c integration token)
    (now : Millis) : CredentialOk (c.writeBack token now) := by
  unfold ProviderState.writeBack
  cases hbind : c.row.bind (·.writeBack token now) with
  | none => exact hok
  | some row' =>
      obtain ⟨row, hrow, hwrite⟩ := Option.bind_eq_some_iff.1 hbind
      unfold ProviderIntegration.writeBack at hwrite
      split at hwrite
      case isFalse => cases hwrite
      rename_i hactive
      obtain ⟨hconnects, hrefreshes⟩ := horder
        (hrow ▸ decide_eq_true hactive)
      obtain ⟨last, hlast, hgrant, hissue⟩ := hfresh.2 hconnects
      have hold := hok.row
      rw [hrow] at hold
      obtain ⟨last', hlast', hrowOk⟩ := hold
      obtain rfl := Option.some.inj (hlast.symm.trans hlast')
      obtain ⟨t, -, hgrant', hissue', hgreatest, hdisconnected⟩ := hrowOk.active hactive
      -- The token before was issued with the last connect, or by a refresh that was written.
      have hbefore : t.issue < token.issue := by
        obtain heq | hmem := hissue'
        · exact heq ▸ hissue
        · exact hrefreshes t.stamp hmem
      have hle : t.stamp ≤ token.stamp :=
        stamp_le_iff.2 (.inr ⟨hgrant'.trans hgrant.symm, hbefore.le⟩)
      refine ⟨⟨last, hlast, hrowOk.issued, fun _ => ⟨token, ?_, hgrant, .inr List.mem_cons_self,
        isGreatest_cons fun s hs => (hgreatest.2 hs).trans hle, hdisconnected⟩, fun hrevoked => ?_⟩,
        fun k r hr => (hok.requests k r hr).later le_rfl rfl⟩
      · rw [← Option.some.inj hwrite]
      · rw [← Option.some.inj hwrite] at hrevoked
        exact absurd hactive hrevoked

/-- The account is connected with a grant that no connect before it had. -/
theorem CredentialOk.connect (hok : CredentialOk c) (htoken : token.issue ≤ c.issued)
    (horder : ConnectInOrder c token) (hactive : row.status = "active")
    (hcredential : row.encryptedCredential = .token token) :
    CredentialOk { c with
      row := some row
      stored := token.stamp :: c.stored
      connects := token.stamp :: c.connects } := by
  have hnewest : (∀ s ∈ c.stored, s ≤ token.stamp) ∧ ∀ g ∈ c.disconnected, g < token.grant := by
    have hold := hok.row
    cases hrow : c.row with
    | none =>
        rw [hrow] at hold
        obtain ⟨-, hstored, hdisconnected⟩ := hold
        simp [hstored, hdisconnected]
    | some old =>
        rw [hrow] at hold
        obtain ⟨last, hlast, hrowOk⟩ := hold
        have hlt : (ofLex last).1 < token.grant := horder last (List.mem_of_mem_head? hlast)
        by_cases hactive : old.status = "active"
        · obtain ⟨t, -, hgrant, -, hgreatest, hdisconnected⟩ := hrowOk.active hactive
          refine ⟨fun s hs => stamp_le_iff.2 (.inl ?_), fun g hg => (hdisconnected g hg).trans hlt⟩
          have hle := grant_le_of_stamp_le (hgreatest.2 hs)
          omega
        · obtain ⟨-, hstored, hdisconnected⟩ := hrowOk.revoked hactive
          exact ⟨fun s hs => stamp_le_iff.2 (.inl ((hstored s hs).trans_lt hlt)),
            fun g hg => (hdisconnected g hg).trans_lt hlt⟩
  exact ⟨⟨token.stamp, rfl, htoken, fun _ => ⟨token, hcredential, rfl, .inl rfl,
    isGreatest_cons hnewest.1, hnewest.2⟩, fun hrevoked => absurd hactive hrevoked⟩,
    fun k r hr => (hok.requests k r hr).connected le_rfl rfl⟩

theorem CredentialOk.clear (hok : CredentialOk c) (now : Millis) (claimId : ℕ) :
    CredentialOk { c with row := (c.row.bind (·.clearClaim now claimId)).or c.row } := by
  refine hok.agrees ⟨?_, le_rfl, rfl, rfl, rfl, rfl⟩ fun k r hr => .inl (hok.requests k r hr)
  cases c.row with
  | none => rfl
  | some row =>
      rw [Option.bind_some, ProviderIntegration.clearClaim]
      split <;> rfl

theorem CredentialOk.reconnect (hok : CredentialOk c) {existing : ProviderIntegration}
    {now : Millis} {claim : Option ℕ} (htoken : token.issue ≤ c.issued)
    (horder : c.row.any (fun row => row.updatePredicates existing claim) →
      ConnectInOrder c token) : CredentialOk (c.reconnect token existing now claim).1 := by
  have hupdated : CredentialOk
      (match c.row.bind (·.integrationUpdate existing claim token now) with
        | none => c
        | some row =>
            { c with
              row := some row
              stored := token.stamp :: c.stored
              connects := token.stamp :: c.connects }) := by
    cases hbind : c.row.bind (·.integrationUpdate existing claim token now) with
    | none => exact hok
    | some row' =>
        obtain ⟨row, hrow, hupdate⟩ := Option.bind_eq_some_iff.1 hbind
        unfold ProviderIntegration.integrationUpdate at hupdate
        split at hupdate
        case isFalse => cases hupdate
        rename_i hpredicates
        refine hok.connect htoken (horder (hrow ▸ hpredicates)) ?_ ?_
        · rw [← Option.some.inj hupdate]
          cases claim <;> rfl
        · rw [← Option.some.inj hupdate]
          cases claim <;> rfl
  unfold ProviderState.reconnect
  cases claim with
  | none => exact hupdated
  | some claimId => exact hupdated.clear now claimId

theorem CredentialOk.insert (hok : CredentialOk c) (htoken : token.issue ≤ c.issued)
    (now : Millis) : CredentialOk (c.insert token now) := by
  unfold ProviderState.insert
  split
  · exact hok
  · rename_i hrow
    have hold := hok.row
    rw [hrow] at hold
    refine hok.connect htoken (fun s hs => ?_) rfl rfl
    rw [hold.1] at hs
    cases hs

theorem CredentialOk.disconnect (hok : CredentialOk c) (claimId : ℕ) (now : Millis) :
    CredentialOk (c.disconnect claimId now).1 := by
  unfold ProviderState.disconnect
  split
  case h_2 => exact hok
  rename_i row row' hrow hbind
  rw [hrow, Option.bind_some] at hbind
  unfold ProviderIntegration.disconnect at hbind
  split at hbind
  case isFalse => cases hbind
  rename_i hguard
  cases hbind
  have hold := hok.row
  rw [hrow] at hold
  obtain ⟨last, hlast, hrowOk⟩ := hold
  obtain ⟨t, hcredential, hgrant, -, hgreatest, hdisconnected⟩ := hrowOk.active hguard.1
  refine ⟨⟨last, hlast, hrowOk.issued, fun hactive => ?_, fun _ => ⟨⟨now, rfl⟩, fun s hs => ?_,
    fun g hg => ?_⟩⟩, fun k r hr => (hok.requests k r hr).later le_rfl rfl⟩
  · exact absurd hactive (by simp)
  · exact (grant_le_of_stamp_le (hgreatest.2 hs)).trans hgrant.le
  · rw [hcredential] at hg
    obtain rfl | hg := List.mem_cons.1 hg
    · exact hgrant.le
    · exact (hdisconnected g hg).le

end

/-! ### Every event -/

section

variable {c c' : ProviderState} {request : ℕ}

theorem request_turn_eq_ok {f : Request → Except Unit ProviderState} :
    c.turn request f = .ok c' ↔ ∃ r, c.requests.get request = some r ∧ f r = .ok c' := by
  unfold ProviderState.turn
  cases c.requests.get request <;> simp

/-- What a request reads is of the grant that the account has. -/
theorem snapshotOk_of_providerIntegration (hok : CredentialOk c) {allowPendingRevocation : Bool}
    {integration : ActiveProviderIntegration}
    (h : c.providerIntegration allowPendingRevocation = some integration) :
    SnapshotOk c integration := by
  obtain ⟨row, hfilter, rfl⟩ := Option.map_eq_some_iff.1 h
  obtain ⟨hrow, hguard⟩ := Option.filter_eq_some_iff.1 hfilter
  have hold := hok.row
  rw [hrow] at hold
  obtain ⟨last, hlast, hrowOk⟩ := hold
  obtain ⟨t, hcredential, hgrant, -⟩ := hrowOk.active (of_decide_eq_true hguard).1
  refine ⟨le_rfl, fun t' ht' _ => ⟨last, hlast, ?_⟩⟩
  cases hcredential.symm.trans ht'
  exact hgrant

theorem oauthTokenRequest_stamp {body : TokenBody} {previousRefreshToken : Option String}
    {previousScope : String} {now : Millis} {grant issue : ℕ} {t : PlanetScaleToken}
    (h : oauthTokenRequest body previousRefreshToken previousScope now grant issue = some t) :
    t.grant = grant ∧ t.issue = issue := by
  unfold oauthTokenRequest at h
  obtain ⟨_, -, h⟩ := Option.bind_eq_some_iff.1 h
  obtain ⟨_, -, h⟩ := Option.bind_eq_some_iff.1 h
  cases h
  exact ⟨rfl, rfl⟩

theorem credentialOk_refreshPlanetScaleToken (hok : CredentialOk c) {body : Option TokenBody}
    {now : Millis}
    (h : ProviderEvent.apply (.refreshPlanetScaleToken request body now) c = .ok c') :
    CredentialOk c' := by
  obtain ⟨r, hr, h⟩ := request_turn_eq_ok.1 h
  have hrequest := hok.requests request r hr
  split at h
  case h_2 => cases h
  rename_i integration credential
  obtain ⟨hsnapshot, hcredential⟩ := hrequest
  have hissue : CredentialOk { c with issued := c.issued + 1 } := hok.issue (Nat.le_succ _)
  dsimp only at h
  split at h
  · cases h
    exact hissue.goOn (r := .holding integration) hsnapshot
  · rename_i refreshed hrefreshed
    cases h
    obtain ⟨hbody, -⟩ := Option.filter_eq_some_iff.1 hrefreshed
    obtain ⟨body, -, htoken⟩ := Option.bind_eq_some_iff.1 hbody
    obtain ⟨hgrant, hnumber⟩ := oauthTokenRequest_stamp htoken
    refine hissue.goOn (r := .writing integration refreshed)
      ⟨hsnapshot, hnumber.le, fun hconnects => ?_⟩
    -- Everything that was connected had been issued before.
    obtain ⟨last, hlast, hlastGrant⟩ := hsnapshot.2 credential hcredential hconnects
    refine ⟨last, hlast, hgrant.trans hlastGrant, ?_⟩
    rw [hnumber]
    have hold := hok.row
    cases hrow : c.row with
    | none =>
        rw [hrow] at hold
        rw [hold.1] at hlast
        cases hlast
    | some row =>
        rw [hrow] at hold
        obtain ⟨last', hlast', hrowOk⟩ := hold
        obtain rfl := Option.some.inj (hlast.symm.trans hlast')
        exact Nat.lt_succ_of_le hrowOk.issued

theorem credentialOk_writeBack (hok : CredentialOk c) {now : Millis} {fault : Option Bool}
    (horderly : Orderly (.writeBack request now fault) c)
    (h : ProviderEvent.apply (.writeBack request now fault) c = .ok c') : CredentialOk c' := by
  obtain ⟨r, hr, h⟩ := request_turn_eq_ok.1 h
  have hrequest := hok.requests request r hr
  split at h
  case h_2 => cases h
  rename_i integration refreshed
  obtain ⟨hsnapshot, hfresh⟩ := hrequest
  have hwrite : fault ≠ some false → CredentialOk (c.writeBack refreshed now) := fun hfault =>
    hok.writeBack hfresh (horderly (integration, refreshed) (by rw [hr]; rfl) hfault) now
  have hconnects : (c.writeBack refreshed now).connects = c.connects := by
    unfold ProviderState.writeBack
    split <;> rfl
  have hholding : ∀ i : ActiveProviderIntegration, i.connects = integration.connects →
      (∀ t, i.encryptedCredential = .token t → i.connects = c.connects.length →
        ∃ s, c.connects.head? = some s ∧ t.grant = (ofLex s).1) →
      RequestOk (c.writeBack refreshed now) (.holding i) := fun i hi hgrant => by
    refine ⟨?_, ?_⟩
    · rw [hconnects, hi]
      exact hsnapshot.1
    · rw [hconnects]
      exact hgrant
  cases fault with
  | none =>
      cases h
      refine (hwrite (by simp)).goOn (hholding _ rfl fun t ht heq => ?_)
      obtain ⟨s, hs, hgrant, -⟩ := hfresh.2 heq
      cases ht
      exact ⟨s, hs, hgrant⟩
  | some executed =>
      cases h
      cases executed with
      | true => exact (hwrite (by simp)).goOn (hholding _ rfl hsnapshot.2)
      | false => exact hok.goOn hsnapshot

theorem credentialOk_reconnect (hok : CredentialOk c) {fault : Option Bool} {released : Bool}
    (horderly : Orderly (.reconnect request fault released) c)
    (h : ProviderEvent.apply (.reconnect request fault released) c = .ok c') :
    CredentialOk c' := by
  obtain ⟨r, hr, h⟩ := request_turn_eq_ok.1 h
  have hrequest := hok.requests request r hr
  split at h
  case h_2 => cases h
  rename_i token existing now claim
  have hreconnect : fault ≠ some false →
      CredentialOk (c.reconnect token existing now claim).1 := fun hfault =>
    hok.reconnect hrequest (horderly (token, existing, claim) (by rw [hr]; rfl) hfault)
  generalize c.reconnect token existing now claim = out at h hreconnect
  obtain ⟨reconnected, done⟩ := out
  dsimp only at h hreconnect
  cases fault with
  | none =>
      dsimp only at h
      split at h <;> cases h
      · exact (hreconnect (by simp)).finish
      · exact (hreconnect (by simp)).release claim released
  | some executed =>
      cases h
      cases executed with
      | true => exact (hreconnect (by simp)).release claim released
      | false => exact hok.release claim released

theorem credentialOk_disconnect (hok : CredentialOk c) {now : Millis} {fault : Option Bool}
    {released : Bool}
    (h : ProviderEvent.apply (.disconnect request now fault released) c = .ok c') :
    CredentialOk c' := by
  obtain ⟨r, hr, h⟩ := request_turn_eq_ok.1 h
  split at h
  case h_2 => cases h
  rename_i claim integration
  have hdisconnect := hok.disconnect claim now
  generalize c.disconnect claim now = out at h hdisconnect
  obtain ⟨disconnected, done⟩ := out
  dsimp only at h hdisconnect
  cases fault with
  | none =>
      dsimp only at h
      split at h <;> cases h
      · exact hdisconnect.finish
      · exact hdisconnect.release (some claim) released
  | some executed =>
      cases h
      cases executed with
      | true => exact hdisconnect.release (some claim) released
      | false => exact hok.release (some claim) released

theorem credentialOk_exchangePlanetScaleCode (hok : CredentialOk c) {body : TokenBody}
    {inspectedScope : String} {now : Millis}
    (h : ProviderEvent.apply (.exchangePlanetScaleCode body inspectedScope now) c = .ok c') :
    CredentialOk c' := by
  have hissue : CredentialOk { c with grants := c.grants + 1, issued := c.issued + 1 } :=
    hok.issue (Nat.le_succ _)
  unfold ProviderEvent.apply at h
  dsimp only at h
  split at h
  · cases h
    exact hissue
  · rename_i token htoken
    generalize (if inspectedScope = "" then token.scope else inspectedScope) = scope at h
    split at h <;> cases h
    · exact hissue
    · exact hissue.begin_ (r := .exchanged { token with scope })
        (oauthTokenRequest_stamp htoken).2.le

theorem credentialOk_apply {event : ProviderEvent} (horderly : Orderly event c)
    (hok : CredentialOk c) (h : event.apply c = .ok c') : CredentialOk c' := by
  cases event with
  | providerIntegration allowPendingRevocation =>
      unfold ProviderEvent.apply at h
      dsimp only at h
      split at h
      · cases h
      · rename_i integration hintegration
        cases h
        exact hok.begin_ (snapshotOk_of_providerIntegration hok hintegration)
  | providerAccessToken request now =>
      obtain ⟨r, hr, h⟩ := request_turn_eq_ok.1 h
      have hrequest := hok.requests request r hr
      split at h
      case h_2 => cases h
      rename_i integration
      split at h <;> cases h
      · exact hok
      · rename_i credential hcredential
        refine hok.goOn (r := .refreshing integration credential) ⟨hrequest, ?_⟩
        unfold ProviderState.credentialToRefresh at hcredential
        split at hcredential
        · cases hcredential
        · rename_i credential' hsealed
          split at hcredential
          · cases hcredential
          split at hcredential
          · cases hcredential
          split at hcredential <;> cases hcredential
          exact hsealed
  | refreshPlanetScaleToken request body now => exact credentialOk_refreshPlanetScaleToken hok h
  | writeBack request now fault => exact credentialOk_writeBack hok horderly h
  | exchangePlanetScaleCode body inspectedScope now =>
      exact credentialOk_exchangePlanetScaleCode hok h
  | findExisting request now =>
      obtain ⟨r, hr, h⟩ := request_turn_eq_ok.1 h
      have hrequest := hok.requests request r hr
      split at h
      case h_2 => cases h
      rename_i token
      split at h
      · cases h
        exact hok.goOn (r := .inserting token now) hrequest
      · rename_i existing _
        split at h
        · cases h
          exact hok.goOn (r := .claiming token existing now) hrequest
        split at h <;> cases h
        · exact hok.finish
        · exact hok.goOn (r := .reconnecting token existing now none) hrequest
  | claimReconnect request now =>
      obtain ⟨r, hr, h⟩ := request_turn_eq_ok.1 h
      have hrequest := hok.requests request r hr
      split at h
      case h_2 => cases h
      rename_i token existing before
      split at h <;> cases h
      · exact hok.finish
      · rename_i claimed hclaimed
        obtain ⟨hclaim, -, hissued⟩ := hok.claim hclaimed
        exact hclaim.goOn (r := .reconnecting token existing before (some c.claims))
          (le_of_le_of_eq hrequest hissued.symm)
  | reconnect request fault released => exact credentialOk_reconnect hok horderly h
  | insert request fault =>
      obtain ⟨r, hr, h⟩ := request_turn_eq_ok.1 h
      have hrequest := hok.requests request r hr
      split at h
      case h_2 => cases h
      cases h
      split
      · exact hok.finish
      · exact (hok.insert hrequest _).finish
  | claimDisconnect now =>
      unfold ProviderEvent.apply at h
      dsimp only at h
      split at h <;> cases h
      rename_i claimed hclaimed
      exact (hok.claim hclaimed).1.begin_ (r := .disconnecting c.claims none) trivial
  | integrationForRevocation request released =>
      obtain ⟨r, hr, h⟩ := request_turn_eq_ok.1 h
      split at h
      case h_2 => cases h
      rename_i claim
      split at h <;> cases h
      · exact hok.release (some claim) released
      · exact hok.goOn (r := .disconnecting claim (some _)) trivial
  | disconnect request now fault released => exact credentialOk_disconnect hok h
  | giveUp request released =>
      obtain ⟨r, hr, h⟩ := request_turn_eq_ok.1 h
      split at h <;> cases h
      · exact hok.release _ released
      · exact hok.release _ released
  | crash request =>
      cases h
      exact hok.finish

theorem newest_of_credentialOk (hok : CredentialOk c) : Newest c where
  active row hrow hactive := by
    have hold := hok.row
    rw [hrow] at hold
    obtain ⟨last, -, hrowOk⟩ := hold
    obtain ⟨t, hcredential, hgrant, -, hgreatest, hdisconnected⟩ := hrowOk.active hactive
    exact ⟨t, hcredential, hgreatest, fun hmem => (hdisconnected _ hmem).ne hgrant⟩
  revoked row hrow hrevoked := by
    have hold := hok.row
    rw [hrow] at hold
    obtain ⟨last, -, hrowOk⟩ := hold
    exact (hrowOk.revoked hrevoked).1

theorem credentialOk_initial : CredentialOk .initial where
  row := ⟨rfl, rfl, rfl⟩
  requests k r hr := by
    rw [ProviderState.initial, Table.get_empty] at hr
    cases hr

end

/-! ### Runs -/

/-- In a run with no write that comes too late, the newest credential stays. -/
theorem newest_run (events : List ProviderEvent)
    (horderly : Along ProviderEvent.apply Orderly events .initial) :
    Newest (run ProviderEvent.apply events .initial) :=
  newest_of_credentialOk (run_invariant (I := CredentialOk)
    (fun _ _ _ ho hok h => credentialOk_apply ho hok h) horderly credentialOk_initial)

/-! An account is connected, and a request reads its integration and refreshes the token. -/

def sampleBody (accessToken : String) : TokenBody where
  accessToken := some accessToken
  refreshToken := some "refresh"
  expiresIn := some 60
  scope := some (" ".intercalate planetScaleManagedScopes)

def sampleRefresh : List ProviderEvent :=
  [.exchangePlanetScaleCode (sampleBody "first") "" 0, .findExisting 0 0, .insert 0 none,
    .providerIntegration false, .providerAccessToken 1 1000,
    .refreshPlanetScaleToken 1 (some (sampleBody "refreshed")) 1000]

theorem refresh_newest :
    (run ProviderEvent.apply (sampleRefresh ++ [.writeBack 1 1000 none]) .initial).stored =
      [toLex (1, 2), toLex (1, 1)] ∧
    Newest (run ProviderEvent.apply (sampleRefresh ++ [.writeBack 1 1000 none]) .initial) :=
  ⟨by decide +kernel, newest_run _
    ⟨trivial, trivial, trivial, trivial, trivial, trivial, by decide +kernel, trivial⟩⟩

/-- The account is reconnected before the refreshed token is written back. -/
def sampleStraddled : List ProviderEvent :=
  sampleRefresh ++ [.exchangePlanetScaleCode (sampleBody "second") "" 2000, .findExisting 2 2000,
    .claimReconnect 2 2000, .reconnect 2 none true, .writeBack 1 2000 none]

/-- The token of the grant that was replaced is stored over the one of the new grant. -/
theorem straddled_not_newest :
    ¬ Newest (run ProviderEvent.apply sampleStraddled .initial) := by
  intro h
  have hrun : ((run ProviderEvent.apply sampleStraddled .initial).row.map
      (fun row => (row.status, row.encryptedCredential)) = some ("active", .token
        ⟨"refreshed", "refresh", 61000, " ".intercalate planetScaleManagedScopes, 1, 2⟩)) ∧
      toLex (2, 3) ∈ (run ProviderEvent.apply sampleStraddled .initial).stored := by
    decide +kernel
  obtain ⟨hrow, hstored⟩ := hrun
  obtain ⟨row, hget, hsame⟩ := Option.map_eq_some_iff.1 hrow
  obtain ⟨hstatus, hcredential⟩ := Prod.mk.inj hsame
  obtain ⟨t, ht, hgreatest, -⟩ := h.active row hget hstatus
  obtain rfl := SealedCredential.token.inj (hcredential.symm.trans ht)
  have hle := stamp_le_iff.1 (hgreatest.2 (Set.mem_ofPred.2 hstored))
  revert hle
  decide

end Cloud
end AgentDb
