import AgentDb.Runs.Rules

/-!
# Single requests do what their monitor allows

The trails of a document read, which holds a handle for its one request, of the change of a
monitoring role, which holds none, and of the loads of a catalog, which send nothing on behalf of
an operation.
-/

namespace AgentDb
namespace Runs

open Connection Executor Json Operations Program Safety Services Store

section

variable {x : Crates} {parseSql : Engine → String → Except String (List Statement)}
  {debug : String → String} {m : Trail} {n : ℕ}

/-! ### Document reads -/

namespace Document

open Services.Document (StoredDesktopDocumentPayload)

theorem follows_prepareDesktopRead (hclaimed : m.claimed = false) (hhandles : m.handles = 0) :
    Follows (monitor x parseSql debug)
      (Loading fun p m' => ∃ planned, DocumentPlan x debug planned p ∧
        p.operationId = m.operationId ∧ m' = m.load planned p.pin p.settings)
      m (prepareDesktopRead x debug m.operationId).run := by
  refine loading_getOperation hclaimed hhandles fun planned => ?_
  refine loading_check hclaimed hhandles fun payload hpayload => ?_
  refine loading_quiet hclaimed hhandles quiet_beginOperationScope fun _ => ?_
  refine loading_pinConnection hclaimed hhandles fun pin => ?_
  refine loading_check hclaimed hhandles fun _ hscope => ?_
  refine loading_check hclaimed hhandles fun _ _ => ?_
  refine loading_getSafety hclaimed hhandles fun settings => ?_
  refine loading_check hclaimed hhandles fun _ hpolicy => ?_
  dsimp only
  split
  · exact (sure_recordRun _ _).run_bind fun _ => ⟨hclaimed, hhandles⟩
  · exact ⟨planned, ⟨hpayload, hscope, hpolicy, ‹_›⟩, rfl, rfl⟩

variable (x debug) in
/-- A document read that has claimed its operation and holds `n` handles. -/
abbrev Claimed (n : ℕ) (m : Trail) (p : PreparedRead) : Prop :=
  Held .document n (DocumentPlan x debug · p) p.pin p.settings p.operationId m

variable {p : PreparedRead}

theorem Claimed.completes (h : Claimed x debug n m p) :
    m.Completes x parseSql debug [p.message] :=
  h.prescribed fun _ hplan => .document hplan rfl rfl rfl

variable (x debug) in
/-- The end of a claimed run: it has reported. -/
def Reported (p : PreparedRead) (m : Trail) : Prop := Claimed x debug 0 m p ∧ m.finishes ≠ []

theorem Claimed.reported (h : Claimed x debug 0 m p) (target : OperationState) :
    Reported x debug p (m.report target) := ⟨h.report target, by simp [Trail.report]⟩

theorem Claimed.follows_drop (h : Claimed x debug 0 m p) {target : OperationState} {reason : String}
    (hreason : reason.utf8ByteSize ≤ 64) (htarget : allowed .executing target = true)
    (hsucceeded : target ≠ .succeeded)
    (hcancelled : target = .cancelled → m.interrupted = true) :
    Follows (monitor x parseSql debug) (fun _ => Reported x debug p) m
      (dropResult (finishOperation p.operationId target (reasonDetails reason))).run :=
  follows_dropResult (follows_finishOperation (h.reportable htarget nofun
    (fun _ => brief_reasonDetails hreason) (fun hs => absurd hs hsucceeded) hcancelled)
    fun _ => h.reported target)

theorem Claimed.follows_reportFailed (h : Claimed x debug 0 m p) (reason : String)
    (hreason : reason.utf8ByteSize ≤ 64) :
    Follows (monitor x parseSql debug) (fun _ => Reported x debug p) m
      (reportFailed p.operationId (reasonDetails reason)).run :=
  h.follows_drop hreason rfl nofun nofun

theorem follows_failed (h : Claimed x debug 0 m p) {e : AppError}
    (hcancelled : isCancelled e = true → m.interrupted = true) :
    Follows (monitor x parseSql debug) (fun _ => Reported x debug p) m (p.failed e).run := by
  have hend : ∀ {m : Trail}, Reported x debug p m →
      Follows (monitor x parseSql debug) (fun _ => Reported x debug p) m
        (do p.record .read "error" "error" none none e.toText; throw e : RunM Reply).run :=
    fun hm => (sure_recordRun _ _).run_bind fun _ => hm
  unfold PreparedRead.failed
  dsimp only
  split
  · exact follows_run_bind (h.follows_drop (by decide) rfl (by decide) fun _ => hcancelled ‹_›)
      (fun _ _ hm => hend hm) fun _ _ hm => hm
  · exact follows_run_bind (h.follows_drop (utf8ByteSize_kind_le e) rfl (by decide) nofun)
      (fun _ _ hm => hend hm) fun _ _ hm => hm

theorem brief_successDetails {page : Reply} (h : page.InRange) :
    Brief (PreparedRead.successDetails page) := by
  refine ⟨_, rfl, by simp, ?_⟩
  simp only [List.forall_mem_cons, List.not_mem_nil, false_imp_iff, implies_true, and_true]
  exact ⟨⟨by decide, _, h.2, rfl⟩, by decide, _, h.1, rfl⟩

theorem follows_succeeded (h : Claimed x debug 0 m p) {page : Reply} (hpage : page.InRange)
    (hcomplete : m.Completes x parseSql debug m.answered) :
    Follows (monitor x parseSql debug) (fun _ => Reported x debug p) m (p.succeeded page).run := by
  refine follows_run_bind (R := fun _ => Reported x debug p) (follows_finishOperation
    (h.reportable rfl nofun (fun _ => brief_successDetails hpage) (fun _ => hcomplete) nofun)
    fun _ => h.reported _) (fun _ _ hm => ?_) fun _ _ hm => hm
  exact (sure_recordRun _ _).run_bind fun _ => hm

variable (x parseSql debug) in
/-- The end of the read: all that is prescribed was acknowledged, or a cancel that is reported was
signalled. -/
abbrev Answered : AppResult Reply → Trail → Prop :=
  Ends (fun page m => page.InRange ∧ m.Completes x parseSql debug m.answered)
    fun e m => isCancelled e = true → m.interrupted = true

theorem follows_runClaimed (h : Claimed x debug 0 m p) (hsent : m.sent = [])
    (hanswered : m.answered = []) :
    Follows (monitor x parseSql debug) (fun _ => Reported x debug p) m p.runClaimed.run := by
  have hall : m.Completes x parseSql debug [p.message] := h.completes
  refine follows_run_bind (R := Ends (fun _ m' => m' = m) fun _ m' => Reported x debug p m')
    (follows_reporting (quiet_connect _ _) (fun _ => rfl)
      fun _ => (sure_recordRun _ _).run_bind fun _ =>
        (h.follows_reportFailed "connection_failed" (by decide)).mono fun _ _ hm _ => hm)
      (fun _ m' hm => hm ▸ ?_) fun _ _ hm => hm
  refine follows_run_bind (R := Ends (fun _ m' => m' = m) fun _ m' => Reported x debug p m')
    (follows_reporting (quiet_backend _) (fun _ => rfl)
      fun _ => (h.follows_reportFailed "document_backend_unavailable" (by decide)).mono
        fun _ _ hm _ => hm)
      (fun _ m' hm => hm ▸ ?_) fun _ _ hm => hm
  have hheld : Claimed x debug 1 { m with handles := m.handles + 1 } p := h.register
  have hfirst : m.sent ++ [p.message] <+: [p.message] := by simp [hsent]
  have hlast : m.Completes x parseSql debug (m.answered ++ [p.message]) := by
    rw [hanswered]
    exact hall
  refine follows_attempt_bind
    (R := fun r m' => Claimed x debug 0 m' p ∧ Answered x parseSql debug r m')
    (follows_withHandle
      (R := fun r m' => Claimed x debug 1 m' p ∧ Answered x parseSql debug r m') h.id
      (follows_guarded (follows_request (by simp [h.id]) h.claimed
        (by simp [PreparedRead.message, h.id]) (hall.sends hfirst)
        (fun reply hreply => ⟨(hheld.send _).acknowledge _, hreply, hlast.acknowledge⟩)
        (fun e he => ⟨hheld.send _, fun hc => absurd hc (by simp [isCancelled_of_targetError he])⟩)
        (fun cause => ⟨hheld.interrupt _, interrupted_of_isCancelled⟩)
        fun cause => ⟨(hheld.send _).interrupt _, interrupted_of_isCancelled⟩)) ?_) ?_
  · rintro r m' ⟨hm, hr⟩
    refine ⟨hm.id, hm.handles ▸ Nat.one_pos,
      fun he => absurd (hm.entry.symm.trans he) (by decide), hm.release, ?_⟩
    cases r with
    | ok page => exact hr
    | error e => exact hr
  · rintro r m' ⟨hm, hr⟩
    cases r with
    | ok page => exact follows_succeeded hm hr.1 hr.2
    | error e => exact follows_failed hm hr

/-- **`run_desktop_read` does what its monitor allows**; when it returns, it holds no handle, and
has reported if it claimed. -/
theorem follows_runDesktopRead (id : Uuid) :
    Follows (monitor x parseSql debug)
      (fun _ m => m.handles = 0 ∧ (m.claimed = true → m.finishes ≠ []))
      ({ entry := .document, operationId := id } : Trail) (runDesktopRead x debug id).run := by
  refine follows_run_bind (follows_prepareDesktopRead rfl rfl) ?_
    fun e m' hm => ⟨hm.2, fun h => absurd h (by simp [hm.1])⟩
  rintro p m' ⟨planned, hplan, hid, rfl⟩
  have hstart : Claimed x debug 0
      { ({ entry := .document, operationId := id } : Trail).load planned p.pin p.settings with
        claimed := true } p := ⟨⟨planned, rfl, hplan⟩, rfl, hid, rfl, rfl, rfl, rfl⟩
  refine follows_run_bind (R := fun r m' => match r with
    | .ok _ => Claimed x debug 0 m' p ∧ m'.sent = [] ∧ m'.answered = []
    | .error _ => m'.handles = 0 ∧ m'.claimed = false)
    (follows_claimOperation rfl rfl nofun (hstart.completes.sends List.nil_prefix)
      (fun _ => ⟨hstart, rfl, rfl⟩) fun _ => ⟨rfl, rfl⟩)
    (fun claimed m' hm => ?_) fun _ m' hm => ⟨hm.1, fun h => absurd h (by simp [hm.2])⟩
  obtain ⟨hm, hsent, hanswered⟩ := hm
  exact (follows_runClaimed hm hsent hanswered).mono fun _ _ h => ⟨h.1.handles, fun _ => h.2⟩

end Document

/-! ### The monitoring role -/

namespace Monitoring

theorem follows_preparePostgresRole (hclaimed : m.claimed = false) (hhandles : m.handles = 0) :
    Follows (monitor x parseSql debug)
      (Loading fun p m' => ∃ planned settings, RolePlan x planned settings p ∧
        p.operationId = m.operationId ∧ m' = m.load planned p.pin settings)
      m (preparePostgresRole x m.operationId).run := by
  refine loading_getOperation hclaimed hhandles fun planned => ?_
  refine loading_check hclaimed hhandles fun payload hpayload => ?_
  refine loading_quiet hclaimed hhandles quiet_beginOperationScope fun _ => ?_
  refine loading_pinConnection hclaimed hhandles fun pin => ?_
  refine loading_check hclaimed hhandles fun _ hscope => ?_
  refine loading_getSafety hclaimed hhandles fun settings => ?_
  refine loading_check hclaimed hhandles fun _ hpolicy => ?_
  exact ⟨planned, settings, ⟨hpayload, hscope, hpolicy⟩, rfl, rfl⟩

variable (x) in
/-- A role change that has claimed its operation. -/
abbrev Claimed (settings : SafetySettings) (m : Trail) (p : PreparedRole) : Prop :=
  Held .role 0 (RolePlan x · settings p) p.pin settings p.operationId m

variable {settings : SafetySettings} {p : PreparedRole}

/-- The request that changes the role. -/
def PreparedRole.roleMessage (p : PreparedRole) : Message :=
  p.message .write (.execute (monitoringRoleSql p.payload.enabled))

theorem Claimed.completes (h : Claimed x settings m p) :
    m.Completes x parseSql debug [p.roleMessage] :=
  h.prescribed fun _ hplan => .role hplan rfl rfl

theorem Claimed.sends_status (h : Claimed x settings m p) :
    m.Sends x parseSql debug [p.roleMessage, p.message .read .status] := by
  obtain ⟨planned, pin, settings, hplanned, hpin, hsettings, hd⟩ :=
    h.prescribed fun _ hplan => .status hplan rfl rfl
  exact ⟨planned, pin, settings, _, false, hplanned, hpin, hsettings, hd, List.prefix_rfl⟩

theorem Claimed.follows_drop (h : Claimed x settings m p) {target : OperationState}
    {details : Value} (htarget : allowed .executing target = true)
    (hsucceeded : target ≠ .succeeded) (hcancelled : target ≠ .cancelled) :
    Follows (monitor x parseSql debug) (fun _ m => Claimed x settings m p) m
      (dropResult (finishOperation p.operationId target details)).run :=
  follows_dropResult (follows_finishOperation (h.reportable htarget nofun (by simp)
    (fun hs => absurd hs hsucceeded) fun hc => absurd hc hcancelled) fun _ => h.report target)

theorem Claimed.follows_reportFailed (h : Claimed x settings m p) (details : Value) :
    Follows (monitor x parseSql debug) (fun _ m => Claimed x settings m p) m
      (reportFailed p.operationId details).run := h.follows_drop rfl (by decide) (by decide)

/-- A request under a timeout alone. -/
theorem follows_timeout {text : String} {future : FutureM Reply}
    {Q : AppResult Reply → Trail → Prop}
    (hfuture : Follows (monitor x parseSql debug) (fun r m => Q (match r with
      | .ok result => result
      | .error _ => .error (.safety text)) m) m future.run.run) :
    Follows (monitor x parseSql debug) Q m (PreparedRole.timeout text future).run := by
  change Follows (monitor x parseSql debug) Q m (future.run.run.bind _)
  rw [follows_bind]
  refine hfuture.mono fun r m hr => ?_
  cases r with
  | ok result => exact hr
  | error cause => exact hr

theorem follows_setPostgresRole (h : Claimed x settings m p) (hsent : m.sent = [])
    (hanswered : m.answered = []) (grant : ExecutionGrant) :
    Follows (monitor x parseSql debug) (fun r m' => Claimed x settings m' p ∧
        ∀ reply, r = .ok reply → m'.sent = [p.roleMessage] ∧ m'.answered = [p.roleMessage])
      m (p.setPostgresRole grant).run := by
  have hall : m.Completes x parseSql debug [p.roleMessage] := h.completes
  refine follows_run_bind (R := fun _ m' => m' = m) (follows_liftExcept.2 rfl)
    (fun _ m' hm => hm ▸ ?_) fun e m' hm => hm ▸ ⟨h, nofun⟩
  refine follows_timeout (follows_request nofun h.claimed (by simp [PreparedRole.message, h.id])
    (hall.sends (by simp [hsent, PreparedRole.roleMessage]))
    (fun reply _ => ⟨(h.send _).acknowledge _, fun _ _ => ?_⟩) (fun e _ => ⟨h.send _, nofun⟩)
    (fun cause => ⟨h.interrupt _, nofun⟩) fun cause => ⟨(h.send _).interrupt _, nofun⟩)
  simp [hsent, hanswered, PreparedRole.roleMessage]

theorem follows_status (h : Claimed x settings m p) (hsent : m.sent = [p.roleMessage]) :
    Follows (monitor x parseSql debug) (fun _ m => Claimed x settings m p) m p.status.run := by
  have hall : m.Sends x parseSql debug [p.roleMessage, p.message .read .status] := h.sends_status
  exact follows_timeout (follows_request nofun h.claimed (by simp [PreparedRole.message, h.id])
    (hsent ▸ hall) (fun reply _ => (h.send _).acknowledge _) (fun e _ => h.send _)
    (fun cause => h.interrupt _) fun cause => (h.send _).interrupt _)

theorem follows_succeeded (h : Claimed x settings m p) (hsent : m.sent = [p.roleMessage])
    (hanswered : m.answered = [p.roleMessage]) (approvedBy : String) :
    Follows (monitor x parseSql debug) (fun _ m => Claimed x settings m p) m
      (p.succeeded approvedBy).run := by
  have hcomplete : m.Completes x parseSql debug m.answered := hanswered ▸ h.completes
  refine (sure_recordRun _ _).run_bind fun _ => ?_
  refine follows_attempt_bind (R := fun _ m' => m' = m.report .succeeded)
    (follows_finishOperation (h.reportable rfl nofun (by simp) (fun _ => hcomplete) nofun)
      fun _ => rfl) ?_
  rintro r m' rfl
  have h' : Claimed x settings (m.report .succeeded) p := h.report _
  cases r with
  | ok _ => exact follows_status h' hsent
  | error e =>
    exact follows_run_bind (h'.follows_drop rfl (by decide) (by decide)) (fun _ _ hm => hm)
      fun _ _ hm => hm

theorem follows_runClaimed (h : Claimed x settings m p) (hsent : m.sent = [])
    (hanswered : m.answered = []) (approvedBy : String) (grant : ExecutionGrant) :
    Follows (monitor x parseSql debug) (fun _ m => Claimed x settings m p) m
      (p.runClaimed approvedBy grant).run := by
  refine follows_run_bind (R := fun r m' => match r with
    | .ok _ => m' = m
    | .error _ => Claimed x settings m' p) (follows_reporting (quiet_auditRecord _) (fun _ => rfl)
      fun _ => (h.follows_reportFailed _).mono fun _ _ hm _ => hm) (fun _ m' hm => hm ▸ ?_)
      fun _ _ hm => hm
  refine follows_run_bind (R := fun r m' => match r with
    | .ok _ => m' = m
    | .error _ => Claimed x settings m' p) (follows_reporting (quiet_connect _ _) (fun _ => rfl)
      fun _ => (sure_recordRun _ _).run_bind fun _ => (h.follows_reportFailed _).mono
        fun _ _ hm _ => hm) (fun _ m' hm => hm ▸ ?_) fun _ _ hm => hm
  refine follows_run_bind (R := fun r m' => match r with
    | .ok _ => m' = m
    | .error _ => Claimed x settings m' p) (follows_reporting (quiet_backend _) (fun _ => rfl)
      fun _ => (h.follows_reportFailed _).mono fun _ _ hm _ => hm) (fun _ m' hm => hm ▸ ?_)
      fun _ _ hm => hm
  refine follows_attempt_bind (follows_setPostgresRole h hsent hanswered grant) ?_
  rintro r m' ⟨hm, hok⟩
  cases r with
  | ok reply => exact follows_succeeded hm (hok reply rfl).1 (hok reply rfl).2 approvedBy
  | error e =>
    refine (sure_recordRun _ _).run_bind fun _ => ?_
    exact follows_run_bind (hm.follows_drop rfl (by decide) (by decide)) (fun _ _ hm => hm)
      fun _ _ hm => hm

/-- **`run_postgres_role` does what its monitor allows**, and never holds a handle. -/
theorem follows_runPostgresRole (id : Uuid) :
    Follows (monitor x parseSql debug) (fun _ m => m.handles = 0)
      ({ entry := .role, operationId := id } : Trail) (runPostgresRole x id).run := by
  refine follows_run_bind (follows_preparePostgresRole rfl rfl) ?_ fun e m' hm => hm.2
  rintro p m' ⟨planned, settings, hplan, hid, rfl⟩
  have hstart : Claimed x settings
      { ({ entry := .role, operationId := id } : Trail).load planned p.pin settings with
        claimed := true } p := ⟨⟨planned, rfl, hplan⟩, rfl, hid, rfl, rfl, rfl, rfl⟩
  refine follows_run_bind (R := fun r m' => match r with
    | .ok _ => Claimed x settings m' p ∧ m'.sent = [] ∧ m'.answered = []
    | .error _ => m'.handles = 0)
    (follows_claimOperation rfl rfl nofun (hstart.completes.sends List.nil_prefix)
      (fun _ => ⟨hstart, rfl, rfl⟩) fun _ => rfl)
    (fun claimed m' hm => ?_) fun _ m' hm => hm
  obtain ⟨hm, hsent, hanswered⟩ := hm
  exact (follows_runClaimed hm hsent hanswered _ _).mono fun _ _ h => h.handles

end Monitoring

/-! ### Catalog loads -/

theorem quiet_writeThrough (pin : PinnedConnection) (catalog : Stamped) :
    Quiet x parseSql debug (writeThrough pin catalog) := by
  refine (quiet_putCatalog pin catalog).bind fun outcome => ?_
  cases outcome with
  | stored => exact quiet_pure ()
  | notPersisted => exact quiet_pure ()
  | stale => exact quiet_throw retryLoading

theorem quiet_readCache (connectionId : Uuid) (mode : CatalogReadMode) :
    Quiet x parseSql debug (readCache connectionId mode) := by
  refine (quiet_pin connectionId .read).bind fun pin => ?_
  cases mode with
  | cacheFirst => exact (quiet_getCatalog pin).bind fun _ => quiet_pure _
  | refresh => exact (quiet_clearSchemaCache _ _).bind fun _ => quiet_pure _
  | liveNoCache => exact quiet_pure _

theorem quiet_introspectAndMaybeStore (pin : PinnedConnection) (mode : CatalogReadMode) :
    Quiet x parseSql debug (introspectAndMaybeStore pin mode) := by
  refine (quiet_connect _ _).bind fun _ => (quiet_introspect _).bind fun catalog => ?_
  split
  · exact quiet_pure _
  · exact (quiet_liftExcept _).bind fun _ => (quiet_writeThrough _ _).bind fun _ => quiet_pure _

theorem quiet_loadCatalog (connectionId : Uuid) (mode : CatalogReadMode) :
    Quiet x parseSql debug (loadCatalog connectionId mode) := by
  refine (quiet_readCache connectionId mode).bind fun r => ?_
  obtain ⟨pin, _ | cached⟩ := r
  · exact quiet_introspectAndMaybeStore pin mode
  · exact quiet_pure _

theorem quiet_loadCatalogSnapshot (connectionId : Uuid) (mode : CatalogReadMode) :
    Quiet x parseSql debug (loadCatalogSnapshot connectionId mode) := by
  refine (quiet_readCache connectionId mode).bind fun r => ?_
  obtain ⟨pin, _ | cached⟩ := r
  · refine (quiet_connect _ _).bind fun _ => (quiet_liftExcept _).bind fun _ =>
      (quiet_introspect _).bind fun _ => (quiet_liftExcept _).bind fun _ => ?_
    split
    · exact (quiet_writeThrough _ _).bind fun _ => quiet_pure _
    · exact quiet_pure _
  · exact quiet_pure _

end

end Runs
end AgentDb
